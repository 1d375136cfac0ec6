import DeviceLibs.Command.Line

/-!
# Runs of the program

A run reads a command line, makes the plan and carries out its effects. It leaves a file tree and a
report: an exit code and two texts.
-/

namespace DeviceLibs

/-- What a run says when it is over. -/
structure Report where
  exitCode : UInt8 := 0
  output : String := ""
  errors : String := ""
  deriving DecidableEq, Repr

namespace CommandLine

def programName : String := "comgr"

def version : String := "0.1.0"

end CommandLine

namespace Report

open CommandLine

/-- An answer to a command line that asks for nothing to be done. The texts that explain command lines
are no part of a report. -/
def ofStop : Stop → Report
  | .usage => { exitCode := 2 }
  | .help => {}
  | .version => { output := s!"{programName} {version}\n" }

def ofError (e : CommandError) : Report := { exitCode := 1, errors := s!"error: {e.message}\n" }

/-- The report of a plan after its effects. -/
def ofPlan (p : Plan) : Except FileEffect.Failure Unit → Report
  | .ok () => { output := p.opening ++ p.closing }
  | .error failure => { ofError (.effect failure) with output := p.opening }

/-- A report with a log before its errors. -/
def withLog (r : Report) (log : String) : Report := { r with errors := log ++ r.errors }

end Report

namespace Request

/-- The log of a request: nothing, or all that is no mere trace. -/
def log (r : Request) (events : List Event) : String :=
  if r.verbose then String.join ((events.filter (·.level = .debug)).map Event.line) else ""

/-- The events of a plan and those of its effects. -/
def logOfPlan (r : Request) (made : List Event) (p : Plan) (done : List Event) : String :=
  r.log (made ++ if p.logsEffects then done else [])

/-- Carries out a request in a working directory. -/
def run (r : Request) (t : FileTree) (cwd : Location) : FileTree × Report :=
  let made := r.plan (t.view cwd) cwd.path
  match made.result with
  | .error e => (t, (Report.ofError e).withLog (r.log made.events))
  | .ok plan =>
    let (t', done) := FileEffect.performAll t cwd plan.effects
    (t', (Report.ofPlan plan done.result).withLog (r.logOfPlan made.events plan done.events))

end Request

/-- Runs the program on a command line. -/
def CommandLine.run (arguments : List String) (t : FileTree) (cwd : Location) :
    FileTree × Report :=
  match parse arguments with
  | .error stop => (t, .ofStop stop)
  | .ok request => request.run t cwd

end DeviceLibs
