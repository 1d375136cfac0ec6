import DeviceLibs.Command.Run

/-!
# The program

Carries out plans on the files of the system. All that is decided is decided in the plan.
-/

namespace DeviceLibs

/-- What went wrong, in the words of a file tree where it has them. -/
def FileError.ofIO : IO.Error → FileError
  | .noFileOrDirectory .. => .notFound
  | .alreadyExists .. => .alreadyExists
  | .inappropriateType _ 20 _ => .notADirectory
  | .inappropriateType _ 21 _ => .isADirectory
  | .invalidArgument _ 36 _ => .nameTooLong
  | e => .system (toString e)

/-- What a path leads to on the system. -/
def Path.observe (p : Path) : IO (Except FileError FileEntry) := do
  try
    return .ok (.file (← IO.FS.readBinFile p.text))
  catch e =>
    match FileError.ofIO e with
    | .isADirectory => return .ok .directory
    | e => return .error e

def FileEffect.carryOut : FileEffect → IO Unit
  | makeDirectories path => IO.FS.createDirAll path.text
  | write path data => IO.FS.writeBinFile path.text data

/-- Carries out effects up to the first that fails. -/
def FileEffect.carryOutAll : List FileEffect → IO (Traced Failure Unit)
  | [] => return pure ()
  | effect :: rest => do
    match ← effect.carryOut.toBaseIO with
    | .ok () =>
      let others ← carryOutAll rest
      return ⟨effect.events ++ others.events, others.result⟩
    | .error e => return .ofExcept (.error ⟨effect, .ofIO e⟩)

def Report.print (r : Report) : IO Unit := do
  IO.print r.output
  IO.eprint r.errors

/-- Carries out a request in the current directory. -/
def Request.carryOut (r : Request) : IO Report := do
  let cwd : Path := ⟨(← IO.currentDir).toString⟩
  let seen ← (r.consulted cwd).mapM fun p => return (p, ← p.observe)
  let made := r.plan (fun p => (seen.lookup p).getD (.error .notFound)) cwd
  match made.result with
  | .error e => return (Report.ofError e).withLog (r.log made.events)
  | .ok plan =>
    let done ← FileEffect.carryOutAll plan.effects
    return (Report.ofPlan plan done.result).withLog (r.logOfPlan made.events plan done.events)

end DeviceLibs

open DeviceLibs in
def main (arguments : List String) : IO UInt32 := do
  let report ←
    match CommandLine.parse arguments with
    | .error stop => pure (Report.ofStop stop)
    | .ok request => request.carryOut
  report.print
  return report.exitCode.toUInt32
