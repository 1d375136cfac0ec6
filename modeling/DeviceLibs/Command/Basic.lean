import DeviceLibs.Config
import DeviceLibs.Files.Effect
import DeviceLibs.Listing

/-!
# Commands

What the commands do, as plans: a text to print, effects on files, a text to print when they have all
succeeded. A plan is made from the command, the working directory and what the file tree shows, with
events on the way; nothing is changed before it is complete. The stages of a command come in a fixed
order, and the first one that fails is reported.
-/

namespace DeviceLibs

inductive Command where
  /-- Writes a configuration to start from. -/
  | init
  /-- Lists the ISAs that have device libraries. -/
  | isaList
  /-- Lists the device libraries of a target, and may write them to a directory. -/
  | devlibs (isa options : Option String) (language : Option Language) (out : Option Path)
      (format : Option String)
  /-- Lists the precompiled header of a language, and may write it to a directory. -/
  | pch (language : Option Language) (out : Option Path) (format : Option String)
  deriving DecidableEq, Repr

/-- A command and what goes for every command. -/
structure Request where
  command : Command
  /-- The configuration to read in place of the nearest one. -/
  config : Option Path := none
  /-- Whether events are logged. -/
  verbose : Bool := false
  deriving DecidableEq, Repr

inductive CommandError where
  | config (error : ConfigError)
  | unknownFormat (name : String)
  | noIsa
  | selectingLibraries (action : Action) (error : SelectionError)
  | selectingHeader (language : Language) (error : SelectionError)
  | alreadyExists (path : Path)
  | effect (failure : FileEffect.Failure)
  deriving DecidableEq

/-- What was being done, and the messages of what went wrong, from the outermost inwards. -/
def CommandError.message : CommandError → String
  | config error => error.message
  | unknownFormat name => ListingFormat.unknownMessage name
  | noIsa => "no ISA given (pass --isa or set \x60isa\x60 in comgr.toml)"
  | selectingLibraries action error =>
    ": ".intercalate
      (s!"selecting device libraries for {action.isaName} ({action.language.name})" :: error.chain)
  | selectingHeader language error =>
    ": ".intercalate (s!"selecting precompiled header for {language.name}" :: error.chain)
  | alreadyExists path => s!"{path.text} already exists"
  | effect failure => failure.message

/-- The ISA names of the versions that have device libraries, in the order of the versions. -/
def supportedIsaNames : List String := ArchVersion.supported.map ArchVersion.hsaIsaName

/-- The device libraries of an action, in a set of their own. -/
def Action.collect (a : Action) : Traced CommandError DataSet :=
  if a.isaName = "" then .ofExcept (.error .noIsa)
  else a.addDeviceLibraries.build.mapError (.selectingLibraries a)

/-- The precompiled header of a language, in a set of its own. -/
def Language.collectHeader (l : Language) : Traced CommandError DataSet :=
  (Edit.addHeader l).build.mapError (.selectingHeader l)

def ListingFormat.parse (name : Option String) : Except CommandError ListingFormat :=
  match ofName? name with
  | some format => .ok format
  | none => .error (.unknownFormat (name.getD ""))

namespace DataSet

/-- Writes every object to a file of its name in a directory, which is made if it is missing. -/
def extraction (s : DataSet) (directory : Path) : List FileEffect :=
  .makeDirectories directory :: s.objects.map fun o => .write (directory.join o.name) o.data

/-- The listing as it is printed: JSON ends in a line break too. -/
def printed (s : DataSet) (format : ListingFormat) : String :=
  match format with
  | .human => s.render .human
  | .json => s.render .json ++ "\n"

end DataSet

structure Plan where
  /-- Printed before the effects. -/
  opening : String := ""
  effects : List FileEffect := []
  /-- Whether the effects are told of. -/
  logsEffects : Bool := true
  /-- Printed once all the effects have succeeded. -/
  closing : String := ""
  deriving DecidableEq

namespace Plan

/-- Lists a set of libraries, and writes it to a directory if one is given. -/
def libraries (a : Action) (s : DataSet) (out : Option Path) (format : ListingFormat) : Plan where
  opening :=
    (if format = .human then s!"Device libraries for {a.isaName} ({a.language.name}):\n" else "")
      ++ s.printed format
  effects := (out.map s.extraction).getD []
  closing :=
    match out, format with
    | some directory, .human => s!"Wrote {s.size} files to {directory.text}\n"
    | _, _ => ""

/-- Lists a header, and writes it to a directory if one is given. -/
def header (s : DataSet) (out : Option Path) (format : ListingFormat) : Plan where
  opening := s.printed format
  effects := (out.map s.extraction).getD []

/-- Writes the template of a configuration. -/
def initialConfig (path : Path) : Plan where
  effects := [.write path Config.template.toUTF8]
  logsEffects := false
  closing := s!"Created {path.text}\n"

def isaList : Plan where
  opening := "Supported ISAs:\n" ++
    String.join (supportedIsaNames.map fun name => "  " ++ name ++ "\n")

end Plan

namespace Request

/-- The configuration that is named, or the nearest one, or none at all. -/
def loadConfig (r : Request) (view : Config.View) (cwd : Path) : Traced CommandError Config :=
  match r.config with
  | some path => .ofExcept ((Config.load view path).mapError .config)
  | none => do
    match ← .ofExcept ((Config.findAndLoad view cwd).mapError .config) with
    | none => return {}
    | some (config, path) =>
      .emit (.loadedConfig path.text)
      return config

/-- Makes the plan of a request in a working directory. -/
def plan (r : Request) (view : Config.View) (cwd : Path) : Traced CommandError Plan :=
  match r.command with
  | .init =>
    let path := cwd.join Config.fileName
    match view path with
    | .ok _ => .ofExcept (.error (.alreadyExists path))
    | .error _ => return .initialConfig path
  | .isaList => return .isaList
  | .devlibs isa options language out format => do
    let config ← r.loadConfig view cwd
    let action := config.resolve language isa options
    let format ← .ofExcept (ListingFormat.parse format)
    let set ← action.collect
    return .libraries action set out format
  | .pch language out format => do
    let config ← r.loadConfig view cwd
    let action := config.resolve language none none
    let format ← .ofExcept (ListingFormat.parse format)
    let set ← action.language.collectHeader
    return .header set out format

/-- The paths that a plan may look at. -/
def consulted (r : Request) (cwd : Path) : List Path :=
  match r.command with
  | .init => [cwd.join Config.fileName]
  | .isaList => []
  | .devlibs .. | .pch .. =>
    match r.config with
    | some path => [path]
    | none => Config.candidates cwd

end Request

end DeviceLibs
