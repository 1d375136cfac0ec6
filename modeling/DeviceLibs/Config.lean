import DeviceLibs.Action
import DeviceLibs.Files.Tree
import DeviceLibs.Toml.Document

/-!
# Configuration

The file `comgr.toml` gives defaults for what is asked for. It is looked for in a directory and in the
parents of that, by the text of the path alone; the nearest regular file of that name counts, and only
that one is read.
-/

namespace DeviceLibs

/-- Defaults for an action. -/
structure Config where
  language : Option Language := none
  isa : Option String := none
  options : Option String := none
  deriving DecidableEq, Repr

/-- Why a configuration is not loaded. -/
inductive ConfigError where
  | reading (path : Path) (error : FileError)
  /-- The text is not TOML, or an entry has a wrong type. -/
  | parsing (path : Path)
  deriving DecidableEq, Repr

/-- The message, as far as it tells what failed. At which line and why a text is not TOML is not kept. -/
def ConfigError.message : ConfigError → String
  | reading path error => s!"reading {path.text}: {error.message}"
  | parsing path => s!"parsing {path.text}: TOML parse error"

namespace Config

open Toml

/-- An entry that names a language stands for it without a value, or with an empty one. -/
def isEmptyItem : Item → Bool
  | .array items => items.isEmpty
  | .table _ members => members.isEmpty
  | _ => false

/-- The language that an item names: a string, or a table with the name as its only key. -/
def language? : Item → Option Language
  | .string s => Language.ofEncodedName? s
  | .table _ [(name, item)] => if isEmptyItem item then Language.ofEncodedName? name else none
  | _ => none

def text? : Item → Option String
  | .string s => some s
  | _ => none

/-- Reads an entry that may be missing; if it is there it has to be right. -/
def entry? {α : Type} (read : Item → Option α) : Option Item → Option (Option α)
  | none => some none
  | some item => (read item).map some

/-- The defaults in the items at three places. -/
def ofItems? (language isa options : Option Item) : Option Config := do
  return {
    language := ← entry? language? language
    isa := ← entry? text? isa
    options := ← entry? text? options }

/-- The defaults in the item `action`: a table, or a list that gives them in order. A date has none of
the entries of a table. -/
def ofAction? : Item → Option Config
  | .table _ ms =>
    ofItems? (Members.get? ms "language") (Members.get? ms "isa") (Members.get? ms "options")
  | .array items => ofItems? items[0]? items[1]? items[2]?
  | .tables all =>
    let items := all.map (Item.table .header)
    ofItems? items[0]? items[1]? items[2]?
  | .dateTime => some {}
  | _ => none

/-- The configuration that a text describes. Only its item `action` matters. -/
def parse? (text : String) : Option Config := do
  let root ← Toml.parse? text
  match root.get? "action" with
  | none => return {}
  | some item => ofAction? item

/-- A configuration to start from. -/
def template : String :=
  "[action]\nlanguage = \"opencl-2.0\"\nisa = \"amdgcn-amd-amdhsa--gfx900\"\noptions = \"\"\n"

/-- The name that is looked for. -/
def fileName : String := "comgr.toml"

/-- What each path leads to, or why it leads nowhere. -/
abbrev View := Path → Except FileError FileEntry

def load (view : View) (path : Path) : Except ConfigError Config :=
  match view path with
  | .error e => .error (.reading path e)
  | .ok .directory => .error (.reading path .isADirectory)
  | .ok (.file data) =>
    match String.fromUTF8? data with
    | none => .error (.reading path .invalidUtf8)
    | some text =>
      match parse? text with
      | none => .error (.parsing path)
      | some config => .ok config

def isFile (view : View) (path : Path) : Bool :=
  match view path with
  | .ok (.file _) => true
  | _ => false

/-- The paths at which a configuration is looked for, nearest first. -/
def candidates (directory : Path) : List Path := directory.ancestors.map (·.join fileName)

/-- The path of the nearest configuration, if there is one. -/
def find? (view : View) (directory : Path) : Option Path := (candidates directory).find? (isFile view)

/-- The nearest configuration and its path. -/
def findAndLoad (view : View) (directory : Path) : Except ConfigError (Option (Config × Path)) :=
  match find? view directory with
  | none => .ok none
  | some path => (load view path).map fun config => some (config, path)

/-- The action for what is given explicitly, with the defaults for the rest. Without any, the language
is OpenCL 2.0 and the texts are empty. -/
def resolve (c : Config) (language : Option Language) (isa options : Option String) : Action where
  language := (language.or c.language).getD .openCL20
  isaName := (isa.or c.isa).getD ""
  options := (options.or c.options).getD ""

end Config

end DeviceLibs
