import DeviceLibs.Data.Set
import DeviceLibs.Json.Writer

/-!
# Listings

A listing shows the objects of a set in order, each with its index, name, kind and size: as a table
with one line for each, or as JSON. Columns are padded by the number of characters and never cut.
-/

namespace DeviceLibs

inductive ListingFormat where
  | human
  | json
  deriving DecidableEq, Repr

/-- The format of that exact name; without a name, the human one. -/
def ListingFormat.ofName? : Option String → Option ListingFormat
  | none => some .human
  | some name =>
    if name = "human" then some .human else if name = "json" then some .json else none

/-- What is said of a name that no format has. -/
def ListingFormat.unknownMessage (name : String) : String :=
  s!"unknown format '{name}' (expected human or json)"

namespace DataSet

/-- A line of a listing. -/
structure Entry where
  index : Nat
  name : String
  kind : DataKind
  size : Nat
  deriving DecidableEq, Repr

def entries (s : DataSet) : List Entry :=
  s.objects.mapIdx fun i o => ⟨i, o.name, o.kind, o.size⟩

namespace Entry

def padLeft (width : Nat) (text : String) : String :=
  .ofList (List.replicate (width - text.length) ' ') ++ text

def padRight (width : Nat) (text : String) : String :=
  text ++ .ofList (List.replicate (width - text.length) ' ')

/-- The entry as a line of the table. -/
def line (e : Entry) : String :=
  "  " ++ padLeft 2 (toString e.index) ++ "  " ++ padRight 42 e.name ++ " " ++
    padRight 20 e.kind.name ++ " " ++ padLeft 8 (toString e.size) ++ " bytes\n"

/-- The members of the entry as an object. -/
def members (e : Entry) : List (String × String) := [
  ("index", toString e.index),
  ("name", Json.quote e.name),
  ("kind", Json.quote e.kind.name),
  ("size", toString e.size)]

/-- The entry as an object, one level deep. -/
def toJson (e : Entry) : String :=
  "  \x7b" ++ Json.lines (e.members.map fun m => "    " ++ Json.quote m.1 ++ ": " ++ m.2) ++ "  \x7d"

end Entry

def renderHuman (s : DataSet) : String := String.join (s.entries.map Entry.line)

def renderJson (s : DataSet) : String :=
  if s.entries = [] then "[]" else "[" ++ Json.lines (s.entries.map Entry.toJson) ++ "]"

def render (s : DataSet) : ListingFormat → String
  | .human => s.renderHuman
  | .json => s.renderJson

end DataSet

end DeviceLibs
