import DeviceLibs.Data.Bytes
import DeviceLibs.Text.Case

/-!
# Data objects

The inputs and outputs of a compilation: named bytes, each of some kind.
-/

namespace DeviceLibs

inductive DataKind where
  | source
  | includeFile
  | precompiledHeader
  | diagnostic
  | log
  /-- Bitcode. -/
  | bc
  | relocatable
  | executable
  | bytes
  deriving DecidableEq, Repr

namespace DataKind

def all : List DataKind :=
  [source, includeFile, precompiledHeader, diagnostic, log, bc, relocatable, executable, bytes]

def name : DataKind → String
  | source => "source"
  | includeFile => "include"
  | precompiledHeader => "precompiled-header"
  | diagnostic => "diagnostic"
  | log => "log"
  | bc => "bc"
  | relocatable => "relocatable"
  | executable => "executable"
  | bytes => "bytes"

/-- The name of the kind, a capital at the start of each word. -/
def title : DataKind → String
  | source => "Source"
  | includeFile => "Include"
  | precompiledHeader => "PrecompiledHeader"
  | diagnostic => "Diagnostic"
  | log => "Log"
  | bc => "Bc"
  | relocatable => "Relocatable"
  | executable => "Executable"
  | bytes => "Bytes"

/-- The name in JSON. -/
def encodedName (k : DataKind) : String := Text.kebabCase k.title

/-- The kind of that exact name. -/
def ofName? (name : String) : Option DataKind := all.find? (·.name = name)

theorem ofName?_name (k : DataKind) : ofName? k.name = some k := by cases k <;> decide

end DataKind

structure DataObject where
  kind : DataKind
  name : String
  data : ByteArray
  deriving DecidableEq

def DataObject.size (o : DataObject) : Nat := o.data.size

end DeviceLibs
