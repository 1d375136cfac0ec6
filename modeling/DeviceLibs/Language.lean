/-!
# Source languages

The language that a kernel is written in. Device libraries and precompiled headers exist for the two
OpenCL dialects only.
-/

namespace DeviceLibs

inductive Language where
  | none
  | openCL12
  | openCL20
  /-- Heterogeneous Compute C++. -/
  | hc
  deriving DecidableEq, Repr

namespace Language

instance : Inhabited Language := ⟨.none⟩

def all : List Language := [none, openCL12, openCL20, hc]

def name : Language → String
  | none => "none"
  | openCL12 => "opencl-1.2"
  | openCL20 => "opencl-2.0"
  | hc => "hc"

def isOpenCL : Language → Bool
  | openCL12 | openCL20 => true
  | none | hc => false

/-- The language of that exact name. -/
def ofName? (name : String) : Option Language := all.find? (·.name = name)

/-- The name in JSON and in a configuration. -/
def encodedName : Language → String
  | none => "none"
  | openCL12 => "opencl-1.2"
  | openCL20 => "opencl-2.0"
  | hc => "hc"

/-- The language of that encoded name. -/
def ofEncodedName? (name : String) : Option Language := all.find? (·.encodedName = name)

/-- What is said of a name that no language has. -/
def unknownMessage (name : String) : String :=
  s!"unknown language '{name}' (expected one of: " ++ ", ".intercalate (all.map Language.name) ++ ")"

theorem ofName?_name (l : Language) : ofName? l.name = some l := by cases l <;> decide

end Language

end DeviceLibs
