import DeviceLibs.Language
import DeviceLibs.Target.ArchVersion

/-!
# Why a request is refused

`SelectionError` gives the reasons for which device libraries or a header are not delivered.
`SelectionError.status` sorts them by whose fault they are: the caller's, or that of a collection that
cannot hold more.
-/

namespace DeviceLibs

/-- Why a collection cannot grow. -/
inductive ResourceFault where
  /-- The collection may hold `limit` objects and would have to hold `requested`. -/
  | limitExceeded (limit requested : Nat)
  /-- No memory block can be as large as one with `additional` more objects. -/
  | capacityOverflow (additional : Nat)
  /-- There is no memory for `additional` more objects. -/
  | outOfMemory (additional : Nat)
  deriving DecidableEq, Repr

def ResourceFault.message : ResourceFault → String
  | limitExceeded limit requested =>
    s!"data set limit of {limit} objects exceeded ({requested} requested)"
  | capacityOverflow additional =>
    s!"growing data set by {additional} objects: memory allocation failed because " ++
      "the computed capacity exceeded the collection's maximum"
  | outOfMemory additional =>
    s!"growing data set by {additional} objects: memory allocation failed because " ++
      "the memory allocator returned an error"

inductive SelectionError where
  | invalidTarget (error : TargetError)
  /-- The language is none of the OpenCL dialects. -/
  | unsupportedLanguage (language : Language)
  | unknownOption (token : String)
  | duplicateOption (token : String)
  /-- The version has no ISA version library. -/
  | unsupportedArchVersion (version : ArchVersion)
  | missingBlob (name : String)
  | outOfResources (fault : ResourceFault)
  deriving DecidableEq, Repr

/-- Whose fault it is that a request is refused, as its caller is told. -/
inductive Status where
  | invalidArgument
  | outOfResources
  deriving DecidableEq, Repr

namespace SelectionError

def message : SelectionError → String
  | invalidTarget error => s!"invalid target: {error.message}"
  | unsupportedLanguage language => s!"unsupported language '{language.name}'"
  | unknownOption token => s!"unknown option '{token}'"
  | duplicateOption token => s!"option '{token}' given more than once"
  | unsupportedArchVersion version => s!"no device library for architecture version {version.digits}"
  | missingBlob name => s!"embedded blob '{name}' not found"
  | outOfResources fault => s!"out of resources: {fault.message}"

/-- The message and those of the errors below it. The message of an invalid target holds that of the
target already. -/
def chain (e : SelectionError) : List String :=
  e.message :: match e with
    | invalidTarget error => [error.message]
    | _ => []

def status : SelectionError → Status
  | outOfResources _ => .outOfResources
  | _ => .invalidArgument

end SelectionError

end DeviceLibs
