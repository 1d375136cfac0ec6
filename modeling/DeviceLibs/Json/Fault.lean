import DeviceLibs.Number.Shortest
import DeviceLibs.Text.Quoted

/-!
# Why a JSON text is not decoded

A text is read from left to right for a value of a known type, and the first thing wrong with it is
reported: the text ends too early, it is not JSON, or it is JSON that does not fit the type.
-/

namespace DeviceLibs.Json

/-- A value where one of another type is due. -/
inductive Found where
  | null
  | boolean (b : Bool)
  | integer (n : Int)
  | float (negative : Bool) (x : Binary64)
  | text (s : String)
  | sequence
  | map
  deriving DecidableEq, Repr

def Found.description : Found → String
  | null => "null"
  | boolean b => "boolean \x60" ++ (if b then "true" else "false") ++ "\x60"
  | integer n => "integer \x60" ++ toString n ++ "\x60"
  | float negative x => "floating point \x60" ++ (if negative then "-" else "") ++ x.text ++ "\x60"
  | text s => "string " ++ Text.quoted s
  | sequence => "sequence"
  | map => "map"

/-- How a value does not fit its type. -/
inductive Mismatch where
  | wrongType (found : Found) (expected : String)
  | outOfRange (n : Int) (expected : String)
  | wrongLength (found : Nat) (expected : String)
  | unknownVariant (name : String) (variants : List String)
  | missingField (field : String)
  | duplicateField (field : String)
  deriving DecidableEq, Repr

/-- A name between backticks. -/
def ticked (name : String) : String := "\x60" ++ name ++ "\x60"

def Mismatch.message : Mismatch → String
  | wrongType found expected => s!"invalid type: {found.description}, expected {expected}"
  | outOfRange n expected =>
    s!"invalid value: {(Found.integer n).description}, expected {expected}"
  | wrongLength found expected => s!"invalid length {found}, expected {expected}"
  | unknownVariant name variants =>
    "unknown variant " ++ ticked name ++ ", expected one of " ++
      ", ".intercalate (variants.map ticked)
  | missingField field => "missing field " ++ ticked field
  | duplicateField field => "duplicate field " ++ ticked field

inductive Fault where
  /-- The text ended inside a value. -/
  | ended
  /-- The text is not JSON. -/
  | malformed
  | mismatch (how : Mismatch)
  deriving DecidableEq, Repr

end DeviceLibs.Json
