import DeviceLibs.Json.Text

/-!
# Writing JSON

Values are put together from the texts of their parts: without blanks, or with each part on a line of
its own.
-/

namespace DeviceLibs.Json

def array (elements : List String) : String := "[" ++ ",".intercalate elements ++ "]"

/-- A member of an object: its key and the text of its value. -/
def member (key value : String) : String := quote key ++ ":" ++ value

/-- An object with these keys and texts of values, in this order. -/
def object (members : List (String × String)) : String :=
  "\x7b" ++ ",".intercalate (members.map fun m => member m.1 m.2) ++ "\x7d"

/-- Parts on lines of their own, with commas between them. -/
def lines (parts : List String) : String := "\n" ++ ",\n".intercalate parts ++ "\n"

def boolean (b : Bool) : String := if b then "true" else "false"

end DeviceLibs.Json
