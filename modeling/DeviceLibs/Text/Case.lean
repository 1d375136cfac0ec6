/-!
# Names in small letters

A name of several words has a capital at the start of each, as in `DazOpt`. It can also be written in
small letters, with a sign between the words.
-/

namespace DeviceLibs.Text

/-- A name in small letters, with `separator` before the capital of each word but the first. -/
def separateWords (separator : Char) : List Char → List Char
  | [] => []
  | c :: cs =>
    c.toLower :: cs.flatMap fun c => if c.isUpper then [separator, c.toLower] else [c.toLower]

def snakeCase (name : String) : String := .ofList (separateWords '_' name.toList)

def kebabCase (name : String) : String := .ofList (separateWords '-' name.toList)

example : kebabCase "PrecompiledHeader" = "precompiled-header" := by decide

end DeviceLibs.Text
