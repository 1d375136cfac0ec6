import DeviceLibs.Toml.Item
import DeviceLibs.Toml.Number
import DeviceLibs.Toml.Text

/-!
# Documents

A TOML document is a sequence of lines: key-value pairs, headers of tables and of elements of lists of
tables, comments. `parse?` reads the lines and builds the table that they describe. A text that is not
TOML, or says a thing twice, has none.
-/

namespace DeviceLibs.Toml

open Reader

/-! ## Values -/

def boolean : Reader Bool :=
  (do literal ['t', 'r', 'u', 'e']; return true) <|>
    (do literal ['f', 'a', 'l', 's', 'e']; return false)

/-- Values in brackets, with line breaks and comments anywhere between them. -/
def array (value : Reader Item) : Reader Item := do
  char '['
  let items ← separated (do
    blanksAndComments
    let v ← value
    blanksAndComments
    return v) (char ',')
  if !items.isEmpty then discard (optional (char ','))
  blanksAndComments
  char ']'
  return .array items

/-- A key with all its parts, and a value. -/
def keyValue (value : Reader Item) : Reader (List String × Item) := do
  let k ← key
  char '='
  blanks
  return (k, ← value)

/-- Adds a value under a key with all its parts. -/
def Members.addPath (ms : Members) (path : List String) (item : Item) : Option Members :=
  path.getLast?.bind fun last => ms.addDotted true path.dropLast last item

/-- Pairs in braces, on one line and without a comma at the end. -/
def inlineTable (value : Reader Item) : Reader Item := do
  char '\x7b'
  let pairs ← separated (do
    let p ← keyValue value
    blanks
    return p) (char ',')
  blanks
  char '\x7d'
  match pairs.foldlM (fun ms p => Members.addPath ms p.1 p.2) [] with
  | some ms => return .table .braces ms
  | none => failure

/-- A value with at most `depth` values around each other in it. -/
def value (depth : Nat) : Reader Item :=
  let nested : Reader Item :=
    match depth with
    | 0 => failure
    | d + 1 => array (value d) <|> inlineTable (value d)
  (.string <$> string) <|> nested <|> (.boolean <$> boolean) <|>
    (do dateTime; return .dateTime) <|> (do float; return .float) <|> (.integer <$> integer)

/-! ## Lines -/

inductive Line where
  | blank
  | header (path : List String)
  | element (path : List String)
  | pair (path : List String) (item : Item)

def header : Reader Line := do
  char '['
  let k ← key
  char ']'
  lineEnd
  return .header k

def element : Reader Line := do
  literal ['[', '[']
  let k ← key
  literal [']', ']']
  lineEnd
  return .element k

def pair : Reader Line := do
  let (k, v) ← keyValue (value (depthBound - 1))
  lineEnd
  return .pair k v

def line : Reader Line := do
  blanks
  (do newline; return .blank) <|> (do comment; newline <|> eof; return .blank) <|>
    element <|> header <|> pair

/-- The lines of a text, which may start with a byte order mark. -/
def lines : Reader (List Line) := do
  discard (optional (char '\ufeff'))
  let ls ← many line
  blanks
  return ls

/-- The document so far and the path of the table that pairs belong to. -/
structure Draft where
  root : Members := []
  path : List String := []

def Draft.addLine (d : Draft) : Line → Option Draft
  | .blank => some d
  | .header path => do return { root := ← d.root.openTable path, path }
  | .element path => do return { root := ← d.root.openElement path, path }
  | .pair path item => do
    return { d with root := ← d.root.alter d.path fun ms => ms.addPath path item }

/-- The table that a text describes. -/
def parse? (text : String) : Option Members := do
  let ls ← whole lines text.toList
  let d ← ls.foldlM Draft.addLine {}
  return d.root

end DeviceLibs.Toml
