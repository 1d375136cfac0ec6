import DeviceLibs.Text.Hexadecimal
import DeviceLibs.Toml.Reader

/-!
# Blanks, strings and keys of TOML

Strings are written in four ways: between double quotes with escapes or between apostrophes without,
each on one line or, with the quotes three times, on several. Control characters are in none of them.
-/

namespace DeviceLibs.Toml

open Reader

def isBlank (c : Char) : Bool := c = ' ' || c = '\t'

/-- Characters of comments and strings: no controls but the tab. -/
def isText (c : Char) : Bool := c = '\t' || (' ' ≤ c && c ≠ '\x7f')

def blanks : Reader Unit := discard (run isBlank)

def newline : Reader Unit := char '\n' <|> literal ['\r', '\n']

def comment : Reader Unit := do
  char '#'
  discard (run isText)

/-- What may stand between the elements of an array. -/
def blanksAndComments : Reader Unit :=
  discard (many (discard (run1 isBlank) <|> newline <|> do
    comment
    newline))

/-- The end of a line: blanks, a comment, a line break or the end of the text. -/
def lineEnd : Reader Unit := do
  blanks
  discard (optional comment)
  newline <|> eof

/-! ## Strings -/

/-- A number of exactly `n` hexadecimal digits, behind the digits of `value`. -/
def hexDigits (value : Nat) : Nat → Reader Nat
  | 0 => pure value
  | n + 1 => do
    let c ← one fun c => (Text.hexValue? c).isSome
    hexDigits (value * 16 + (Text.hexValue? c).getD 0) n

/-- The character of a code point; surrogates have none. -/
def codePoint (n : Nat) : Reader Char :=
  if n.isValidChar then pure (.ofNat n) else failure

/-- An escape, from its backslash on. -/
def escape : Reader Char := do
  char '\\'
  let c ← one fun _ => true
  match c with
  | 'b' => pure '\x08'
  | 't' => pure '\t'
  | 'n' => pure '\n'
  | 'f' => pure '\x0c'
  | 'r' => pure '\r'
  | '"' => pure '"'
  | '\\' => pure '\\'
  | 'u' => hexDigits 0 4 >>= codePoint
  | 'U' => hexDigits 0 8 >>= codePoint
  | _ => failure

def isBasic (c : Char) : Bool := isText c && c ≠ '"' && c ≠ '\\'

def isLiteral (c : Char) : Bool := isText c && c ≠ '\''

def basicString : Reader String := do
  char '"'
  let pieces ← many (run1 isBasic <|> do return [← escape])
  char '"'
  return .ofList pieces.flatten

def literalString : Reader String := do
  char '\''
  let cs ← run isLiteral
  char '\''
  return .ofList cs

/-- A line break in a string, which is a line feed however it is written. -/
def lineBreak : Reader (List Char) := do
  newline
  return ['\n']

/-- A backslash at the end of a line: it and all blanks and line breaks behind it are left out. -/
def continuation : Reader (List Char) := do
  char '\\'
  blanks
  newline
  discard (many (discard (run1 isBlank) <|> newline))
  return []

/-- A quote that is not the first of three. -/
def loneQuote (quote : Char) : Reader (List Char) := do
  absent (literal [quote, quote, quote])
  char quote
  return [quote]

/-- The three quotes at the end of a string, with up to two more before them that belong to it. -/
def closingQuotes (quote : Char) : Reader (List Char) := do
  let three := literal [quote, quote, quote]
  let extra : Reader (List Char) := do
    ahead (literal [quote, quote, quote, quote])
    char quote
    return [quote]
  let own ← upTo extra [quote, quote]
  three
  return own.flatten

/-- A string between quotes that are written three times; a line break right behind them is left out. -/
def multiline (quote : Char) (piece : Reader (List Char)) : Reader String := do
  literal [quote, quote, quote]
  discard (optional newline)
  let pieces ← many (piece <|> lineBreak <|> loneQuote quote)
  let own ← closingQuotes quote
  return .ofList (pieces.flatten ++ own)

def string : Reader String :=
  multiline '"' (run1 isBasic <|> continuation <|> do return [← escape]) <|> basicString <|>
    multiline '\'' (run1 isLiteral) <|> literalString

/-! ## Keys -/

def isBare (c : Char) : Bool :=
  c.isAlphanum || c = '-' || c = '_'

def simpleKey : Reader String :=
  basicString <|> literalString <|> do return .ofList (← run1 isBare)

/-- Keys may not have this many parts, and values may not be nested this deep. -/
def depthBound : Nat := 80

/-- A key: one or more parts with dots between them. -/
def key : Reader (List String) := do
  let parts ← separated1 (do
    blanks
    let k ← simpleKey
    blanks
    return k) (char '.')
  if parts.length < depthBound then return parts else failure

end DeviceLibs.Toml
