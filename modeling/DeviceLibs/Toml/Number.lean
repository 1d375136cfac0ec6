import DeviceLibs.Number.Binary64
import DeviceLibs.Text.Hexadecimal
import DeviceLibs.Toml.Reader

/-!
# Numbers and dates of TOML

Whole numbers have 64 bits and a sign. Of numbers with a fraction or an exponent, and of dates and
times, only the form is kept; but a number must not be too large, and a date has to exist.
-/

namespace DeviceLibs.Toml

open Reader

def digit : Reader Char := one Char.isDigit

/-- One or more digits of a base, with single underscores between them. -/
def digits (p : Char → Bool) : Reader (List Char) := do
  let c ← one p
  return c :: (← many (one p <|> do
    char '_'
    one p))

/-- Whether there is a minus sign; a plus sign does not count. -/
def sign : Reader Bool :=
  (do char '-'; return true) <|> (do char '+'; return false) <|> pure false

/-- Digits without a superfluous zero in front. -/
def wholeDigits : Reader (List Char) :=
  (do char '0'; return ['0']) <|> digits Char.isDigit

def withSign (negative : Bool) (n : Nat) : Int := if negative then -n else n

/-- The number, if it has 64 bits. -/
def within64 (n : Int) : Reader Int :=
  if Int64.minValue.toInt ≤ n ∧ n ≤ Int64.maxValue.toInt then pure n else failure

def decimalInteger : Reader Int := do
  let negative ← sign
  let ds ← wholeDigits
  within64 (withSign negative (Nat.ofDigitChars 10 ds 0))

/-- Value of a digit in a base up to sixteen. -/
def digitValue (c : Char) : Nat := (Text.hexValue? c).getD 0

/-- A number in another base, behind the zero and the letter of the base. -/
def basedInteger (letter : Char) (base : Nat) (p : Char → Bool) : Reader Int := do
  literal ['0', letter]
  let ds ← digits p
  within64 (ds.foldl (fun n c => n * base + digitValue c) 0)

def integer : Reader Int :=
  basedInteger 'x' 16 (fun c => (Text.hexValue? c).isSome) <|>
    basedInteger 'o' 8 (fun c => '0' ≤ c && c ≤ '7') <|>
    basedInteger 'b' 2 (fun c => c = '0' || c = '1') <|> decimalInteger

/-! ## Fractions and exponents -/

def fraction : Reader (List Char) := do
  char '.'
  digits Char.isDigit

def exponent : Reader Int := do
  char 'e' <|> char 'E'
  let negative ← sign
  return withSign negative (Nat.ofDigitChars 10 (← digits Char.isDigit) 0)

/-- A number with a fraction, an exponent or both. It may be too large only if it is negative. -/
def decimalFloat : Reader Unit := do
  let negative ← sign
  let whole ← wholeDigits
  let (part, e) ← (do return ([], ← exponent)) <|> (do
    let part ← fraction
    return (part, (← optional exponent).getD 0))
  let x := Binary64.ofDecimal (Nat.ofDigitChars 10 (whole ++ part) 0) (e - part.length)
  if negative || x.isFinite then pure () else failure

def specialFloat : Reader Unit := do
  discard sign
  literal ['i', 'n', 'f'] <|> literal ['n', 'a', 'n']

def float : Reader Unit := decimalFloat <|> specialFloat

/-! ## Dates and times -/

/-- A number of exactly `count` digits. -/
def fixedDigits (value : Nat) : (count : Nat) → Reader Nat
  | 0 => pure value
  | n + 1 => do
    let c ← digit
    fixedDigits (value * 10 + digitValue c) n

/-- A number of two digits between two bounds. -/
def twoDigits (low high : Nat) : Reader Nat := do
  let n ← fixedDigits 0 2
  if low ≤ n ∧ n ≤ high then return n else failure

def isLeapYear (year : Nat) : Bool := year % 4 = 0 && (year % 100 ≠ 0 || year % 400 = 0)

def daysInMonth (year month : Nat) : Nat :=
  if month = 2 then if isLeapYear year then 29 else 28
  else if month = 4 ∨ month = 6 ∨ month = 9 ∨ month = 11 then 30
  else 31

def date : Reader Unit := do
  let year ← fixedDigits 0 4
  char '-'
  let month ← twoDigits 1 12
  char '-'
  discard (twoDigits 1 (daysInMonth year month))

/-- A time of the day; a second may be a leap second. -/
def time : Reader Unit := do
  discard (twoDigits 0 23)
  char ':'
  discard (twoDigits 0 59)
  char ':'
  discard (twoDigits 0 60)
  discard (optional do
    char '.'
    run1 Char.isDigit)

def offset : Reader Unit :=
  char 'Z' <|> char 'z' <|> do
    char '+' <|> char '-'
    discard (twoDigits 0 23)
    char ':'
    discard (twoDigits 0 59)

def dateTime : Reader Unit :=
  (do
    date
    discard (optional do
      char 'T' <|> char 't' <|> char ' '
      time
      optional offset)) <|> time

end DeviceLibs.Toml
