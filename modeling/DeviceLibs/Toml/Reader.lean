/-!
# Readers

A reader takes something off the start of a text, or fails. Readers are put together in sequence, as
alternatives of which the first that succeeds counts, and by repetition.
-/

namespace DeviceLibs.Toml

abbrev Reader := StateT (List Char) Option

namespace Reader

variable {α : Type}

/-- A character of a class. -/
def one (p : Char → Bool) : Reader Char := fun cs =>
  match cs with
  | c :: rest => if p c then some (c, rest) else none
  | [] => none

def char (c : Char) : Reader Unit := discard (one (· = c))

/-- The characters of `text`, in order. -/
def literal : List Char → Reader Unit
  | [] => pure ()
  | c :: cs => do
    char c
    literal cs

/-- As many characters of a class as there are. -/
def run (p : Char → Bool) : Reader (List Char) := fun cs => some (cs.takeWhile p, cs.dropWhile p)

/-- One or more characters of a class. -/
def run1 (p : Char → Bool) : Reader (List Char) := do
  let c ← one p
  return c :: (← run p)

/-- Fails if `r` fails, and takes nothing. -/
def ahead (r : Reader α) : Reader Unit := fun cs => (r cs).map fun _ => ((), cs)

/-- Fails if `r` succeeds, and takes nothing. -/
def absent (r : Reader α) : Reader Unit := fun cs =>
  match r cs with
  | some _ => none
  | none => some ((), cs)

def eof : Reader Unit := fun cs => if cs = [] then some ((), []) else none

/-- Repeats `r` until it fails, at most once for each element of `limit`. -/
def upTo {β : Type} (r : Reader α) (limit : List β) : Reader (List α) :=
  match limit with
  | [] => pure []
  | _ :: limit => (do
      let a ← r
      return a :: (← upTo r limit)) <|> pure []

/-- Repeats `r` until it fails. A reader that takes a character each time ends with the text. -/
def many (r : Reader α) : Reader (List α) := fun cs => upTo r cs cs

/-- One or more of what `r` reads, with what `separator` reads between them. -/
def separated1 (r : Reader α) (separator : Reader Unit) : Reader (List α) := do
  let a ← r
  return a :: (← many do
    separator
    r)

def separated (r : Reader α) (separator : Reader Unit) : Reader (List α) :=
  separated1 r separator <|> pure []

/-- The result of a reader that takes the whole text. -/
def whole (r : Reader α) (cs : List Char) : Option α :=
  match r cs with
  | some (a, []) => some a
  | _ => none

end Reader

end DeviceLibs.Toml
