import DeviceLibs.Json.Text

/-!
# Numbers of JSON

`readNumeral` cuts a number out of a text and keeps its digits, `Numeral.number?` evaluates them. Whole
numbers of 64 bits are exact. Any other number takes as many leading digits as 64 bits hold, drops the
rest, and multiplies or divides by a power of ten, rounding each time.
-/

namespace DeviceLibs.Json

/-- The digits of a number, less its sign. -/
structure Numeral where
  whole : List Char
  /-- Digits behind the point, none if there is no point. -/
  fraction : List Char
  /-- Whether the exponent is negative, and its digits. -/
  exponent : Option (Bool × List Char)
  deriving DecidableEq, Repr

inductive Number where
  | integer (n : Int)
  | float (negative : Bool) (x : Binary64)
  deriving DecidableEq, Repr

/-! ## Reading -/

/-- Reads one or more digits, as many as there are. -/
def readDigits (cs : List Char) : Except Fault (List Char × List Char) :=
  match cs.takeWhile Char.isDigit, cs.dropWhile Char.isDigit with
  | [], [] => .error .ended
  | [], _ :: _ => .error .malformed
  | digits, rest => .ok (digits, rest)

/-- Reads digits that do not start with a superfluous zero. -/
def readWhole (cs : List Char) : Except Fault (List Char × List Char) :=
  match cs with
  | '0' :: rest =>
    if (rest.head?.map Char.isDigit).getD false then .error .malformed else .ok (['0'], rest)
  | cs => readDigits cs

/-- Reads the point and the digits behind it, if the point is there. -/
def readFraction (cs : List Char) : Except Fault (List Char × List Char) :=
  match cs with
  | '.' :: cs => readDigits cs
  | cs => .ok ([], cs)

def readExponentDigits (negative : Bool) (cs : List Char) :
    Except Fault (Option (Bool × List Char) × List Char) :=
  (readDigits cs).map fun p => (some (negative, p.1), p.2)

def readSignedExponent (cs : List Char) : Except Fault (Option (Bool × List Char) × List Char) :=
  match cs with
  | '+' :: cs => readExponentDigits false cs
  | '-' :: cs => readExponentDigits true cs
  | cs => readExponentDigits false cs

/-- Reads the exponent, if there is one. -/
def readExponent (cs : List Char) : Except Fault (Option (Bool × List Char) × List Char) :=
  match cs with
  | 'e' :: cs => readSignedExponent cs
  | 'E' :: cs => readSignedExponent cs
  | cs => .ok (none, cs)

/-- Reads a number from behind its sign. -/
def readNumeral (cs : List Char) : Except Fault (Numeral × List Char) := do
  let (whole, cs) ← readWhole cs
  let (fraction, cs) ← readFraction cs
  let (exponent, cs) ← readExponent cs
  return ({ whole, fraction, exponent }, cs)

theorem readDigits_append {cs digits rest : List Char} (h : readDigits cs = .ok (digits, rest)) :
    cs = digits ++ rest ∧ digits ≠ [] := by
  have hspan : cs.takeWhile Char.isDigit ++ cs.dropWhile Char.isDigit = cs :=
    List.takeWhile_append_dropWhile
  unfold readDigits at h
  cases ht : cs.takeWhile Char.isDigit with
  | nil => cases hd : cs.dropWhile Char.isDigit <;> simp [ht, hd] at h
  | cons c ds =>
    simp only [ht, Except.ok.injEq, Prod.mk.injEq] at h
    rw [ht] at hspan
    exact ⟨by rw [← h.1, ← h.2, hspan], by simp [← h.1]⟩

theorem length_of_readDigits {cs digits rest : List Char} (h : readDigits cs = .ok (digits, rest)) :
    rest.length < cs.length := by
  obtain ⟨rfl, hne⟩ := readDigits_append h
  have := List.length_pos_iff.mpr hne
  simp only [List.length_append]
  omega

theorem length_of_readWhole {cs digits rest : List Char} (h : readWhole cs = .ok (digits, rest)) :
    rest.length < cs.length := by
  unfold readWhole at h
  split at h
  · split at h
    · cases h
    · cases h; simp
  · exact length_of_readDigits h

theorem length_of_readFraction {cs digits rest : List Char}
    (h : readFraction cs = .ok (digits, rest)) : rest.length ≤ cs.length := by
  unfold readFraction at h
  split at h
  · have := length_of_readDigits h
    simp only [List.length_cons]
    omega
  · cases h; simp

theorem length_of_readExponentDigits {negative : Bool} {cs rest : List Char}
    {e : Option (Bool × List Char)} (h : readExponentDigits negative cs = .ok (e, rest)) :
    rest.length < cs.length := by
  unfold readExponentDigits at h
  cases hd : readDigits cs with
  | error f => rw [hd] at h; cases h
  | ok p => rw [hd] at h; cases h; exact length_of_readDigits hd

theorem length_of_readSignedExponent {cs rest : List Char} {e : Option (Bool × List Char)}
    (h : readSignedExponent cs = .ok (e, rest)) : rest.length < cs.length := by
  unfold readSignedExponent at h
  split at h
  · have := length_of_readExponentDigits h; simp only [List.length_cons]; omega
  · have := length_of_readExponentDigits h; simp only [List.length_cons]; omega
  · exact length_of_readExponentDigits h

theorem length_of_readExponent {cs rest : List Char} {e : Option (Bool × List Char)}
    (h : readExponent cs = .ok (e, rest)) : rest.length ≤ cs.length := by
  unfold readExponent at h
  split at h
  · have := length_of_readSignedExponent h; simp only [List.length_cons]; omega
  · have := length_of_readSignedExponent h; simp only [List.length_cons]; omega
  · cases h; simp

theorem length_of_readNumeral {cs rest : List Char} {n : Numeral}
    (h : readNumeral cs = .ok (n, rest)) : rest.length < cs.length := by
  unfold readNumeral at h
  simp only [bind, Except.bind] at h
  split at h
  · cases h
  next p hp =>
    have h1 := length_of_readWhole hp
    split at h
    · cases h
    next q hq =>
      have h2 := length_of_readFraction hq
      split at h
      · cases h
      next r hr =>
        have h3 := length_of_readExponent hr
        cases h
        omega

/-! ## Evaluating -/

/-- Appends digits to a number of 64 bits until the next one does not fit; returns the digits left. -/
def absorb (significand : Nat) : List Char → Nat × List Char
  | [] => (significand, [])
  | c :: cs =>
    let next := significand * 10 + (c.toNat - '0'.toNat)
    if UInt64.size ≤ next then (significand, c :: cs) else absorb next cs

/-- The powers of ten that one rounding can take in: the next one is not finite. -/
def powerBound : Nat := 308

def tenTo (k : Nat) : Binary64 := .ofRatio (Nat.pow 10 k) 1

/-- The quotient by `10 ^ k`, by as many powers at a time as possible. -/
def divideByPower (x : Binary64) (k : Nat) : Binary64 :=
  if k ≤ powerBound then x.div (tenTo k)
  else if x.mantissa = 0 then x
  else divideByPower (x.div (tenTo powerBound)) (k - powerBound)
termination_by k
decreasing_by simp only [powerBound] at *; omega

/-- The number with these digits and this power of ten, if it is finite. -/
def scale? (significand : Nat) (exponent : Int) : Option Binary64 :=
  let x := Binary64.ofRatio significand 1
  match exponent with
  | .negSucc k => some (divideByPower x (k + 1))
  | .ofNat k =>
    if k ≤ powerBound then
      let y := x.mul (tenTo k)
      if y.isFinite then some y else none
    else if significand = 0 then some x
    else none

namespace Numeral

/-- Value of the exponent. -/
def exponentValue (n : Numeral) : Int :=
  match n.exponent with
  | none => 0
  | some (negative, digits) =>
    let e : Int := Nat.ofDigitChars 10 digits 0
    if negative then -e else e

/-- The number that the digits stand for, unless it is too large to be finite. Minus zero is a number
of its own. -/
def number? (negative : Bool) (n : Numeral) : Option Number :=
  let (whole, dropped) := absorb 0 n.whole
  if dropped = [] ∧ n.fraction = [] ∧ n.exponent = none then
    if !negative then some (.integer whole)
    else if whole = 0 ∨ 1 <<< 63 < whole then some (.float true (.ofRatio whole 1))
    else some (.integer (-whole))
  else
    let (significand, ignored) := absorb whole n.fraction
    let taken : Int := (n.fraction.length - ignored.length : Nat)
    (scale? significand (dropped.length - taken + n.exponentValue)).map (.float negative)

end Numeral

/-- Reads a number, sign included, that stands at the start of the text. -/
def readNumber (cs : List Char) : Except Fault (Number × List Char) := do
  let (negative, cs) := match cs with
    | '-' :: cs => (true, cs)
    | cs => (false, cs)
  let (numeral, cs) ← readNumeral cs
  match numeral.number? negative with
  | some n => return (n, cs)
  | none => throw .malformed

theorem length_of_readNumber {cs rest : List Char} {n : Number}
    (h : readNumber cs = .ok (n, rest)) : rest.length < cs.length := by
  unfold readNumber at h
  split at h
  next negative cs' heq =>
    have hle : cs'.length ≤ cs.length := by
      split at heq <;> cases heq <;> simp
    simp only [bind, Except.bind] at h
    split at h
    · cases h
    next p hp =>
      have := length_of_readNumeral hp
      split at h
      · cases h; omega
      · cases h

end DeviceLibs.Json
