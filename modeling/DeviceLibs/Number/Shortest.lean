import DeviceLibs.Number.Binary64

/-!
# Shortest decimal text of a number

A number of double precision is written with the fewest digits that read back as it, and of those with
the ones nearest to it. From `0.00001` up to sixteen digits before the point the text is positional and
has a fraction; beyond, it has an exponent with a sign.
-/

namespace DeviceLibs.Binary64

/-- Whether `c * 10 ^ k` rounds to `x`: it lies between the midpoints to the neighbours of `x`, which
belong to `x` when its mantissa is even. -/
def readsBack (x : Binary64) (c : Nat) (k : Int) : Bool :=
  let two := twoPow (x.exponent - 2)
  let ten := tenPow k
  let below := if x.mantissa = leastMantissa ∧ minExponent < x.exponent then 1 else 2
  let low := (4 * x.mantissa - below) * two.1 * ten.2
  let high := (4 * x.mantissa + 2) * two.1 * ten.2
  let value := c * ten.1 * two.2
  if x.mantissa % 2 = 0 then low ≤ value && value ≤ high else low < value && value < high

/-- The value as a quotient. -/
def ratio (x : Binary64) : Nat × Nat :=
  (x.mantissa * (twoPow x.exponent).1, (twoPow x.exponent).2)

/-- Power of ten of the leading digit of a number that is not zero. -/
def leadingPower (x : Binary64) : Int :=
  let (num, den) := x.ratio
  if den ≤ num then (Nat.toDigits 10 (num / den)).length - 1
  else -(((List.range 330).find? fun j => den ≤ num * Nat.pow 10 j).getD 330 : Nat)

/-- The multiple of `10 ^ k` that reads back as `x`, the nearer one if two do. -/
def onGrid (x : Binary64) (k : Int) : Option Nat :=
  let (num, den) := x.ratio
  let (num, den) := (num * (tenPow k).2, den * (tenPow k).1)
  let c := num / den
  match readsBack x c k, readsBack x (c + 1) k with
  | true, true => some (nearest num den)
  | true, false => some c
  | false, true => some (c + 1)
  | false, false => none

/-- The digits and the power of ten of the last of them. -/
def shortest (x : Binary64) : List Char × Int :=
  let grids := (List.range 17).map fun (n : Nat) => x.leadingPower - n
  match grids.findSome? fun k => (x.onGrid k).map (·, k) with
  | some (c, k) =>
    let digits := Nat.toDigits 10 c
    let zeros := (digits.reverse.takeWhile (· = '0')).length
    (digits.take (digits.length - zeros), k + zeros)
  | none => (Nat.toDigits 10 x.mantissa, x.exponent)

/-- Leading powers that are written without an exponent. -/
def isPositional (power : Int) : Bool := -5 ≤ power && power < 16

/-- Digits, the last of which counts `10 ^ k`, laid out as a text. -/
def layout (digits : List Char) (k : Int) : List Char :=
  let zeros (n : Int) := List.replicate n.toNat '0'
  let power := k + digits.length - 1
  if isPositional power then
    if 0 ≤ k then digits ++ zeros k ++ ['.', '0']
    else if 0 ≤ power then
      digits.take (power + 1).toNat ++ '.' :: digits.drop (power + 1).toNat
    else '0' :: '.' :: zeros (-power - 1) ++ digits
  else
    let fraction := if digits.length = 1 then [] else '.' :: digits.drop 1
    let sign := if power < 0 then '-' else '+'
    digits.take 1 ++ fraction ++ 'e' :: sign :: Nat.toDigits 10 power.natAbs

/-- Text of a number that is finite. -/
def text (x : Binary64) : String :=
  if x.mantissa = 0 then "0.0" else .ofList (layout x.shortest.1 x.shortest.2)

end DeviceLibs.Binary64
