/-!
# Numbers of double precision

A number that is not negative, as 53 bits and a power of two. `ofRatio` rounds a quotient to the
nearest of them, a tie to the even one; products and quotients are rounded in the same way. Exponents
have no upper end here: `isFinite` tells the numbers that 64 bits can hold.
-/

namespace DeviceLibs

/-- The number `mantissa * 2 ^ exponent`. -/
structure Binary64 where
  mantissa : Nat
  exponent : Int
  deriving DecidableEq, Repr

namespace Binary64

/-- The power of two that `2 ^ i` contributes to a numerator, and the one to a denominator. -/
def twoPow (i : Int) : Nat × Nat := (1 <<< i.toNat, 1 <<< (-i).toNat)

def tenPow (i : Int) : Nat × Nat := (Nat.pow 10 i.toNat, Nat.pow 10 (-i).toNat)

/-- The quotient rounded to the nearest whole number, a half to the even neighbour. -/
def nearest (num den : Nat) : Nat :=
  let q := num / den
  let r := num % den
  if 2 * r < den then q else if den < 2 * r then q + 1 else q + q % 2

/-- Mantissas have 53 bits: none is this large. -/
def mantissaBound : Nat := 1 <<< 53

/-- Least mantissa, except next to zero. -/
def leastMantissa : Nat := 1 <<< 52

/-- Exponent of the numbers next to zero. -/
def minExponent : Int := -1074

/-- Greatest exponent that 64 bits can hold. -/
def maxExponent : Int := 971

/-- The number nearest to `num / den`. -/
def ofRatio (num den : Nat) : Binary64 :=
  if num = 0 then ⟨0, minExponent⟩
  else
    let quotientAt (e : Int) : Nat × Nat := (num * (twoPow e).2, den * (twoPow e).1)
    let low := max ((num.log2 : Int) - den.log2 - 53) minExponent
    let e := if mantissaBound ≤ (quotientAt low).1 / (quotientAt low).2 then low + 1 else low
    let m := nearest (quotientAt e).1 (quotientAt e).2
    if m = mantissaBound then ⟨leastMantissa, e + 1⟩ else ⟨m, e⟩

def isFinite (x : Binary64) : Bool := x.exponent ≤ maxExponent

def mul (x y : Binary64) : Binary64 :=
  let p := twoPow (x.exponent + y.exponent)
  ofRatio (x.mantissa * y.mantissa * p.1) p.2

def div (x y : Binary64) : Binary64 :=
  let p := twoPow (x.exponent - y.exponent)
  ofRatio (x.mantissa * p.1) (y.mantissa * p.2)

/-- The number nearest to `digits * 10 ^ exponent`, rounded once. Numbers that are far too large or far
too small are told by their first digit alone. -/
def ofDecimal (digits : Nat) (exponent : Int) : Binary64 :=
  let lead := exponent + (Nat.toDigits 10 digits).length
  if digits = 0 ∨ lead < -400 then ⟨0, minExponent⟩
  else if 400 < lead then ⟨leastMantissa, maxExponent + 1⟩
  else ofRatio (digits * (tenPow exponent).1) (tenPow exponent).2

end Binary64

end DeviceLibs
