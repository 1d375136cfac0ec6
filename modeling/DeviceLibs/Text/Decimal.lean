/-!
# Decimal numerals

`ofDecimal?` reads a non-empty run of ASCII digits, with any number of leading zeros, at any length.
Main statement: `ofDecimal?_toDigits`, the digits of a number read back as that number.
`ofSigned32?` is less strict: it takes a plus sign too.
-/

namespace DeviceLibs.Text

/-- The number that `cs` writes in base ten; `none` unless `cs` is one or more ASCII digits. -/
def ofDecimal? (cs : List Char) : Option Nat :=
  if cs ≠ [] ∧ cs.all Char.isDigit then some (Nat.ofDigitChars 10 cs 0) else none

/-- A numeral whose value fits in 32 bits. -/
def ofDecimal32? (cs : List Char) : Option UInt32 :=
  (ofDecimal? cs).bind fun n => if n < UInt32.size then some (.ofNat n) else none

/-- A numeral whose value fits in 32 bits; one plus sign may stand in front of it. -/
def ofSigned32? : List Char → Option UInt32
  | '+' :: cs => ofDecimal32? cs
  | cs => ofDecimal32? cs

theorem isDigit_of_mem_toDigits {n : Nat} {c : Char} (h : c ∈ Nat.toDigits 10 n) :
    c.isDigit = true :=
  Nat.isDigit_of_mem_toDigits (by decide) (by decide) h

theorem ofDecimal?_toDigits (n : Nat) : ofDecimal? (Nat.toDigits 10 n) = some n := by
  have hall : (Nat.toDigits 10 n).all Char.isDigit = true :=
    List.all_eq_true.mpr fun _ hc => isDigit_of_mem_toDigits hc
  simp [ofDecimal?, Nat.toDigits_ne_nil, hall, Nat.ofDigitChars_toDigits]

theorem ofDecimal32?_toDigits (v : UInt32) : ofDecimal32? (Nat.toDigits 10 v.toNat) = some v := by
  simp [ofDecimal32?, ofDecimal?_toDigits, v.toNat_lt_size]

/-- Only zero is written with a zero in front. -/
theorem exists_toDigits_eq_cons {n : Nat} (h : 0 < n) :
    ∃ c cs, Nat.toDigits 10 n = c :: cs ∧ c ≠ '0' := by
  induction n using Nat.strongRecOn with
  | ind n ih =>
    rw [Nat.toDigits_eq_if (by decide)]
    split
    next hn =>
      have hall : ∀ k < 10, 0 < k → Nat.digitChar k ≠ '0' := by decide
      exact ⟨_, [], rfl, hall n hn h⟩
    next hn =>
      obtain ⟨c, cs, hcs, hc⟩ := ih (n / 10) (by omega) (by omega)
      exact ⟨c, cs ++ [Nat.digitChar (n % 10)], by rw [hcs]; rfl, hc⟩

theorem ofSigned32?_toDigits (v : UInt32) : ofSigned32? (Nat.toDigits 10 v.toNat) = some v := by
  unfold ofSigned32?
  split
  next cs hcs =>
    -- digits do not start with a sign
    have hplus : '+'.isDigit = true := isDigit_of_mem_toDigits (hcs ▸ List.mem_cons_self)
    cases hplus
  · exact ofDecimal32?_toDigits v

end DeviceLibs.Text
