import DeviceLibs.Target.ArchVersion
import Mathlib.Data.List.Basic
import Mathlib.Tactic.Ring

/-!
# Processor names and numerals

A processor name is `gfx` and a numeral. What a numeral is worth is told by the places of its digits
(`Text.placeValue`), at any length; numbers and the numerals without a spare zero in front correspond
(`Text.toDigits_placeValue`). `ArchVersion.ofProcessor_iff_readsAs` says which version a text names, or
what is wrong with it, and which of the names of a version is written.
-/

namespace DeviceLibs

namespace Text

/-- What the digits are worth: one counts ten times as much as it would a place farther back. -/
def placeValue : List Char → Nat
  | [] => 0
  | c :: cs => (c.toNat - '0'.toNat) * 10 ^ cs.length + placeValue cs

/-- One or more ASCII digits. -/
structure IsNumeral (digits : String) : Prop where
  ne_empty : digits ≠ ""
  isDigit : ∀ c ∈ digits.toList, c.isDigit = true

/-- A zero stands in front of another digit. -/
def HasSpareZero (digits : String) : Prop := ∃ c cs, digits.toList = '0' :: c :: cs

variable {cs : List Char} {c : Char} {digits : String} {v : UInt32}

theorem ofDigitChars_eq_placeValue (cs : List Char) : Nat.ofDigitChars 10 cs 0 = placeValue cs := by
  induction cs with
  | nil => rfl
  | cons c cs ih =>
    rw [Nat.ofDigitChars_cons, Nat.ofDigitChars_eq_ofDigitChars_zero, ih, placeValue]
    ring

/-! ### Reading -/

theorem ofDecimal?_of_isNumeral (h : IsNumeral digits) :
    ofDecimal? digits.toList = some (placeValue digits.toList) := by
  have hall : digits.toList.all Char.isDigit = true := List.all_eq_true.mpr h.isDigit
  have hne : digits.toList ≠ [] := mt String.toList_eq_nil_iff.mp h.ne_empty
  rw [ofDecimal?, if_pos ⟨hne, hall⟩, ofDigitChars_eq_placeValue]

theorem ofDecimal?_of_not_isNumeral (h : ¬ IsNumeral digits) : ofDecimal? digits.toList = none := by
  rw [ofDecimal?, if_neg]
  rintro ⟨hne, hall⟩
  exact h ⟨mt String.toList_eq_nil_iff.mpr hne, List.all_eq_true.mp hall⟩

theorem ofDecimal32?_eq_some (h : IsNumeral digits) (hv : placeValue digits.toList = v.toNat) :
    ofDecimal32? digits.toList = some v := by
  rw [ofDecimal32?, ofDecimal?_of_isNumeral h, hv, Option.bind_some, if_pos v.toNat_lt_size,
    UInt32.ofNat_toNat]

theorem ofDecimal32?_eq_none (h : IsNumeral digits → 2 ^ 32 ≤ placeValue digits.toList) :
    ofDecimal32? digits.toList = none := by
  by_cases hnumeral : IsNumeral digits
  · have hlarge : ¬ placeValue digits.toList < UInt32.size := Nat.not_lt.mpr (h hnumeral)
    rw [ofDecimal32?, ofDecimal?_of_isNumeral hnumeral, Option.bind_some, if_neg hlarge]
  · rw [ofDecimal32?, ofDecimal?_of_not_isNumeral hnumeral, Option.bind_none]

/-! ### Writing -/

theorem value_lt_ten (h : c.isDigit = true) : c.toNat - '0'.toNat < 10 := by
  have hzero : '0'.toNat = 48 := rfl
  obtain ⟨-, hhigh⟩ : 48 ≤ c.toNat ∧ c.toNat ≤ 57 := by
    simpa [Char.isDigit, UInt32.le_iff_toNat_le] using h
  omega

theorem toDigits_value (h : c.isDigit = true) : Nat.toDigits 10 (c.toNat - '0'.toNat) = [c] := by
  have hzero : '0'.toNat = 48 := rfl
  obtain ⟨hlow, -⟩ : 48 ≤ c.toNat ∧ c.toNat ≤ 57 := by
    simpa [Char.isDigit, UInt32.le_iff_toNat_le] using h
  have hchar : Nat.digitChar (c.toNat - '0'.toNat) = c := by
    rw [← Char.toNat_inj, Nat.toNat_digitChar_of_lt_ten (value_lt_ten h)]
    omega
  rw [Nat.toDigits_of_lt_base (value_lt_ten h), hchar]

/-- Digits behind those of a number are written one by one. -/
theorem toDigits_append {n : Nat} (hn : 0 < n) (hcs : ∀ c ∈ cs, c.isDigit = true) :
    Nat.toDigits 10 n ++ cs = Nat.toDigits 10 (Nat.ofDigitChars 10 cs n) := by
  induction cs generalizing n with
  | nil => rw [List.append_nil, Nat.ofDigitChars_nil]
  | cons c cs ih =>
    obtain ⟨hc, hcs⟩ := List.forall_mem_cons.mp hcs
    calc Nat.toDigits 10 n ++ c :: cs
        = (Nat.toDigits 10 n ++ Nat.toDigits 10 (c.toNat - '0'.toNat)) ++ cs := by
          rw [toDigits_value hc, List.append_assoc, List.singleton_append]
      _ = Nat.toDigits 10 (10 * n + (c.toNat - '0'.toNat)) ++ cs := by
          rw [Nat.toDigits_append_toDigits (by decide) hn (value_lt_ten hc)]
      _ = Nat.toDigits 10 (Nat.ofDigitChars 10 (c :: cs) n) := by
          rw [ih (by omega) hcs, Nat.ofDigitChars_cons]

/-- A numeral without a spare zero is the one that is written. -/
theorem toDigits_placeValue (h : IsNumeral digits) (hzero : ¬ HasSpareZero digits) :
    Nat.toDigits 10 (placeValue digits.toList) = digits.toList := by
  rw [← ofDigitChars_eq_placeValue]
  have hdigit := h.isDigit
  cases hchars : digits.toList with
  | nil => exact absurd (String.toList_eq_nil_iff.mp hchars) h.ne_empty
  | cons c cs =>
    rw [hchars] at hdigit
    obtain ⟨hc, hcs⟩ := List.forall_mem_cons.mp hdigit
    by_cases hfirst : c = '0'
    · subst hfirst
      cases cs with
      | nil => rfl
      | cons c cs => exact absurd ⟨c, cs, hchars⟩ hzero
    · have hpos : 0 < c.toNat - '0'.toNat := by
        refine Nat.pos_of_ne_zero fun hvalue => hfirst ?_
        have hdigits := toDigits_value hc
        rw [hvalue] at hdigits
        exact (List.cons_eq_cons.mp hdigits).1.symm
      rw [Nat.ofDigitChars_cons, Nat.mul_zero, Nat.zero_add, ← toDigits_append hpos hcs,
        toDigits_value hc, List.singleton_append]

theorem not_hasSpareZero_of_toDigits {n : Nat} (h : digits.toList = Nat.toDigits 10 n) :
    ¬ HasSpareZero digits := by
  rintro ⟨c, cs, hzero⟩
  rw [h] at hzero
  rcases Nat.eq_zero_or_pos n with rfl | hpos
  · cases hzero
  · obtain ⟨first, rest, hdigits, hne⟩ := exists_toDigits_eq_cons hpos
    rw [hdigits] at hzero
    exact hne (List.cons_eq_cons.mp hzero).1

end Text

namespace ArchVersion

open Text

variable {processor digits : String} {v : ArchVersion} {r : Except TargetError ArchVersion}

/-- What the name of a processor is read as. -/
inductive ReadsAs (processor : String) : Except TargetError ArchVersion → Prop where
  | noPrefix (h : ¬ ∃ digits, processor = "gfx" ++ digits) :
    ReadsAs processor (.error (.missingGfxPrefix processor))
  | version {digits : String} {v : ArchVersion} (hname : processor = "gfx" ++ digits)
    (hdigits : IsNumeral digits) (hvalue : placeValue digits.toList = v.number.toNat) :
    ReadsAs processor (.ok v)
  | invalid {digits : String} (hname : processor = "gfx" ++ digits)
    (hdigits : ¬ (IsNumeral digits ∧ placeValue digits.toList < 2 ^ 32)) :
    ReadsAs processor (.error (.invalidArchVersion processor))

theorem ofProcessor_append (digits : String) : ofProcessor ("gfx" ++ digits) =
    match ofDecimal32? digits.toList with
    | some n => .ok ⟨n⟩
    | none => .error (.invalidArchVersion ("gfx" ++ digits)) := by
  unfold ofProcessor
  rw [String.toList_append]
  rfl

theorem ReadsAs.ofProcessor_eq (h : ReadsAs processor r) : ofProcessor processor = r := by
  cases h with
  | noPrefix h =>
    unfold ofProcessor
    split
    next digits hchars =>
      refine absurd ⟨.ofList digits, ?_⟩ h
      rw [← String.toList_inj, hchars, String.toList_append]
      simp
    · rfl
  | version hname hdigits hvalue =>
    rw [hname, ofProcessor_append, ofDecimal32?_eq_some hdigits hvalue]
  | invalid hname hdigits =>
    rw [hname, ofProcessor_append, ofDecimal32?_eq_none]
    exact fun hnumeral => Nat.not_lt.mp fun hlt => hdigits ⟨hnumeral, hlt⟩

theorem exists_readsAs (processor : String) : ∃ r, ReadsAs processor r := by
  by_cases hname : ∃ digits, processor = "gfx" ++ digits
  · obtain ⟨digits, hname⟩ := hname
    by_cases h : IsNumeral digits ∧ placeValue digits.toList < 2 ^ 32
    · refine ⟨_, .version (v := ⟨.ofNat (placeValue digits.toList)⟩) hname h.1 ?_⟩
      exact (UInt32.toNat_ofNat_of_lt' h.2).symm
    · exact ⟨_, .invalid hname h⟩
  · exact ⟨_, .noPrefix hname⟩

theorem ofProcessor_eq_iff : ofProcessor processor = r ↔ ReadsAs processor r := by
  refine ⟨fun h => ?_, ReadsAs.ofProcessor_eq⟩
  obtain ⟨r', hr'⟩ := exists_readsAs processor
  rwa [← h, hr'.ofProcessor_eq]

/-- Of the names of a version the one without a spare zero is written. -/
theorem processorName_eq_iff (h : ofProcessor ("gfx" ++ digits) = .ok v) :
    v.processorName = "gfx" ++ digits ↔ ¬ HasSpareZero digits := by
  have hgfx : "gfx".toList = ['g', 'f', 'x'] := rfl
  have hwritten : v.processorName = "gfx" ++ digits ↔
      Nat.toDigits 10 v.number.toNat = digits.toList := by
    rw [← String.toList_inj, toList_processorName, String.toList_append, hgfx]
    simp
  rw [hwritten]
  constructor
  · exact fun h => not_hasSpareZero_of_toDigits h.symm
  · intro hzero
    cases ofProcessor_eq_iff.mp h with
    | version hname hdigits hvalue =>
      obtain rfl := (String.append_right_inj _).mp hname
      rw [← hvalue, toDigits_placeValue hdigits hzero]

/-- A text names a version exactly if it is `gfx` and a numeral below `2 ^ 32`, of any length; else it is
told what is missing. The name that is written for a version is one of these, the one whose numeral has
no spare zero; it is read as that version, and written again as it is. -/
theorem ofProcessor_iff_readsAs :
    (∀ processor r, ofProcessor processor = r ↔ ReadsAs processor r) ∧
    (∀ v : ArchVersion, ofProcessor v.processorName = .ok v) ∧
    (∀ digits v, ofProcessor ("gfx" ++ digits) = .ok v →
      (v.processorName = "gfx" ++ digits ↔ ¬ HasSpareZero digits)) ∧
    ∀ processor written, (ofProcessor processor).map processorName = .ok written →
      (ofProcessor written).map processorName = .ok written := by
  refine ⟨fun _ _ => ofProcessor_eq_iff, ofProcessor_processorName,
    fun _ _ => processorName_eq_iff, fun processor written h => ?_⟩
  cases hread : ofProcessor processor with
  | error e =>
    rw [hread] at h
    cases h
  | ok v =>
    rw [hread] at h
    cases h
    rw [ofProcessor_processorName]
    rfl

/-- The last version behind zeros, the number after it, and a name that is not the one written. -/
theorem ofProcessor_iff_readsAs_of_bound :
    ReadsAs "gfx00000000004294967295" (.ok ⟨4294967295⟩) ∧
    ReadsAs "gfx4294967296" (.error (.invalidArchVersion "gfx4294967296")) ∧
    ofProcessor ("gfx" ++ "0803") = .ok ⟨803⟩ ∧
    (processorName ⟨803⟩ = "gfx" ++ "0803" ↔ ¬ HasSpareZero "0803") ∧
    (ofProcessor "gfx0803").map processorName = .ok "gfx803" ∧
    (ofProcessor "gfx803").map processorName = .ok "gfx803" := by
  have hread : ofProcessor ("gfx" ++ "0803") = .ok ⟨803⟩ := rfl
  have hwritten : (ofProcessor "gfx0803").map processorName = .ok "gfx803" := by decide +kernel
  exact ⟨(ofProcessor_iff_readsAs.1 _ _).mp rfl, (ofProcessor_iff_readsAs.1 _ _).mp rfl, hread,
    ofProcessor_iff_readsAs.2.2.1 _ _ hread, hwritten, ofProcessor_iff_readsAs.2.2.2 _ _ hwritten⟩

end ArchVersion

end DeviceLibs
