import DeviceLibs.Proofs.Exchange
import DeviceLibs.Proofs.Json.Numeral

/-!
# Versions as numbers

A version is written in JSON as its number, and read from nothing but that: of all texts those are taken
that are the numeral of a number of 32 bits, with blanks around it (`decode_eq_ok_iff`). Every other number
is refused in the range it falls into (`decode_iff_isNumeralOf`).
-/

namespace DeviceLibs.ArchVersion

open Json Text

variable {text : String} {v : ArchVersion}

/-- The text is the numeral of `n`: digits without a sign, a spare zero, a fraction or an exponent. -/
structure IsNumeralOf (text : String) (n : Nat) : Prop where
  whole : IsWhole text.toList
  value : placeValue text.toList = n

theorem toJson_eq_iff : v.toJson = text ↔ IsNumeralOf text v.number.toNat := by
  rw [← String.toList_inj, toJson, toList_digits]
  constructor
  · intro h
    refine ⟨?_, ?_⟩
    · rw [← h]
      exact isWhole_toDigits _
    · rw [← h]
      exact placeValue_toDigits _
  · intro h
    rw [← h.value]
    exact h.whole.toDigits_placeValue

theorem map_number_decode (text : String) :
    (decode decoder text).map number = decode Decoder.uint32 text := by
  rw [decoder, decode_map]
  cases decode Decoder.uint32 text <;> rfl

/-- A version is read from the text that is written for it, with blanks around it, and from no other. -/
theorem decode_eq_ok_iff : decode decoder text = .ok v ↔ v.toJson = trimmed text := by
  constructor
  · intro h
    have hnumber : decode Decoder.uint32 text = .ok v.number := by
      rw [← map_number_decode, h]
      rfl
    have hread := readsAsUInt32_decode (isNumber_of_decode hnumber)
    rw [hnumber] at hread
    obtain ⟨hwhole, hvalue⟩ := hread.whole_of_ok
    exact toJson_eq_iff.mpr ⟨hwhole, hvalue⟩
  · intro h
    exact Spells.decode_of_trimmed (h ▸ v.spells)

/-- A text is read as a version exactly if it is, without the blanks at its ends, the numeral of a number
below `2 ^ 32`. This numeral is what is written for the version, and every version is read from it. Of the
other numbers, the integers of 64 bits are out of range, and what is no such integer is no integer at all:
larger ones, minus zero, and all that have a fraction or an exponent. -/
theorem decode_iff_isNumeralOf :
    (∀ text n, (∃ v, decode decoder text = .ok v ∧ v.number.toNat = n) ↔
      IsNumeralOf (trimmed text) n ∧ n < 2 ^ 32) ∧
    (∀ text v, decode decoder text = .ok v → v.toJson = trimmed text) ∧
    (∀ v : ArchVersion, decode decoder v.toJson = .ok v) ∧
    ∀ text, IsNumber (trimmed text).toList →
      ReadsAsUInt32 (trimmed text).toList ((decode decoder text).map number) := by
  refine ⟨fun text n => ⟨?_, ?_⟩, fun _ _ => decode_eq_ok_iff.mp, fun v => v.spells.decode_eq_ok,
    fun text h => ?_⟩
  · rintro ⟨v, hdecode, rfl⟩
    exact ⟨toJson_eq_iff.mp (decode_eq_ok_iff.mp hdecode), v.number.toNat_lt⟩
  · rintro ⟨hnumeral, hn⟩
    have hvalue : (UInt32.ofNat n).toNat = n := UInt32.toNat_ofNat_of_lt' hn
    refine ⟨⟨.ofNat n⟩, decode_eq_ok_iff.mpr (toJson_eq_iff.mpr ?_), hvalue⟩
    rw [hvalue]
    exact hnumeral
  · rw [map_number_decode]
    exact readsAsUInt32_decode h

/-- The last version between blanks, minus zero, and an integer with an exponent. -/
theorem decode_iff_isNumeralOf_of_edges :
    (decode decoder " 4294967295\r\n" = .ok ⟨4294967295⟩ ∧
      toJson ⟨4294967295⟩ = trimmed " 4294967295\r\n") ∧
    (IsNumber (trimmed "-0").toList ∧
      ReadsAsUInt32 (trimmed "-0").toList ((decode decoder "-0").map number)) ∧
    IsNumber (trimmed "\t9e+2").toList ∧
      ReadsAsUInt32 (trimmed "\t9e+2").toList ((decode decoder "\t9e+2").map number) := by
  have hversion : decode decoder " 4294967295\r\n" = .ok ⟨4294967295⟩ := rfl
  have hzero : IsNumber (trimmed "-0").toList := .mk (.inr rfl) .zero .none .none
  have hexponent : IsNumber (trimmed "\t9e+2").toList := by
    have hnine : IsWhole ['9'] := .digits (by decide) (isDigits_singleton rfl)
    have htwo : IsDigits ['2'] := isDigits_singleton rfl
    exact .mk (.inl rfl) hnine .none (.digits (.inl rfl) (.inr (.inl rfl)) htwo)
  exact ⟨⟨hversion, decode_iff_isNumeralOf.2.1 _ _ hversion⟩,
    ⟨hzero, decode_iff_isNumeralOf.2.2.2 _ hzero⟩,
    hexponent, decode_iff_isNumeralOf.2.2.2 _ hexponent⟩

end DeviceLibs.ArchVersion
