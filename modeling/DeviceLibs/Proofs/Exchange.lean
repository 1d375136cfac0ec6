import DeviceLibs.Exchange
import DeviceLibs.Proofs.Json.Members

/-!
# What is written is read back

Every type of the library that is exchanged as JSON has a decoder that reads its own text back
(`json_lossless`). The text of each value is a spelling of it, put together from spellings of its
parts. Names in JSON are the names that are shown, so they are read there as they are read anywhere.
-/

namespace DeviceLibs

open Json Json.Decoder.Record

variable {α : Type} {d : Decoder α} {toJson : α → String}

/-- Nothing is lost when values are written and read. -/
structure Lossless (toJson : α → String) (d : Decoder α) : Prop where
  readBack : ∀ a, decode d (toJson a) = .ok a
  /-- However a value was spelt at first, its own text does not change any more. -/
  settled : ∀ text a, decode d text = .ok a →
    ∃ a', decode d (toJson a) = .ok a' ∧ a' = a ∧ toJson a' = toJson a
  distinct : ∀ a a', a ≠ a' → toJson a ≠ toJson a'

theorem Lossless.of_spells (h : ∀ a, Spells d (toJson a).toList a) : Lossless toJson d where
  readBack a := (h a).decode_eq_ok
  settled _ a _ := ⟨a, (h a).decode_eq_ok, rfl, rfl⟩
  distinct a a' hne htext := by
    have hread : decode d (toJson a) = .ok a' := htext ▸ (h a').decode_eq_ok
    rw [(h a).decode_eq_ok] at hread
    exact hne (Except.ok.inj hread)

/-! ### Names -/

/-- A value is found by its encoded name where it is found by its name. -/
theorem ofName?_ofNames_eq {all : List α} {encodedName name : α → String}
    (h : ∀ a, encodedName a = name a) (s : String) :
    (Decoder.Variants.ofNames all encodedName).ofName? s = all.find? (name · = s) := by
  rw [← funext h]
  rfl

theorem spells_encodedName {all : List α} {encodedName name : α → String}
    (h : ∀ a, encodedName a = name a) (hfind : ∀ a, all.find? (name · = name a) = some a) (a : α) :
    Spells (.variant (.ofNames all encodedName)) (quote (encodedName a)).toList a := by
  refine spells_variant ?_
  rw [ofName?_ofNames_eq h, h, hfind]

theorem Language.encodedName_eq_name (l : Language) : l.encodedName = l.name := by cases l <;> rfl

theorem DataKind.encodedName_eq_name (k : DataKind) : k.encodedName = k.name := by
  cases k <;> decide

theorem OptionFlag.encodedName_eq_token (f : OptionFlag) : f.encodedName = f.token := by
  cases f <;> decide

theorem Language.spells (l : Language) : Spells decoder l.toJson.toList l :=
  spells_encodedName encodedName_eq_name ofName?_name l

theorem DataKind.spells (k : DataKind) : Spells decoder k.toJson.toList k :=
  spells_encodedName encodedName_eq_name ofName?_name k

theorem OptionFlag.spells (f : OptionFlag) : Spells decoder f.toJson.toList f :=
  spells_encodedName encodedName_eq_token ofToken?_token f

/-! ### Records -/

theorem ArchVersion.spells (v : ArchVersion) : Spells decoder v.toJson.toList v := by
  have hdigits : v.toJson.toList = Nat.toDigits 10 v.number.toNat := toList_digits v
  rw [hdigits]
  exact (spells_toDigits v.number).map ArchVersion.mk

theorem OptionFlags.spells (flags : OptionFlags) : Spells decoder flags.toJson.toList flags := by
  refine spells_object
    (OptionFlag.all.foldl (fun draft f => draft.set f (flags.get f)) record.empty) ?_ rfl
  refine .member rfl rfl (spells_boolean (flags.get .correctlyRoundedSqrt)) ?_
  refine .member rfl rfl (spells_boolean (flags.get .dazOpt)) ?_
  refine .member rfl rfl (spells_boolean (flags.get .finiteOnly)) ?_
  refine .member rfl rfl (spells_boolean (flags.get .unsafeMath)) ?_
  exact .nil _

theorem TargetIdentifier.spells (t : TargetIdentifier) : Spells decoder t.toJson.toList t := by
  refine spells_object
    { arch := t.arch, vendor := t.vendor, os := t.os, environ := t.environ, processor := t.processor
      features := t.features } ?_ rfl
  refine .member rfl rfl (spells_quote t.arch) ?_
  refine .member rfl rfl (spells_quote t.vendor) ?_
  refine .member rfl rfl (spells_quote t.os) ?_
  refine .member rfl rfl (spells_quote t.environ) ?_
  refine .member rfl rfl (spells_quote t.processor) ?_
  refine .member rfl rfl (spells_array spells_quote t.features) ?_
  exact .nil _

theorem Action.spells (a : Action) : Spells decoder a.toJson.toList a := by
  refine spells_object { language := a.language, isaName := a.isaName, options := a.options } ?_ rfl
  refine .member rfl rfl a.language.spells ?_
  refine .member rfl rfl (spells_quote a.isaName) ?_
  refine .member rfl rfl (spells_quote a.options) ?_
  exact .nil _

/-! ### All the types -/

/-- Every type that is exchanged as JSON is read back as it was written. The names in JSON are those
that are shown, and a string is read as a language, a kind or a flag where its text is the name of
one. -/
theorem json_lossless :
    (Lossless Action.toJson Action.decoder ∧
      Lossless TargetIdentifier.toJson TargetIdentifier.decoder ∧
      Lossless ArchVersion.toJson ArchVersion.decoder ∧
      Lossless OptionFlags.toJson OptionFlags.decoder ∧
      Lossless Language.toJson Language.decoder ∧
      Lossless DataKind.toJson DataKind.decoder ∧
      Lossless OptionFlag.toJson OptionFlag.decoder) ∧
    ((∀ l : Language, l.toJson = quote l.name) ∧ (∀ k : DataKind, k.toJson = quote k.name) ∧
      ∀ f : OptionFlag, f.toJson = quote f.token) ∧
    (∀ s, decode Decoder.string (quote s) = .ok s) ∧
    ∀ text s, decode Decoder.string text = .ok s →
      (∀ l, decode Language.decoder text = .ok l ↔ Language.ofName? s = some l) ∧
      (∀ k, decode DataKind.decoder text = .ok k ↔ DataKind.ofName? s = some k) ∧
      ∀ f, decode OptionFlag.decoder text = .ok f ↔ OptionFlag.ofToken? s = some f := by
  refine ⟨⟨.of_spells Action.spells, .of_spells TargetIdentifier.spells,
    .of_spells ArchVersion.spells, .of_spells OptionFlags.spells, .of_spells Language.spells,
    .of_spells DataKind.spells, .of_spells OptionFlag.spells⟩, ⟨fun l => ?_, fun k => ?_, fun f => ?_⟩,
    fun s => (spells_quote s).decode_eq_ok, fun text s hs => ⟨fun l => ?_, fun k => ?_, fun f => ?_⟩⟩
  · rw [Language.toJson, Language.encodedName_eq_name]
  · rw [DataKind.toJson, DataKind.encodedName_eq_name]
  · rw [OptionFlag.toJson, OptionFlag.encodedName_eq_token]
  · rw [Language.decoder, decode_variant_of_string hs, Language.ofName?,
      ofName?_ofNames_eq Language.encodedName_eq_name]
  · rw [DataKind.decoder, decode_variant_of_string hs, DataKind.ofName?,
      ofName?_ofNames_eq DataKind.encodedName_eq_name]
  · rw [OptionFlag.decoder, decode_variant_of_string hs, OptionFlag.ofToken?,
      ofName?_ofNames_eq OptionFlag.encodedName_eq_token]

end DeviceLibs
