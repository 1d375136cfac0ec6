import DeviceLibs.Proofs.Exchange
import DeviceLibs.Proofs.Json.Content

/-!
# Records are read for their content

Actions, option flags and target identifiers are read from objects and from arrays for their fields alone
(`records_decode_content`): no order of the fields, spelling of the keys or member of another name makes
a difference. Of an action only the language is required, of the others every field.

Each type has its shape and the layout of its draft over that.
-/

namespace DeviceLibs

open Json

/-- A draft is complete at a required field exactly if it has it. -/
theorem requireField_bind_eq_ok {α β : Type} {name : String} {x : Option α} {f : α → Except String β}
    {b : β} : (requireField name x >>= f) = .ok b ↔ ∃ a, x = some a ∧ f a = .ok b := by
  cases x with
  | none => simp [requireField, bind, Except.bind]
  | some a => simp [requireField, bind, Except.bind]

namespace Action

inductive Field where
  | language
  | isaName
  | options
  deriving DecidableEq

def shape : Shape Field Action where
  all := [.language, .isaName, .options]
  name
    | .language => "language"
    | .isaName => "isa-name"
    | .options => "options"
  Value
    | .language => Language
    | .isaName => String
    | .options => String
  decoder
    | .language => Language.decoder
    | .isaName => .string
    | .options => .string
  default?
    | .language => none
    | .isaName => some ""
    | .options => some ""
  field a
    | .language => a.language
    | .isaName => a.isaName
    | .options => a.options
  of values := ⟨values .language, values .isaName, values .options⟩
  field_of values := by
    funext i
    cases i <;> rfl
  mem_all i := by cases i <;> decide
  nodup_names := by decide

theorem Draft.complete_eq_ok_iff {draft : Draft} {a : Action} :
    draft.complete = .ok a ↔ draft.language = some a.language ∧
      draft.isaName.getD "" = a.isaName ∧ draft.options.getD "" = a.options := by
  cases a
  simp [Draft.complete, requireField_bind_eq_ok, pure, Except.pure]

def layout : Json.Layout shape record where
  get draft
    | .language => draft.language
    | .isaName => draft.isaName
    | .options => draft.options
  put draft
    | .language => fun l => { draft with language := some l }
    | .isaName => fun s => { draft with isaName := some s }
    | .options => fun s => { draft with options := some s }
  fields_eq := rfl
  get_empty i := by cases i <;> rfl
  get_put draft i v := by
    funext j
    cases i <;> cases j <;> rfl
  complete_iff draft a := by
    refine Draft.complete_eq_ok_iff.trans ⟨?_, fun h => ⟨?_, ?_, ?_⟩⟩
    · rintro ⟨hlanguage, hname, hoptions⟩ i
      cases i with
      | language => exact (Option.or_none).trans hlanguage
      | isaName => exact Option.or_some.trans (congrArg some hname)
      | options => exact Option.or_some.trans (congrArg some hoptions)
    · exact Option.or_none.symm.trans (h .language)
    · exact Option.some.inj (Option.or_some.symm.trans (h .isaName))
    · exact Option.some.inj (Option.or_some.symm.trans (h .options))
  contained
    | .language => Decoder.contained_variant _
    | .isaName => Decoder.contained_string
    | .options => Decoder.contained_string

end Action

namespace OptionFlags

def shape : Shape OptionFlag OptionFlags where
  all := OptionFlag.all
  name := fieldName
  Value _ := Bool
  decoder _ := .boolean
  default? _ := none
  field := get
  of values := ⟨values .correctlyRoundedSqrt, values .dazOpt, values .finiteOnly, values .unsafeMath⟩
  field_of values := by
    funext f
    cases f <;> rfl
  mem_all := OptionFlag.mem_all
  nodup_names := by decide

theorem Draft.complete_eq_ok_iff {draft : Draft} {flags : OptionFlags} :
    draft.complete = .ok flags ↔ ∀ f, draft f = some (flags.get f) := by
  simp only [Draft.complete, requireField_bind_eq_ok]
  constructor
  · rintro ⟨_, hsqrt, _, hdaz, _, hfinite, _, hmath, ⟨⟩⟩ f
    cases f with
    | correctlyRoundedSqrt => exact hsqrt
    | dazOpt => exact hdaz
    | finiteOnly => exact hfinite
    | unsafeMath => exact hmath
  · intro h
    exact ⟨_, h .correctlyRoundedSqrt, _, h .dazOpt, _, h .finiteOnly, _, h .unsafeMath, rfl⟩

def layout : Layout shape record where
  get draft := draft
  put := Draft.set
  fields_eq := rfl
  get_empty _ := rfl
  get_put draft i v := by
    funext j
    cases i <;> cases j <;> rfl
  complete_iff draft flags := by
    refine Draft.complete_eq_ok_iff.trans (forall_congr' fun f => ?_)
    exact Eq.congr_left Option.or_none.symm
  contained _ := Decoder.contained_boolean

end OptionFlags

namespace TargetIdentifier

inductive Field where
  | arch
  | vendor
  | os
  | environ
  | processor
  | features
  deriving DecidableEq

def shape : Shape Field TargetIdentifier where
  all := [.arch, .vendor, .os, .environ, .processor, .features]
  name
    | .arch => "arch"
    | .vendor => "vendor"
    | .os => "os"
    | .environ => "environ"
    | .processor => "processor"
    | .features => "features"
  Value
    | .features => List String
    | _ => String
  decoder
    | .arch | .vendor | .os | .environ | .processor => .string
    | .features => .list .string
  default? _ := none
  field t
    | .arch => t.arch
    | .vendor => t.vendor
    | .os => t.os
    | .environ => t.environ
    | .processor => t.processor
    | .features => t.features
  of values := ⟨values .arch, values .vendor, values .os, values .environ, values .processor,
    values .features⟩
  field_of values := by
    funext i
    cases i <;> rfl
  mem_all i := by cases i <;> decide
  nodup_names := by decide

theorem Draft.complete_eq_ok_iff {draft : Draft} {t : TargetIdentifier} :
    draft.complete = .ok t ↔ draft.arch = some t.arch ∧ draft.vendor = some t.vendor ∧
      draft.os = some t.os ∧ draft.environ = some t.environ ∧ draft.processor = some t.processor ∧
      draft.features = some t.features := by
  cases t
  simp [Draft.complete, requireField_bind_eq_ok, pure, Except.pure]

def layout : Layout shape record where
  get draft
    | .arch => draft.arch
    | .vendor => draft.vendor
    | .os => draft.os
    | .environ => draft.environ
    | .processor => draft.processor
    | .features => draft.features
  put draft
    | .arch => fun s => { draft with arch := some s }
    | .vendor => fun s => { draft with vendor := some s }
    | .os => fun s => { draft with os := some s }
    | .environ => fun s => { draft with environ := some s }
    | .processor => fun s => { draft with processor := some s }
    | .features => fun l => { draft with features := some l }
  fields_eq := rfl
  get_empty i := by cases i <;> rfl
  get_put draft i v := by
    funext j
    cases i <;> cases j <;> rfl
  complete_iff draft t := by
    refine Draft.complete_eq_ok_iff.trans ⟨?_, fun h => ?_⟩
    · rintro ⟨harch, hvendor, hos, henviron, hprocessor, hfeatures⟩ i
      cases i with
      | arch => exact Option.or_none.trans harch
      | vendor => exact Option.or_none.trans hvendor
      | os => exact Option.or_none.trans hos
      | environ => exact Option.or_none.trans henviron
      | processor => exact Option.or_none.trans hprocessor
      | features => exact Option.or_none.trans hfeatures
    · have hfield (i) := Option.or_none.symm.trans (h i)
      exact ⟨hfield .arch, hfield .vendor, hfield .os, hfield .environ, hfield .processor,
        hfield .features⟩
  contained
    | .arch | .vendor | .os | .environ | .processor => Decoder.contained_string
    | .features => Decoder.contained_list Decoder.contained_string

end TargetIdentifier

/-- Actions, option flags and target identifiers are decoded to what their fields hold. An action
needs its language, and has no name and no options where they are left out; the others need every
field. -/
theorem records_decode_content :
    (DecodesContent Action.shape Action.decoder ∧
      DecodesContent OptionFlags.shape OptionFlags.decoder ∧
      DecodesContent TargetIdentifier.shape TargetIdentifier.decoder) ∧
    (Action.shape.default? .language = none ∧ Action.shape.default? .isaName = some "" ∧
      Action.shape.default? .options = some "") ∧
    (∀ i, OptionFlags.shape.default? i = none) ∧ ∀ i, TargetIdentifier.shape.default? i = none :=
  ⟨⟨Action.layout.decodesContent, OptionFlags.layout.decodesContent,
    TargetIdentifier.layout.decodesContent⟩, ⟨rfl, rfl, rfl⟩, fun _ => rfl, fun _ => rfl⟩

/-- An action in three texts. Members of another name, though they come twice and hold other objects, are
no fields of it; an array may leave out all but the language; and an object that has the language twice is
refused. -/
theorem records_decode_content_of_others :
    decode Action.decoder "\x7b\"x\":[\x7b\x7d],\"language\":\"hc\",\"x\":0\x7d" =
      .ok { language := .hc, isaName := "", options := "" } ∧
    decode Action.decoder "[\"hc\"]" = .ok { language := .hc, isaName := "", options := "" } ∧
    decode Action.decoder "\x7b\"x\":[\x7b\x7d],\"language\":\"hc\",\"x\":0\x7d" =
      decode Action.decoder "[\"hc\"]" ∧
    ∃ i, decode Action.decoder "\x7b\"language\":\"hc\",\"x\":0,\"language\":\"hc\"\x7d" =
      .error (.mismatch (.duplicateField (Action.shape.name i))) := by
  have hx : ∀ i, "x" ≠ Action.shape.name i := by
    rintro (_ | _ | _) <;> decide
  have hnested : IsValue "[\x7b\x7d]".toList :=
    @IsValue.array [['\x7b', '\x7d']] []
      (List.forall_mem_singleton.mpr (@IsValue.object [] [] nofun blank_nil)) blank_nil
  have hzero : IsValue "0".toList := .number (.mk (.inl rfl) .zero .none .none)
  have hlanguage : decode Language.decoder (.ofList Language.hc.toJson.toList) = .ok .hc := by
    rw [String.ofList_toList]
    exact (Language.spells .hc).decode_eq_ok
  have hreads : Action.shape.Reads
      [.plain "x" "[\x7b\x7d]".toList (by simp),
        .plain "language" Language.hc.toJson.toList (by simp), .plain "x" "0".toList (by simp)]
      [⟨.language, .hc⟩] := by
    refine .other hx hnested ?_
    refine .field rfl hlanguage ?_
    exact .other hx hzero .nil
  have htwice : Action.shape.Reads
      [.plain "language" Language.hc.toJson.toList (by simp), .plain "x" "0".toList (by simp),
        .plain "language" Language.hc.toJson.toList (by simp)]
      [⟨.language, .hc⟩, ⟨.language, .hc⟩] := by
    refine .field rfl hlanguage ?_
    refine .other hx hzero ?_
    exact .field rfl hlanguage .nil
  have helements : Action.shape.Elements [Language.hc.toJson.toList] [⟨.language, .hc⟩] :=
    .cons hlanguage .nil
  have hholds : Action.shape.Holds [⟨.language, .hc⟩] { language := .hc, isaName := "", options := "" } := by
    rintro (_ | _ | _) <;> rfl
  have hcomplete : Action.shape.Complete [⟨.language, .hc⟩] :=
    Json.Shape.exists_holds_iff.mp ⟨_, hholds⟩
  have hnodup : [(⟨.language, .hc⟩ : Sigma Action.shape.Value)].NodupKeys := List.nodupKeys_singleton _
  have hfront : [(⟨.language, .hc⟩ : Sigma Action.shape.Value)].keys <+: Action.shape.all :=
    ⟨[.isaName, .options], rfl⟩
  obtain ⟨-, hobject, harray, hagrees, hrepeated⟩ := records_decode_content.1.1
  refine ⟨?_, ?_, ?_, ?_⟩
  · exact (hobject hreads (isObject_of_eq rfl) hnodup _).mpr hholds
  · exact (harray helements (isArray_of_eq rfl) hfront _).mpr hholds
  · exact hagrees hreads (isObject_of_eq rfl) hnodup helements (isArray_of_eq rfl) hfront rfl hcomplete
  · refine hrepeated htwice (isObject_of_eq rfl) ?_
    simp [List.NodupKeys, List.keys]

end DeviceLibs
