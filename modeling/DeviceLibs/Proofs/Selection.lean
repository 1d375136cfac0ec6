import DeviceLibs.Proofs.Block
import DeviceLibs.Proofs.DataSet
import DeviceLibs.Proofs.IsaName
import DeviceLibs.Proofs.OptionString
import DeviceLibs.Session

/-!
# Requests for device libraries

A request is an ISA name, an option string and a language. It either selects a version and a set of
flags, or is refused for the first reason that applies; which of the two is decided without a look at
any set (`selects_or_refuses`). Hence what it does to a set:

* `result_eq_error_iff`, `result_eq_ok_iff`: it fails if it is refused or there is no room, and not
  otherwise; the set is then left alone (`set_of_error`).
* `Selects.add_of_hasRoom`: else it adds the eight libraries of its selection, in link order.
* `setAndResult_of_names`: it counts by what it selects, however that is spelt.
-/

namespace DeviceLibs

/-- The ISA name is an identifier whose processor has this version. -/
def NamesVersion (isaName : String) (v : ArchVersion) : Prop :=
  ∃ t, TargetIdentifier.parse isaName = .ok t ∧ t.archVersion = .ok v

/-- The request is in order, and is for this version and these flags. -/
structure Selects (isaName options : String) (language : Language) (v : ArchVersion)
    (flags : OptionFlags) : Prop where
  language : language.isOpenCL = true
  version : NamesVersion isaName v
  supported : v ∈ ArchVersion.supported
  options : OptionFlags.parse options = .ok flags

/-- The first reason for which the request is refused: each stage is reached through those before it. -/
inductive Refuses (isaName options : String) (language : Language) : SelectionError → Prop where
  | language (hl : language.isOpenCL = false) :
    Refuses isaName options language (.unsupportedLanguage language)
  | identifier {e : TargetError} (hl : language.isOpenCL = true)
    (he : TargetIdentifier.parse isaName = .error e) :
    Refuses isaName options language (.invalidTarget e)
  | processor {t : TargetIdentifier} {e : TargetError} (hl : language.isOpenCL = true)
    (ht : TargetIdentifier.parse isaName = .ok t)
    (he : ArchVersion.ofProcessor t.processor = .error e) :
    Refuses isaName options language (.invalidTarget e)
  | version {v : ArchVersion} (hl : language.isOpenCL = true) (hv : NamesVersion isaName v)
    (hs : v ∉ ArchVersion.supported) :
    Refuses isaName options language (.unsupportedArchVersion v)
  | options {v : ArchVersion} {e : SelectionError} (hl : language.isOpenCL = true)
    (hv : NamesVersion isaName v) (hs : v ∈ ArchVersion.supported)
    (he : OptionFlags.parse options = .error e) :
    Refuses isaName options language e

section Request

variable {isaName options : String} {language : Language} {v : ArchVersion} {flags : OptionFlags}
  {e : SelectionError} {s : DataSet}

/-! ### Staging -/

theorem selects_or_refuses (isaName options : String) (language : Language) :
    (∃ v flags, Selects isaName options language v flags) ∨
      ∃ e, Refuses isaName options language e := by
  cases hl : language.isOpenCL with
  | false => exact .inr ⟨_, .language hl⟩
  | true =>
    cases ht : TargetIdentifier.parse isaName with
    | error e => exact .inr ⟨_, .identifier hl ht⟩
    | ok t =>
      cases hv : t.archVersion with
      | error e => exact .inr ⟨_, .processor hl ht hv⟩
      | ok v =>
        by_cases hs : v ∈ ArchVersion.supported
        · cases hf : OptionFlags.parse options with
          | error e => exact .inr ⟨_, .options hl ⟨t, ht, hv⟩ hs hf⟩
          | ok flags => exact .inl ⟨v, flags, hl, ⟨t, ht, hv⟩, hs, hf⟩
        · exact .inr ⟨_, .version hl ⟨t, ht, hv⟩ hs⟩

theorem result_stageDeviceLibraries (hl : language.isOpenCL = true) :
    (Blob.stageDeviceLibraries isaName options language).result = (do
      let t ← (TargetIdentifier.parse isaName).mapError SelectionError.invalidTarget
      let v ← t.archVersion.mapError SelectionError.invalidTarget
      let _ ← Blob.isaVersionBlob v
      let flags ← OptionFlags.parse options
      let bundle ← Blob.selectDeviceLibraries language v flags
      return bundle.map (Blob.toObject .bc)) := by
  simp only [Blob.stageDeviceLibraries, hl, Bool.not_true, Bool.false_eq_true, if_false,
    Traced.result_bind, Traced.result_mapError, TargetIdentifier.result_read,
    Traced.result_ofExcept, Traced.result_emit, Blob.result_stage]
  rfl

theorem result_stage_of_version (hl : language.isOpenCL = true) (hv : NamesVersion isaName v) :
    (Blob.stageDeviceLibraries isaName options language).result = (do
      let _ ← Blob.isaVersionBlob v
      let flags ← OptionFlags.parse options
      let bundle ← Blob.selectDeviceLibraries language v flags
      return bundle.map (Blob.toObject .bc)) := by
  obtain ⟨t, ht, hv⟩ := hv
  rw [result_stageDeviceLibraries hl, ht]
  show (t.archVersion.mapError _ >>= _) = _
  rw [hv]
  rfl

theorem result_stage_of_supported (hl : language.isOpenCL = true) (hv : NamesVersion isaName v)
    (hs : v ∈ ArchVersion.supported) :
    (Blob.stageDeviceLibraries isaName options language).result =
      (OptionFlags.parse options).map fun flags => (Block.libraries v flags).objects := by
  obtain ⟨b, -, hb⟩ := Blob.isaVersionBlob_of_mem hs
  rw [result_stage_of_version hl hv, hb]
  show (OptionFlags.parse options >>= _) = _
  cases OptionFlags.parse options with
  | error e => rfl
  | ok flags =>
    show (Blob.selectDeviceLibraries language v flags >>= _) = _
    rw [Blob.selectDeviceLibraries_of_mem hl hs]
    rfl

theorem Selects.result_stage (h : Selects isaName options language v flags) :
    (Blob.stageDeviceLibraries isaName options language).result =
      .ok (Block.libraries v flags).objects := by
  rw [result_stage_of_supported h.language h.version h.supported, h.options]
  rfl

theorem Refuses.result_stage (h : Refuses isaName options language e) :
    (Blob.stageDeviceLibraries isaName options language).result = .error e := by
  cases h with
  | language hl =>
    simp only [Blob.stageDeviceLibraries, hl]
    rfl
  | identifier hl he =>
    rw [result_stageDeviceLibraries hl, he]
    rfl
  | processor hl ht he =>
    rw [result_stageDeviceLibraries hl, ht]
    show ((ArchVersion.ofProcessor _).mapError _ >>= _) = _
    rw [he]
    rfl
  | version hl hv hs =>
    rw [result_stage_of_version hl hv, Blob.isaVersionBlob_of_not_mem hs]
    rfl
  | options hl hv hs he =>
    rw [result_stage_of_supported hl hv hs, he]
    rfl

/-- What a request is refused for is never that the table lacks a library. -/
theorem Refuses.ne_missingBlob (h : Refuses isaName options language e) (name : String) :
    e ≠ .missingBlob name := by
  rintro rfl
  cases h with
  | options hl hv hs he => exact OptionFlags.parse_ne_missingBlob options name he

/-! ### Adding to a set -/

theorem length_objects_libraries (hs : v ∈ ArchVersion.supported) (flags : OptionFlags) :
    (Block.libraries v flags).objects.length = 8 := by
  rw [Block.length_objects (b := .libraries v flags) hs]
  exact Blob.length_bundleNames v flags

theorem Refuses.add_eq (h : Refuses isaName options language e) (s : DataSet) :
    Edit.addDeviceLibraries isaName options language s =
      ⟨s, (Blob.stageDeviceLibraries isaName options language).events, .error e⟩ :=
  Edit.bind_of_error (x := .ofTraced _) h.result_stage _

theorem Selects.add_eq (h : Selects isaName options language v flags) (s : DataSet) :
    Edit.addDeviceLibraries isaName options language s =
      { Edit.commit (Block.libraries v flags).objects s with
        events := (Blob.stageDeviceLibraries isaName options language).events ++
          (Edit.commit (Block.libraries v flags).objects s).events } :=
  Edit.bind_of_ok (x := .ofTraced _) h.result_stage _

theorem Selects.add_of_hasRoom (h : Selects isaName options language v flags) (hr : s.HasRoom 8) :
    (Edit.addDeviceLibraries isaName options language s).result = .ok () ∧
      (Edit.addDeviceLibraries isaName options language s).set =
        s.append (Block.libraries v flags).objects := by
  rw [← length_objects_libraries h.supported flags, ← DataSet.room_eq_ok_iff] at hr
  rw [h.add_eq, Edit.commit_of_ok hr]
  exact ⟨rfl, rfl⟩

theorem Selects.add_of_not_hasRoom (h : Selects isaName options language v flags)
    (hr : ¬ s.HasRoom 8) : ∃ fault, s.room 8 = .error fault ∧
      (Edit.addDeviceLibraries isaName options language s).result = .error (.outOfResources fault) ∧
      (Edit.addDeviceLibraries isaName options language s).set = s := by
  obtain ⟨fault, hroom⟩ := DataSet.exists_fault_of_not_hasRoom hr
  refine ⟨fault, hroom, ?_⟩
  rw [← length_objects_libraries h.supported flags] at hroom
  rw [h.add_eq, Edit.commit_of_error hroom]
  exact ⟨rfl, rfl⟩

theorem result_eq_error_iff :
    (Edit.addDeviceLibraries isaName options language s).result = .error e ↔
      Refuses isaName options language e ∨
        (∃ v flags, Selects isaName options language v flags) ∧ ¬ s.HasRoom 8 ∧
          ∃ fault, s.room 8 = .error fault ∧ e = .outOfResources fault := by
  constructor
  · intro h
    rcases selects_or_refuses isaName options language with ⟨v, flags, hsel⟩ | ⟨e', href⟩
    · by_cases hr : s.HasRoom 8
      · rw [(hsel.add_of_hasRoom hr).1] at h
        cases h
      · obtain ⟨fault, hroom, hadd, -⟩ := hsel.add_of_not_hasRoom hr
        rw [hadd] at h
        cases h
        exact .inr ⟨⟨v, flags, hsel⟩, hr, fault, hroom, rfl⟩
    · rw [href.add_eq] at h
      cases h
      exact .inl href
  · rintro (href | ⟨⟨v, flags, hsel⟩, hr, fault, hroom, rfl⟩)
    · rw [href.add_eq]
    · obtain ⟨fault', hroom', hadd, -⟩ := hsel.add_of_not_hasRoom hr
      rw [hroom] at hroom'
      cases hroom'
      exact hadd

theorem result_eq_ok_iff :
    (Edit.addDeviceLibraries isaName options language s).result = .ok () ↔
      (∃ v flags, Selects isaName options language v flags) ∧ s.HasRoom 8 := by
  constructor
  · intro h
    rcases selects_or_refuses isaName options language with ⟨v, flags, hsel⟩ | ⟨e', href⟩
    · refine ⟨⟨v, flags, hsel⟩, ?_⟩
      by_contra hr
      obtain ⟨fault, -, hadd, -⟩ := hsel.add_of_not_hasRoom hr
      rw [hadd] at h
      cases h
    · rw [href.add_eq] at h
      cases h
  · rintro ⟨⟨v, flags, hsel⟩, hr⟩
    exact (hsel.add_of_hasRoom hr).1

theorem set_of_error (h : (Edit.addDeviceLibraries isaName options language s).result = .error e) :
    (Edit.addDeviceLibraries isaName options language s).set = s := by
  rcases result_eq_error_iff.mp h with href | ⟨⟨v, flags, hsel⟩, hr, -⟩
  · rw [href.add_eq]
  · obtain ⟨fault, -, -, hset⟩ := hsel.add_of_not_hasRoom hr
    exact hset

/-- A request is refused for the first reason that applies, else for want of room, and then leaves the
set alone. Any other request adds exactly the eight libraries of its selection, in link order and with
the bytes of the table. -/
theorem addDeviceLibraries_outcome (s : DataSet) (isaName options : String) (language : Language) :
    (∀ e, (Edit.addDeviceLibraries isaName options language s).result = .error e ↔
      Refuses isaName options language e ∨
        (∃ v flags, Selects isaName options language v flags) ∧ ¬ s.HasRoom 8 ∧
          ∃ fault, s.room 8 = .error fault ∧ e = .outOfResources fault) ∧
    (∀ e, (Edit.addDeviceLibraries isaName options language s).result = .error e →
      (Edit.addDeviceLibraries isaName options language s).set = s) ∧
    ((Edit.addDeviceLibraries isaName options language s).result = .ok () ↔
      (∃ v flags, Selects isaName options language v flags) ∧ s.HasRoom 8) ∧
    (∀ v flags, Selects isaName options language v flags → s.HasRoom 8 →
      ∃ added, (Edit.addDeviceLibraries isaName options language s).set =
          ⟨s.objects ++ added, s.limit, s.memory⟩ ∧
        added.length = 8 ∧ added.map DataObject.name = Blob.bundleNames v flags ∧
        ∀ o ∈ added, o.kind = .bc ∧ o.IsFromTable) ∧
    (∀ name, (Edit.addDeviceLibraries isaName options language s).result ≠
      .error (.missingBlob name)) ∧
    (∀ s₂ e, e.status = .invalidArgument →
      ((Edit.addDeviceLibraries isaName options language s).result = .error e ↔
        (Edit.addDeviceLibraries isaName options language s₂).result = .error e)) := by
  refine ⟨fun e => result_eq_error_iff, fun e => set_of_error, result_eq_ok_iff,
    fun v flags hsel hr => ?_, fun name hn => ?_, fun s₂ e he => ?_⟩
  · obtain ⟨hn, ho⟩ := (Block.eq_objects_iff (b := .libraries v flags) hsel.supported).mp rfl
    exact ⟨_, (hsel.add_of_hasRoom hr).2, length_objects_libraries hsel.supported flags, hn, ho⟩
  · rcases result_eq_error_iff.mp hn with href | ⟨-, -, fault, -, hf⟩
    · exact href.ne_missingBlob name rfl
    · cases hf
  · have key : ∀ s, (Edit.addDeviceLibraries isaName options language s).result = .error e ↔
        Refuses isaName options language e := by
      intro s
      rw [result_eq_error_iff]
      refine ⟨fun h => h.elim id ?_, .inl⟩
      rintro ⟨-, -, fault, -, rfl⟩
      cases he
    rw [key, key]

/-! ### What a request depends on -/

/-- What an edit leaves, but for what was told on the way. -/
def Edited.setAndResult {α : Type} (x : Edited α) : DataSet × Except SelectionError α :=
  (x.set, x.result)

/-- The ISA name counts by its version, the option string by its flags, and the dialect not at all. -/
theorem setAndResult_of_names (hl : language.isOpenCL = true) (hv : NamesVersion isaName v)
    (hf : OptionFlags.parse options = .ok flags) (s : DataSet) :
    (Edit.addDeviceLibraries isaName options language s).setAndResult =
      if v ∈ ArchVersion.supported then
        (Edit.commit (Block.libraries v flags).objects s).setAndResult
      else (s, .error (.unsupportedArchVersion v)) := by
  split_ifs with hs
  · rw [Selects.add_eq ⟨hl, hv, hs, hf⟩]
    rfl
  · rw [Refuses.add_eq (.version hl hv hs)]
    rfl

theorem set_of_ok_of_names (hl : language.isOpenCL = true) (hv : NamesVersion isaName v)
    (hf : OptionFlags.parse options = .ok flags)
    (h : (Edit.addDeviceLibraries isaName options language s).result = .ok ()) :
    v ∈ ArchVersion.supported ∧ (Edit.addDeviceLibraries isaName options language s).set =
      s.append (Block.libraries v flags).objects := by
  have hs : v ∈ ArchVersion.supported := by
    by_contra hs
    rw [Refuses.add_eq (.version hl hv hs)] at h
    cases h
  exact ⟨hs, (Selects.add_of_hasRoom ⟨hl, hv, hs, hf⟩ (result_eq_ok_iff.mp h).2).2⟩

theorem namesVersion_hsaIsaName (v : ArchVersion) : NamesVersion v.hsaIsaName v :=
  ⟨_, TargetIdentifier.parse_hsaIsaName v, TargetIdentifier.archVersion_mk_processorName ..⟩

theorem libraries_objects_inj {v₁ v₂ : ArchVersion} {f₁ f₂ : OptionFlags}
    (h₁ : v₁ ∈ ArchVersion.supported) (h₂ : v₂ ∈ ArchVersion.supported)
    (h : (Block.libraries v₁ f₁).objects = (Block.libraries v₂ f₂).objects) : v₁ = v₂ ∧ f₁ = f₂ := by
  have hn := congrArg (List.map DataObject.name) h
  rw [(Block.describes_objects (b := .libraries v₁ f₁) h₁).names,
    (Block.describes_objects (b := .libraries v₂ f₂) h₂).names] at hn
  exact Block.bundleNames_inj hn

end Request

section TwoRequests

variable {isa₁ isa₂ options₁ options₂ : String} {l₁ l₂ : Language} {v₁ v₂ : ArchVersion}
  {f₁ f₂ : OptionFlags}

/-- Two requests in order come to the same exactly if they are for the same version and flags, however
these are spelt; the spelling that is printed for them is as good as any other. -/
theorem addDeviceLibraries_eq_iff_selection (s : DataSet)
    (hl₁ : l₁.isOpenCL = true) (hl₂ : l₂.isOpenCL = true)
    (hv₁ : NamesVersion isa₁ v₁) (hv₂ : NamesVersion isa₂ v₂)
    (hf₁ : OptionFlags.parse options₁ = .ok f₁) (hf₂ : OptionFlags.parse options₂ = .ok f₂) :
    (v₁ = v₂ → f₁ = f₂ →
      (Edit.addDeviceLibraries isa₁ options₁ l₁ s).setAndResult =
        (Edit.addDeviceLibraries isa₂ options₂ l₂ s).setAndResult) ∧
    (∀ isa ∈ [isa₁, v₁.hsaIsaName], ∀ options ∈ [options₁, f₁.options],
      (Edit.addDeviceLibraries isa options l₁ s).setAndResult =
        (Edit.addDeviceLibraries isa₁ options₁ l₁ s).setAndResult) ∧
    ((Edit.addDeviceLibraries isa₁ options₁ l₁ s).result = .ok () →
      (Edit.addDeviceLibraries isa₂ options₂ l₂ s).result = .ok () →
      (Edit.addDeviceLibraries isa₁ options₁ l₁ s).set =
        (Edit.addDeviceLibraries isa₂ options₂ l₂ s).set → v₁ = v₂ ∧ f₁ = f₂) := by
  refine ⟨?_, fun isa hisa options hoptions => ?_, fun h₁ h₂ hset => ?_⟩
  · rintro rfl rfl
    rw [setAndResult_of_names hl₁ hv₁ hf₁, setAndResult_of_names hl₂ hv₂ hf₂]
  · have hv : NamesVersion isa v₁ := by
      rcases List.mem_pair.mp hisa with rfl | rfl
      · exact hv₁
      · exact namesVersion_hsaIsaName v₁
    have hf : OptionFlags.parse options = .ok f₁ := by
      rcases List.mem_pair.mp hoptions with rfl | rfl
      · exact hf₁
      · exact OptionFlags.parse_options f₁
    rw [setAndResult_of_names hl₁ hv hf, setAndResult_of_names hl₁ hv₁ hf₁]
  · obtain ⟨hs₁, hset₁⟩ := set_of_ok_of_names hl₁ hv₁ hf₁ h₁
    obtain ⟨hs₂, hset₂⟩ := set_of_ok_of_names hl₂ hv₂ hf₂ h₂
    rw [hset₁, hset₂] at hset
    exact libraries_objects_inj hs₁ hs₂ (List.append_cancel_left (congrArg DataSet.objects hset))

end TwoRequests

/-- Two spellings of a request for version 900, both of which succeed. -/
theorem addDeviceLibraries_eq_of_spellings :
    NamesVersion "amdgcn-x-y-z-gfx0900+xnack++a-b" ⟨900⟩ ∧
    NamesVersion "amdgcn-amd-amdhsa--gfx900" ⟨900⟩ ∧
    OptionFlags.parse ",unsafe_math,,daz_opt" = .ok { dazOpt := true, unsafeMath := true } ∧
    OptionFlags.parse "daz_opt,unsafe_math" = .ok { dazOpt := true, unsafeMath := true } ∧
    (Edit.addDeviceLibraries "amdgcn-x-y-z-gfx0900+xnack++a-b" ",unsafe_math,,daz_opt" .openCL12
      (.withLimit 8)).result = .ok () ∧
    (Edit.addDeviceLibraries "amdgcn-x-y-z-gfx0900+xnack++a-b" ",unsafe_math,,daz_opt" .openCL12
      (.withLimit 8)).setAndResult =
      (Edit.addDeviceLibraries "amdgcn-amd-amdhsa--gfx900" "daz_opt,unsafe_math" .openCL20
        (.withLimit 8)).setAndResult := by
  have hv₁ : NamesVersion "amdgcn-x-y-z-gfx0900+xnack++a-b" ⟨900⟩ := ⟨_, rfl, rfl⟩
  have hv₂ : NamesVersion "amdgcn-amd-amdhsa--gfx900" ⟨900⟩ := ⟨_, rfl, rfl⟩
  have hf₁ : OptionFlags.parse ",unsafe_math,,daz_opt" =
      .ok { dazOpt := true, unsafeMath := true } := rfl
  have hf₂ : OptionFlags.parse "daz_opt,unsafe_math" =
      .ok { dazOpt := true, unsafeMath := true } := rfl
  have hroom : (DataSet.withLimit 8).HasRoom 8 := DataSet.room_eq_ok_iff.mp rfl
  have hs : (⟨900⟩ : ArchVersion) ∈ ArchVersion.supported :=
    Blob.mem_supported_iff.mpr (by decide +kernel)
  refine ⟨hv₁, hv₂, hf₁, hf₂, result_eq_ok_iff.mpr ⟨⟨_, _, rfl, hv₁, hs, hf₁⟩, hroom⟩, ?_⟩
  exact (addDeviceLibraries_eq_iff_selection _ rfl rfl hv₁ hv₂ hf₁ hf₂).1 rfl rfl

end DeviceLibs
