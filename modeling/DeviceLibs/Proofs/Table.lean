import DeviceLibs.Library.Bundle
import Mathlib.Data.List.Nodup

/-!
# The library table

A version is supported exactly when the table holds its ISA version library (`mem_supported_iff`): the
list of the supported versions is read off the names, the library is looked up under a name that is
written, and neither way finds what the other does not (`isaVersionBlob_eq_ok_iff`). Of a supported
version every library of every bundle is in the table, so the choice of a bundle fails for the language
and the version only (`selectDeviceLibraries_of_mem`).
-/

namespace DeviceLibs

namespace ArchVersion

theorem digits_injective : Function.Injective digits := by
  intro v w h
  have hd : Nat.toDigits 10 v.number.toNat = Nat.toDigits 10 w.number.toNat := by
    rw [← toList_digits, ← toList_digits, h]
  have hn := congrArg Text.ofDecimal32? hd
  simp only [Text.ofDecimal32?_toDigits, Option.some.injEq] at hn
  cases v; cases w
  exact congrArg mk hn

end ArchVersion

namespace Blob

/-! ### Looking up a name -/

theorem name_of_find? {name : String} {b : Blob} (h : find? name = some b) : b.name = name := by
  simpa using List.find?_some h

theorem isSome_find?_iff {name : String} : (find? name).isSome ↔ ∃ b ∈ table, b.name = name := by
  simp [find?]

/-- Every name of the table is the name of one blob. -/
theorem nodup_names : (table.map name).Nodup := by decide +kernel

/-- A blob of the table is found under its name. -/
theorem find?_name {b : Blob} (hb : b ∈ table) : find? b.name = some b := by
  obtain ⟨c, hc⟩ := Option.isSome_iff_exists.mp (isSome_find?_iff.mpr ⟨b, hb, rfl⟩)
  have hmem : c ∈ table := List.mem_of_find?_eq_some hc
  rw [hc, List.inj_on_of_nodup_map nodup_names hmem hb (name_of_find? hc)]

theorem require_of_find? {n : String} {b : Blob} (h : find? n = some b) : require n = .ok b := by
  rw [require, h]

/-- Names that are all in the table are all found. -/
theorem mapM_require {names : List String} (h : ∀ n ∈ names, (find? n).isSome) :
    names.mapM require = .ok (names.filterMap find?) := by
  induction names with
  | nil => rfl
  | cons n names ih =>
    obtain ⟨b, hb⟩ := Option.isSome_iff_exists.mp (h n (by simp))
    rw [List.mapM_cons, require_of_find? hb, ih fun m hm => h m (by simp [hm]),
      List.filterMap_cons_some hb]
    rfl

theorem map_name_filterMap_find? {names : List String} (h : ∀ n ∈ names, (find? n).isSome) :
    (names.filterMap find?).map name = names := by
  induction names with
  | nil => rfl
  | cons n names ih =>
    obtain ⟨b, hb⟩ := Option.isSome_iff_exists.mp (h n (by simp))
    rw [List.filterMap_cons_some hb, List.map_cons, name_of_find? hb,
      ih fun m hm => h m (by simp [hm])]

/-! ### ISA version libraries -/

theorem isaVersionName_injective : Function.Injective isaVersionName := by
  intro v w h
  apply ArchVersion.digits_injective
  have hl := congrArg String.toList h
  simp only [isaVersionName, String.toList_append, List.append_assoc,
    List.append_cancel_left_eq, List.append_cancel_right_eq] at hl
  exact String.toList_inj.mp hl

/-- The version in a name is the one that the name was written for. -/
theorem isaVersion?_of_name {b : Blob} {v : ArchVersion} (h : b.name = isaVersionName v) :
    isaVersion? b = some v := by
  have hl : b.name.toList = isaVersionAffixes.1.toList ++
      (Nat.toDigits 10 v.number.toNat ++ isaVersionAffixes.2.toList) := by
    rw [h, isaVersionName, String.toList_append, String.toList_append, ArchVersion.toList_digits,
      List.append_assoc]
  have hp : isaVersionAffixes.1.toList.isPrefixOf? b.name.toList =
      some (Nat.toDigits 10 v.number.toNat ++ isaVersionAffixes.2.toList) :=
    List.isPrefixOf?_eq_some_iff_append_eq.mpr hl.symm
  have hs : isaVersionAffixes.2.toList.isSuffixOf?
      (Nat.toDigits 10 v.number.toNat ++ isaVersionAffixes.2.toList) =
      some (Nat.toDigits 10 v.number.toNat) :=
    List.isSuffixOf?_eq_some_iff_append_eq.mpr rfl
  simp only [isaVersion?, hp, hs, Option.bind_eq_bind, Option.bind_some,
    Text.ofSigned32?_toDigits]
  rfl

/-- No name of the table writes its version in another way, with zeros in front or a sign. -/
theorem name_of_isaVersion? {b : Blob} {v : ArchVersion} (hb : b ∈ table)
    (h : isaVersion? b = some v) : b.name = isaVersionName v := by
  have hall : ∀ b ∈ table, ∀ v ∈ isaVersion? b, b.name = isaVersionName v := by decide +kernel
  exact hall b hb v h

theorem mem_supported_iff {v : ArchVersion} :
    v ∈ ArchVersion.supported ↔ (find? (isaVersionName v)).isSome := by
  rw [isSome_find?_iff, ArchVersion.supported, ArchVersion.ascending, List.mem_mergeSort,
    List.mem_filterMap]
  constructor
  · rintro ⟨b, hb, h⟩
    exact ⟨b, hb, name_of_isaVersion? hb h⟩
  · rintro ⟨b, hb, h⟩
    exact ⟨b, hb, isaVersion?_of_name h⟩

theorem isaVersionBlob_of_find? {v : ArchVersion} {b : Blob} (h : find? (isaVersionName v) = some b) :
    isaVersionBlob v = .ok b := by
  -- rewriting with the definition would have its match look through the table
  unfold isaVersionBlob
  rw [h]

theorem isaVersionBlob_of_not_mem {v : ArchVersion} (h : v ∉ ArchVersion.supported) :
    isaVersionBlob v = .error (.unsupportedArchVersion v) := by
  rw [mem_supported_iff, Option.not_isSome_iff_eq_none] at h
  unfold isaVersionBlob
  rw [h]

theorem isaVersionBlob_of_mem {v : ArchVersion} (h : v ∈ ArchVersion.supported) :
    ∃ b, find? (isaVersionName v) = some b ∧ isaVersionBlob v = .ok b := by
  obtain ⟨b, hb⟩ := Option.isSome_iff_exists.mp (mem_supported_iff.mp h)
  exact ⟨b, hb, isaVersionBlob_of_find? hb⟩

theorem exists_isaVersionBlob_iff {v : ArchVersion} :
    (∃ b, isaVersionBlob v = .ok b) ↔ v ∈ ArchVersion.supported := by
  constructor
  · rintro ⟨b, hb⟩
    by_contra hv
    rw [isaVersionBlob_of_not_mem hv] at hb
    cases hb
  · intro hv
    obtain ⟨b, -, hb⟩ := isaVersionBlob_of_mem hv
    exact ⟨b, hb⟩

/-- The library of a version is the one blob whose name is read as this version. -/
theorem isaVersionBlob_eq_ok_iff {v : ArchVersion} {b : Blob} :
    isaVersionBlob v = .ok b ↔ b ∈ table ∧ isaVersion? b = some v := by
  constructor
  · intro h
    obtain ⟨c, hc, hv⟩ := isaVersionBlob_of_mem (exists_isaVersionBlob_iff.mp ⟨b, h⟩)
    rw [hv] at h
    cases h
    exact ⟨List.mem_of_find?_eq_some hc, isaVersion?_of_name (name_of_find? hc)⟩
  · rintro ⟨hb, hv⟩
    have hfind := find?_name hb
    rw [name_of_isaVersion? hb hv] at hfind
    exact isaVersionBlob_of_find? hfind

/-- No two libraries are for one version. -/
theorem pairwise_isaVersion? : (table.filterMap isaVersion?).Pairwise (· ≠ ·) := by
  have hnames : table.Pairwise fun b c => b.name ≠ c.name := List.pairwise_map.mp nodup_names
  rw [List.pairwise_filterMap]
  refine hnames.imp_of_mem fun hb hc hne v hv w hw hvw => hne ?_
  rw [name_of_isaVersion? hb hv, name_of_isaVersion? hc hw, hvw]

end Blob

theorem ArchVersion.pairwise_ascending (versions : List ArchVersion) :
    (ascending versions).Pairwise fun v w => v.number ≤ w.number := by
  have h : (ascending versions).Pairwise fun v w => decide (v.number ≤ w.number) = true := by
    refine List.pairwise_mergeSort (fun u v w huv hvw => ?_) (fun v w => ?_) versions
    · simp only [decide_eq_true_eq] at huv hvw ⊢
      exact UInt32.le_trans huv hvw
    · simp only [Bool.or_eq_true, decide_eq_true_eq]
      exact UInt32.le_total v.number w.number
  exact h.imp of_decide_eq_true

/-- The supported versions ascend, so none is listed twice. -/
theorem ArchVersion.pairwise_supported : supported.Pairwise fun v w => v.number < w.number := by
  have hne : supported.Pairwise (· ≠ ·) :=
    (List.mergeSort_perm _ _).nodup_iff.mpr Blob.pairwise_isaVersion?
  refine ((pairwise_ascending _).and hne).imp ?_
  rintro v w ⟨hle, hvw⟩
  refine UInt32.lt_of_le_of_ne hle fun hn => hvw ?_
  cases v; cases w
  exact congrArg mk hn

namespace Blob

/-! ### Bundles -/

theorem isSome_find?_commonNames : ∀ n ∈ commonNames, (find? n).isSome := by decide +kernel

theorem isSome_find?_controlName (f : OptionFlag) (isOn : Bool) :
    (find? (controlName f isOn)).isSome := by
  cases f <;> cases isOn <;> decide +kernel

/-- Every library of a bundle is in the table. -/
theorem isSome_find?_bundleNames {v : ArchVersion} (h : v ∈ ArchVersion.supported)
    (flags : OptionFlags) : ∀ n ∈ bundleNames v flags, (find? n).isSome := by
  intro n hn
  simp only [bundleNames, List.mem_append, List.mem_cons, List.mem_map] at hn
  rcases hn with hn | rfl | ⟨f, -, rfl⟩
  · exact isSome_find?_commonNames n hn
  · exact mem_supported_iff.mp h
  · exact isSome_find?_controlName f _

theorem selectDeviceLibraries_of_mem {language : Language} {v : ArchVersion}
    (hl : language.isOpenCL = true) (h : v ∈ ArchVersion.supported) (flags : OptionFlags) :
    selectDeviceLibraries language v flags = .ok ((bundleNames v flags).filterMap find?) := by
  obtain ⟨b, hb, hv⟩ := isaVersionBlob_of_mem h
  have hcontrols : (OptionFlag.all.mapM fun f => require (controlName f (flags.get f))) =
      .ok ((OptionFlag.all.map fun f => controlName f (flags.get f)).filterMap find?) := by
    rw [← mapM_require (by simp [isSome_find?_controlName]), List.mapM_map]
    rfl
  simp only [selectDeviceLibraries, hl, hv, hcontrols, mapM_require isSome_find?_commonNames]
  simp [bundleNames, List.filterMap_append, hb]
  rfl

theorem selectDeviceLibraries_of_not_openCL {language : Language} (hl : language.isOpenCL = false)
    (v : ArchVersion) (flags : OptionFlags) :
    selectDeviceLibraries language v flags = .error (.unsupportedLanguage language) := by
  simp only [selectDeviceLibraries, hl]
  rfl

theorem selectDeviceLibraries_of_not_mem {language : Language} {v : ArchVersion}
    (hl : language.isOpenCL = true) (h : v ∉ ArchVersion.supported) (flags : OptionFlags) :
    selectDeviceLibraries language v flags = .error (.unsupportedArchVersion v) := by
  simp only [selectDeviceLibraries, hl, isaVersionBlob_of_not_mem h]
  rfl

theorem length_bundleNames (v : ArchVersion) (flags : OptionFlags) :
    (bundleNames v flags).length = 8 := rfl

end Blob

end DeviceLibs
