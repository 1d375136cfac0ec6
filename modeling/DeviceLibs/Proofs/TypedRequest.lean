import DeviceLibs.Proofs.Selection

/-!
# Requests by value and by text

A choice of libraries is made for a version and a set of flags, a request gives both as texts. The texts
that are written for a version and for flags lead back to them (`selects_of_names`), so such a request
comes to what the choice comes to, or is refused for the same reason
(`addDeviceLibraries_eq_select`).
-/

namespace DeviceLibs

theorem selects_of_names {language : Language} {v : ArchVersion} (hl : language.isOpenCL = true)
    (hv : v ∈ ArchVersion.supported) (flags : OptionFlags) :
    Selects v.hsaIsaName flags.options language v flags :=
  ⟨hl, namesVersion_hsaIsaName v, hv, OptionFlags.parse_options flags⟩

/-- What a request makes of an empty set that it has memory in is the choice that it names. -/
theorem setAndResult_of_select {memory : Nat} (hmemory : ({ memory } : DataSet).Grants 8)
    (language : Language) (v : ArchVersion) (flags : OptionFlags) :
    (Edit.addDeviceLibraries v.hsaIsaName flags.options language { memory }).setAndResult =
      match Blob.selectDeviceLibraries language v flags with
      | .ok bundle => ({ objects := bundle.map (Blob.toObject .bc), memory }, .ok ())
      | .error e => ({ memory }, .error e) := by
  cases hl : language.isOpenCL with
  | false =>
    rw [Blob.selectDeviceLibraries_of_not_openCL hl, Refuses.add_eq (.language hl)]
    rfl
  | true =>
    by_cases hv : v ∈ ArchVersion.supported
    · have hroom : ({ memory } : DataSet).HasRoom 8 :=
        (DataSet.hasRoom_iff_of_grants hmemory (Nat.le_refl 8)).mpr nofun
      obtain ⟨hresult, hset⟩ := (selects_of_names hl hv flags).add_of_hasRoom hroom
      rw [Blob.selectDeviceLibraries_of_mem hl hv, Edited.setAndResult, hresult, hset]
      rfl
    · rw [Blob.selectDeviceLibraries_of_not_mem hl hv,
        Refuses.add_eq (.version hl (namesVersion_hsaIsaName v) hv)]
      rfl

theorem select_eq_error {language : Language} {v : ArchVersion} {flags : OptionFlags}
    {e : SelectionError} (h : Blob.selectDeviceLibraries language v flags = .error e) :
    e = if language.isOpenCL then .unsupportedArchVersion v else .unsupportedLanguage language := by
  cases hl : language.isOpenCL with
  | false =>
    rw [Blob.selectDeviceLibraries_of_not_openCL hl] at h
    cases h
    rfl
  | true =>
    by_cases hv : v ∈ ArchVersion.supported
    · rw [Blob.selectDeviceLibraries_of_mem hl hv] at h
      cases h
    · rw [Blob.selectDeviceLibraries_of_not_mem hl hv] at h
      cases h
      rfl

theorem sum_size_map_toObject (kind : DataKind) (blobs : List Blob) :
    ((blobs.map (Blob.toObject kind)).map DataObject.size).sum = Blob.totalSize blobs := by
  induction blobs with
  | nil => rfl
  | cons b blobs ih =>
    rw [List.map_cons, List.map_cons, List.sum_cons, ih]
    rfl

/-- For every version and all flags, the request in their names does on a new set, which has memory for
eight objects, what the choice says: it adds the libraries that are chosen, with their names, bytes and
sizes, or it fails as the choice does, for the language first and else for the version. -/
theorem addDeviceLibraries_eq_select {memory : Nat} (hmemory : ({ memory } : DataSet).Grants 8)
    (language : Language) (v : ArchVersion) (flags : OptionFlags) :
    ((∃ bundle, Blob.selectDeviceLibraries language v flags = .ok bundle) ↔
      (Edit.addDeviceLibraries v.hsaIsaName flags.options language { memory }).result = .ok ()) ∧
    (∀ bundle, Blob.selectDeviceLibraries language v flags = .ok bundle → ∃ added,
      (Edit.addDeviceLibraries v.hsaIsaName flags.options language { memory }).set =
        { objects := added, memory } ∧
      added.map DataObject.name = bundle.map Blob.name ∧
      added.map DataObject.data = bundle.map Blob.bytes ∧
      (∀ o ∈ added, o.kind = .bc) ∧
      (added.map DataObject.size).sum = Blob.totalSize bundle) ∧
    (∀ e, Blob.selectDeviceLibraries language v flags = .error e ↔
      (Edit.addDeviceLibraries v.hsaIsaName flags.options language { memory }).result = .error e) ∧
    ∀ e, Blob.selectDeviceLibraries language v flags = .error e →
      (Edit.addDeviceLibraries v.hsaIsaName flags.options language { memory }).set = { memory } ∧
      e = if language.isOpenCL then .unsupportedArchVersion v else .unsupportedLanguage language := by
  have hadd := setAndResult_of_select hmemory language v flags
  cases h : Blob.selectDeviceLibraries language v flags with
  | error e =>
    rw [h] at hadd
    obtain ⟨hset, hresult⟩ := Prod.mk.inj hadd
    rw [hset, hresult]
    simp [select_eq_error h]
  | ok bundle =>
    rw [h] at hadd
    obtain ⟨hset, hresult⟩ := Prod.mk.inj hadd
    rw [hset, hresult]
    refine ⟨by simp, ?_, by simp, by simp⟩
    rintro _ ⟨⟩
    refine ⟨_, rfl, List.map_map, List.map_map, ?_, sum_size_map_toObject .bc bundle⟩
    intro o ho
    obtain ⟨b, -, rfl⟩ := List.mem_map.mp ho
    rfl

/-- Memory for eight objects is enough, for version 803 and all flags. -/
theorem addDeviceLibraries_eq_select_of_803 :
    ({ memory := 8 * DataSet.objectBytes } : DataSet).Grants 8 ∧
    ∀ flags : OptionFlags, (Edit.addDeviceLibraries (ArchVersion.mk 803).hsaIsaName flags.options
      .openCL12 { memory := 8 * DataSet.objectBytes }).result = .ok () := by
  have hmemory : ({ memory := 8 * DataSet.objectBytes } : DataSet).Grants 8 :=
    DataSet.grants_of_le (by decide +kernel)
  have hsupported : (⟨803⟩ : ArchVersion) ∈ ArchVersion.supported :=
    Blob.mem_supported_iff.mpr (by decide +kernel)
  have hl : Language.openCL12.isOpenCL = true := rfl
  refine ⟨hmemory, fun flags => ?_⟩
  exact (addDeviceLibraries_eq_select hmemory .openCL12 ⟨803⟩ flags).1.mp
    ⟨_, Blob.selectDeviceLibraries_of_mem hl hsupported flags⟩

end DeviceLibs
