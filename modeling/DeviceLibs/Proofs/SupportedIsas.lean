import DeviceLibs.Command.Basic
import DeviceLibs.Proofs.Selection

/-!
# The ISAs that are listed and those that are accepted

The list of ISA names is made from the names of the libraries, and a request looks its library up under
a name that is made from the ISA name. `supportedIsaNames_iff_accepted` says that the two never part:
a version is on the list exactly if its library is found, and exactly then a request for it succeeds,
however its ISA name is spelt.
-/

namespace DeviceLibs

variable {v w : ArchVersion} {isaName options : String} {language : Language} {s : DataSet}

/-- An ISA name has one version at most. -/
theorem NamesVersion.unique (hv : NamesVersion isaName v) (hw : NamesVersion isaName w) : v = w := by
  obtain ⟨t, ht, htv⟩ := hv
  obtain ⟨u, hu, huw⟩ := hw
  rw [ht] at hu
  cases hu
  rw [htv] at huw
  exact Except.ok.inj huw

theorem hsaIsaName_injective : Function.Injective ArchVersion.hsaIsaName := by
  intro v w h
  exact (namesVersion_hsaIsaName v).unique (h ▸ namesVersion_hsaIsaName w)

theorem mem_supportedIsaNames_iff : v.hsaIsaName ∈ supportedIsaNames ↔ v ∈ ArchVersion.supported :=
  List.mem_map_of_injective hsaIsaName_injective

/-- There is room in a set without a limit as long as there is memory. -/
theorem DataSet.hasRoom_of_grow {n : Nat} (hl : s.limit = none) (hm : s.grow n = .ok ()) :
    s.HasRoom n where
  limit := by simp [hl]
  memory := grow_eq_ok_iff.mp hm

theorem result_eq_ok_iff_of_room (hl : language.isOpenCL = true)
    (hf : ∃ flags, OptionFlags.parse options = .ok flags) (hr : s.HasRoom 8) :
    (Edit.addDeviceLibraries isaName options language s).result = .ok () ↔
      ∃ v, NamesVersion isaName v ∧ v ∈ ArchVersion.supported := by
  rw [result_eq_ok_iff]
  constructor
  · rintro ⟨⟨v, flags, hsel⟩, -⟩
    exact ⟨v, hsel.version, hsel.supported⟩
  · rintro ⟨v, hv, hs⟩
    obtain ⟨flags, hf⟩ := hf
    exact ⟨⟨v, flags, hl, hv, hs, hf⟩, hr⟩

/-- What is listed is what is accepted. A version is listed if its library is found, and not otherwise;
the library is the one whose name is read as that version. A request with options in order, on a set
without a limit that the memory allows to grow, succeeds for the listed versions and for no other,
however its ISA name is spelt. The versions are listed in ascending order, each once. -/
theorem supportedIsaNames_iff_accepted :
    (∀ v, ((∃ b, Blob.isaVersionBlob v = .ok b) ↔ v ∈ ArchVersion.supported) ∧
      (v ∈ ArchVersion.supported ↔ v.hsaIsaName ∈ supportedIsaNames) ∧
      ∀ b, Blob.isaVersionBlob v = .ok b ↔ b ∈ Blob.table ∧ Blob.isaVersion? b = some v) ∧
    (∀ (isaName options : String) (language : Language) (s : DataSet), language.isOpenCL = true →
      (∃ flags, OptionFlags.parse options = .ok flags) → s.limit = none →
      s.grow 8 = .ok () →
      ((Edit.addDeviceLibraries isaName options language s).result = .ok () ↔
        ∃ v, NamesVersion isaName v ∧ v.hsaIsaName ∈ supportedIsaNames)) ∧
    ArchVersion.supported.Pairwise fun v w => v.number < w.number := by
  refine ⟨fun v => ⟨Blob.exists_isaVersionBlob_iff, mem_supportedIsaNames_iff.symm,
    fun b => Blob.isaVersionBlob_eq_ok_iff⟩, fun isaName options language s hl hf hs hm => ?_,
    ArchVersion.pairwise_supported⟩
  rw [result_eq_ok_iff_of_room hl hf (DataSet.hasRoom_of_grow hs hm)]
  simp only [mem_supportedIsaNames_iff]

/-- Version 906 is listed, and accepted with a zero in front of it. -/
theorem accepted_of_supported_906 : "amdgcn-amd-amdhsa--gfx906" ∈ supportedIsaNames ∧
    NamesVersion "amdgcn-x-y-z-gfx0906+xnack" ⟨906⟩ ∧
    (Edit.addDeviceLibraries "amdgcn-x-y-z-gfx0906+xnack" ",daz_opt" .openCL12 .empty).result =
      .ok () := by
  have hlisted : "amdgcn-amd-amdhsa--gfx906" ∈ supportedIsaNames :=
    (supportedIsaNames_iff_accepted.1 ⟨906⟩).2.1.mp (Blob.mem_supported_iff.mpr (by decide +kernel))
  have hv : NamesVersion "amdgcn-x-y-z-gfx0906+xnack" ⟨906⟩ := ⟨_, rfl, rfl⟩
  refine ⟨hlisted, hv, ?_⟩
  exact (supportedIsaNames_iff_accepted.2.1 _ _ .openCL12 .empty rfl ⟨{ dazOpt := true }, rfl⟩ rfl
    rfl).mpr ⟨_, hv, hlisted⟩

end DeviceLibs
