import DeviceLibs.Target.Identifier
import Mathlib.Data.List.Basic

/-!
# ISA names of versions

The ISA name of a version is read as an identifier with the processor of that version and without
features (`parse_hsaIsaName`).
-/

namespace DeviceLibs.TargetIdentifier

/-- Texts without dashes, and anything behind the fourth dash, are the components. -/
theorem components?_append {arch vendor os environ rest : List Char} (ha : '-' ∉ arch)
    (hv : '-' ∉ vendor) (ho : '-' ∉ os) (he : '-' ∉ environ) :
    components? (arch ++ '-' :: (vendor ++ '-' :: (os ++ '-' :: (environ ++ '-' :: rest)))) =
      some (arch, vendor, os, environ, rest) := by
  simp [components?, Text.cut_append, ha, hv, ho, he]

/-- Without a plus sign there are no features. -/
theorem processorAndFeatures_of_not_mem {cs : List Char} (h : '+' ∉ cs) :
    processorAndFeatures cs = (cs, []) := by
  rw [processorAndFeatures, List.splitOn_eq_singleton h]
  rfl

theorem plus_not_mem_processorName (v : ArchVersion) : '+' ∉ v.processorName.toList := by
  rw [ArchVersion.toList_processorName]
  intro h
  have hd : '+' ∈ Nat.toDigits 10 v.number.toNat := by simpa using h
  exact absurd (Nat.isDigit_of_mem_toDigits (by decide) (by decide) hd) (by decide)

theorem toList_hsaIsaName (v : ArchVersion) : v.hsaIsaName.toList =
    amdgcn.toList ++ '-' :: ("amd".toList ++ '-' :: ("amdhsa".toList ++ '-' ::
      ([] ++ '-' :: v.processorName.toList))) := by
  unfold ArchVersion.hsaIsaName
  rw [String.toList_append]
  rfl

/-- What is read off a name whose components are all there. -/
theorem parse_of_components {isaName : String} {vendor os environ cs processor : List Char}
    {features : List (List Char)}
    (hc : components? isaName.toList = some (amdgcn.toList, vendor, os, environ, cs))
    (hp : processorAndFeatures cs = (processor, features)) (hne : processor ≠ []) :
    parse isaName = .ok ⟨amdgcn, .ofList vendor, .ofList os, .ofList environ, .ofList processor,
      features.map .ofList⟩ := by
  unfold parse
  rw [hc]
  dsimp only
  rw [if_neg (by simp), hp]
  dsimp only
  rw [if_neg hne, String.ofList_toList]

theorem parse_hsaIsaName (v : ArchVersion) : parse v.hsaIsaName =
    .ok ⟨amdgcn, "amd", "amdhsa", "", v.processorName, []⟩ := by
  have hc : components? v.hsaIsaName.toList =
      some (amdgcn.toList, "amd".toList, "amdhsa".toList, [], v.processorName.toList) := by
    rw [toList_hsaIsaName]
    exact components?_append (by decide) (by decide) (by decide) (by simp)
  have hp := processorAndFeatures_of_not_mem (plus_not_mem_processorName v)
  have hne : v.processorName.toList ≠ [] := by simp [ArchVersion.toList_processorName]
  rw [parse_of_components hc hp hne, String.ofList_toList, String.ofList_toList,
    String.ofList_toList]
  rfl

theorem archVersion_mk_processorName (arch vendor os environ : String) (v : ArchVersion)
    (features : List String) :
    archVersion ⟨arch, vendor, os, environ, v.processorName, features⟩ = .ok v :=
  ArchVersion.ofProcessor_processorName v

end DeviceLibs.TargetIdentifier
