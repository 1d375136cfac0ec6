import DeviceLibs.Proofs.NormalForm

/-!
# The grammar of ISA names

An ISA name is five components with dashes between them, and the fifth is a processor with the pieces
behind its plus signs. `ReadsAs` says of every text what it is read as: an identifier, or the error that
comes first. `parse_iff_readsAs` is the agreement of `parse` with it, in both directions.
-/

namespace DeviceLibs.TargetIdentifier

open Text (IsJoined)

variable {isaName arch vendor os environ back processor : String} {pieces : List String}
  {r : Except TargetError TargetIdentifier} {cs : List Char}

/-- The texts before, between and behind the first four dashes. -/
structure IsCut (isaName arch vendor os environ back : String) : Prop where
  eq_intercalate : isaName = "-".intercalate [arch, vendor, os, environ, back]
  not_mem : ∀ component ∈ [arch, vendor, os, environ], '-' ∉ component.toList

/-- What a text is read as. -/
inductive ReadsAs (isaName : String) : Except TargetError TargetIdentifier → Prop where
  | fewComponents (h : isaName.toList.count '-' < 4) :
    ReadsAs isaName (.error (.malformedIdentifier isaName
      (.componentCount (1 + isaName.toList.count '-'))))
  | foreignArch {arch vendor os environ back : String}
    (hcut : IsCut isaName arch vendor os environ back) (harch : arch ≠ "amdgcn") :
    ReadsAs isaName (.error (.unsupportedArch arch))
  | noProcessor {vendor os environ back : String}
    (hcut : IsCut isaName "amdgcn" vendor os environ back)
    (hback : back = "" ∨ back.toList.head? = some '+') :
    ReadsAs isaName (.error (.malformedIdentifier isaName .emptyProcessor))
  | identifier {vendor os environ back processor : String} {pieces : List String}
    (hcut : IsCut isaName "amdgcn" vendor os environ back)
    (hback : IsJoined '+' back (processor :: pieces)) (hprocessor : processor ≠ "") :
    ReadsAs isaName (.ok {
      arch := "amdgcn", vendor, os, environ, processor, features := pieces.filter (· ≠ "") })

/-! ### The components -/

theorem isCut_iff : IsCut isaName arch vendor os environ back ↔ components? isaName.toList =
    some (arch.toList, vendor.toList, os.toList, environ.toList, back.toList) := by
  have hdash : "-".toList = ['-'] := rfl
  rw [components?_eq_some_iff]
  constructor
  · rintro ⟨rfl, hnot⟩
    refine ⟨?_, hnot _ (by simp), hnot _ (by simp), hnot _ (by simp), hnot _ (by simp)⟩
    rw [String.toList_intercalate, hdash]
    simp [List.intercalate]
  · rintro ⟨htext, ha, hv, ho, he⟩
    refine ⟨?_, by simp [ha, hv, ho, he]⟩
    rw [← String.toList_inj, htext, String.toList_intercalate, hdash]
    simp [List.intercalate]

/-- The first of some dashes leaves the others behind it. -/
theorem exists_cut_of_le_count {n : Nat} (h : n + 1 ≤ cs.count '-') :
    ∃ a b, Text.cut '-' cs = some (a, b) ∧ n ≤ b.count '-' := by
  cases hcut : Text.cut '-' cs with
  | none =>
    have hcount := List.count_eq_zero.mpr (Text.cut_eq_none_iff.mp hcut)
    omega
  | some p =>
    obtain ⟨rfl, ha⟩ := Text.cut_eq_some_iff.mp (show _ = some (p.1, p.2) from hcut)
    have hcount := List.count_eq_zero.mpr ha
    rw [List.count_append, List.count_cons_self, hcount] at h
    exact ⟨p.1, p.2, rfl, by omega⟩

theorem components?_eq_none_iff : components? cs = none ↔ cs.count '-' < 4 := by
  constructor
  · intro h
    by_contra hcount
    obtain ⟨arch, _, harch, hcount⟩ := exists_cut_of_le_count (Nat.not_lt.mp hcount)
    obtain ⟨vendor, _, hvendor, hcount⟩ := exists_cut_of_le_count hcount
    obtain ⟨os, _, hos, hcount⟩ := exists_cut_of_le_count hcount
    obtain ⟨environ, back, henviron, -⟩ := exists_cut_of_le_count hcount
    simp [components?, harch, hvendor, hos, henviron] at h
  · intro h
    rw [Option.eq_none_iff_forall_ne_some]
    rintro ⟨arch, vendor, os, environ, back⟩ hsome
    obtain ⟨rfl, -⟩ := components?_eq_some_iff.mp hsome
    simp only [List.count_append, List.count_cons_self] at h
    omega

/-- A text has few dashes, or is cut at the first four. -/
theorem count_lt_or_isCut (isaName : String) : isaName.toList.count '-' < 4 ∨
    ∃ arch vendor os environ back, IsCut isaName arch vendor os environ back := by
  cases h : components? isaName.toList with
  | none => exact .inl (components?_eq_none_iff.mp h)
  | some parts =>
    obtain ⟨arch, vendor, os, environ, back⟩ := parts
    refine .inr ⟨.ofList arch, .ofList vendor, .ofList os, .ofList environ, .ofList back, ?_⟩
    rw [isCut_iff, h]
    simp

/-! ### The processor and the features -/

theorem head?_of_isJoined (h : IsJoined '+' back (processor :: pieces)) :
    back = "" ∨ back.toList.head? = some '+' ↔ processor = "" := by
  have hback : back.toList = processor.toList ++ (pieces.map String.toList).flatMap ('+' :: ·) := by
    rw [h.eq_intercalate, Text.toList_intercalate_singleton, List.map_cons, Text.intercalate_cons]
  have hplus : '+' ∉ processor.toList := h.not_mem _ List.mem_cons_self
  rw [← String.toList_eq_nil_iff, ← String.toList_eq_nil_iff, hback]
  cases hchars : processor.toList with
  | nil => cases pieces <;> simp
  | cons c cs =>
    have hc : c ≠ '+' := by
      rintro rfl
      exact hplus (by simp [hchars])
    simp [hc]

theorem processorAndFeatures_of_isJoined (h : IsJoined '+' back (processor :: pieces)) :
    processorAndFeatures back.toList =
      (processor.toList, (pieces.filter (· ≠ "")).map String.toList) := by
  rw [processorAndFeatures, Text.isJoined_iff.mp h, List.map_cons]
  dsimp only
  rw [List.filter_map]
  simp [Function.comp_def]

/-! ### Agreement -/

theorem ReadsAs.parse_eq (h : ReadsAs isaName r) : parse isaName = r := by
  cases h with
  | fewComponents h =>
    rw [parse, components?_eq_none_iff.mpr h, Nat.add_comm]
  | foreignArch hcut harch =>
    have hne : ¬ _ = amdgcn.toList := fun h => harch (String.toList_inj.mp h)
    rw [parse, isCut_iff.mp hcut]
    dsimp only
    rw [if_pos hne, String.ofList_toList]
  | @noProcessor _ _ _ back hcut hback =>
    obtain ⟨processor, pieces, hjoined⟩ := Text.exists_isJoined '+' back
    obtain rfl := (head?_of_isJoined hjoined).mp hback
    have harch : ¬ "amdgcn".toList ≠ amdgcn.toList := not_not.mpr rfl
    rw [parse, isCut_iff.mp hcut]
    dsimp only
    rw [if_neg harch, processorAndFeatures_of_isJoined hjoined]
    rfl
  | identifier hcut hback hprocessor =>
    have hne := mt String.toList_eq_nil_iff.mp hprocessor
    rw [parse_of_components (isCut_iff.mp hcut) (processorAndFeatures_of_isJoined hback) hne]
    simp [Function.comp_def, amdgcn]

theorem exists_readsAs (isaName : String) : ∃ r, ReadsAs isaName r := by
  rcases count_lt_or_isCut isaName with h | ⟨arch, vendor, os, environ, back, hcut⟩
  · exact ⟨_, .fewComponents h⟩
  by_cases harch : arch = "amdgcn"
  · subst harch
    obtain ⟨processor, pieces, hjoined⟩ := Text.exists_isJoined '+' back
    by_cases hprocessor : processor = ""
    · exact ⟨_, .noProcessor hcut ((head?_of_isJoined hjoined).mpr hprocessor)⟩
    · exact ⟨_, .identifier hcut hjoined hprocessor⟩
  · exact ⟨_, .foreignArch hcut harch⟩

/-- Every text is read as the grammar says, and as nothing else. What an identifier has for features are
the pieces behind its processor that are not empty, and no others. -/
theorem parse_iff_readsAs :
    (∀ isaName r, parse isaName = r ↔ ReadsAs isaName r) ∧
    ∀ isaName t, parse isaName = .ok t → ∃ back pieces,
      IsCut isaName t.arch t.vendor t.os t.environ back ∧
      IsJoined '+' back (t.processor :: pieces) ∧
      ∀ feature, t.hasFeature feature = true ↔ feature ≠ "" ∧ feature ∈ pieces := by
  have hiff : ∀ isaName r, parse isaName = r ↔ ReadsAs isaName r := by
    refine fun isaName r => ⟨fun h => ?_, ReadsAs.parse_eq⟩
    obtain ⟨r', hr'⟩ := exists_readsAs isaName
    rwa [← h, hr'.parse_eq]
  refine ⟨hiff, fun isaName t h => ?_⟩
  cases (hiff isaName _).mp h with
  | identifier hcut hback hprocessor =>
    refine ⟨_, _, hcut, hback, fun feature => ?_⟩
    simp [hasFeature, and_comm]

/-- Empty components, a sign in one of them, dashes behind the fourth and a piece that is empty. -/
theorem parse_iff_readsAs_of_odd_signs :
    ReadsAs "amdgcn-amd-gfx906" (.error (.malformedIdentifier "amdgcn-amd-gfx906" (.componentCount 3))) ∧
    ReadsAs "amdgcn---+-gfx-9++sram-ecc+xnack"
      (.ok ⟨"amdgcn", "", "", "+", "gfx-9", ["sram-ecc", "xnack"]⟩) ∧
    ∃ t, parse "amdgcn---+-gfx-9++sram-ecc+xnack" = .ok t ∧ ∃ back pieces,
      IsCut "amdgcn---+-gfx-9++sram-ecc+xnack" t.arch t.vendor t.os t.environ back ∧
      IsJoined '+' back (t.processor :: pieces) ∧
      ∀ feature, t.hasFeature feature = true ↔ feature ≠ "" ∧ feature ∈ pieces := by
  refine ⟨(parse_iff_readsAs.1 _ _).mp rfl, (parse_iff_readsAs.1 _ _).mp rfl, _, rfl, ?_⟩
  exact parse_iff_readsAs.2 _ _ rfl

end DeviceLibs.TargetIdentifier
