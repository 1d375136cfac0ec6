import DeviceLibs.Proofs.IsaName
import DeviceLibs.Proofs.Pieces

/-!
# Normal forms of ISA names

An ISA name that is read and written again comes back without its empty segments, those between two
plus signs or behind the last one; all else is kept, and nothing changes any more after that. An
identifier is read back from its own name exactly if it could have been read at all (`IsPlain`): no part
of it holds a sign that would end it.

* `exists_back_of_parse`: what was read, as parts of the text.
* `parse_name`: plain identifiers are read back.
-/

namespace DeviceLibs

namespace TargetIdentifier

variable {t u : TargetIdentifier} {isaName : String} {back : List Char}

/-- No part of the identifier holds a sign that would end it in an ISA name. -/
structure IsPlain (t : TargetIdentifier) : Prop where
  arch : t.arch = amdgcn
  vendor : '-' ∉ t.vendor.toList
  os : '-' ∉ t.os.toList
  environ : '-' ∉ t.environ.toList
  processor : t.processor ≠ "" ∧ '+' ∉ t.processor.toList
  features : ∀ f ∈ t.features, f ≠ "" ∧ '+' ∉ f.toList

/-- `front` ends with the fourth dash of the text, and `back` is all that follows. -/
structure EndsInFourthDash (text : String) (front back : List Char) : Prop where
  append : text.toList = front ++ back
  count : front.count '-' = 4
  last : front.getLast? = some '-'

/-- The processor and the features. -/
def segments (t : TargetIdentifier) : List (List Char) :=
  t.processor.toList :: t.features.map String.toList

/-- What stands before the processor. -/
def front (t : TargetIdentifier) : List Char :=
  t.arch.toList ++ '-' :: (t.vendor.toList ++ '-' :: (t.os.toList ++ '-' :: t.environ.toList)) ++ ['-']

theorem toList_join_features (features : List String) :
    (String.join (features.map ("+" ++ ·))).toList =
      (features.map String.toList).flatMap ('+' :: ·) := by
  rw [String.toList_join, List.flatMap_map, List.flatMap_map]
  exact List.flatMap_congr fun f _ => String.toList_append

theorem toList_name (t : TargetIdentifier) :
    t.name.toList = t.front ++ ['+'].intercalate t.segments := by
  rw [segments, Text.intercalate_cons, ← toList_join_features, name, front]
  simp only [String.toList_append, List.append_assoc, List.cons_append]
  rfl

/-! ### What is read -/

theorem components?_eq_some_iff {cs arch vendor os environ : List Char} :
    components? cs = some (arch, vendor, os, environ, back) ↔
      cs = arch ++ '-' :: (vendor ++ '-' :: (os ++ '-' :: (environ ++ '-' :: back))) ∧
        '-' ∉ arch ∧ '-' ∉ vendor ∧ '-' ∉ os ∧ '-' ∉ environ := by
  constructor
  · intro h
    simp only [components?, Option.bind_eq_bind, Option.bind_eq_some_iff, Prod.exists,
      Text.cut_eq_some_iff] at h
    obtain ⟨_, _, ⟨rfl, ha⟩, _, _, ⟨rfl, hv⟩, _, _, ⟨rfl, ho⟩, _, _, ⟨rfl, he⟩, h⟩ := h
    cases h
    exact ⟨rfl, ha, hv, ho, he⟩
  · rintro ⟨rfl, ha, hv, ho, he⟩
    exact components?_append ha hv ho he

theorem endsInFourthDash_front (h : t.IsPlain) (htext : isaName.toList = t.front ++ back) :
    EndsInFourthDash isaName t.front back where
  append := htext
  count := by
    have harch : t.arch.toList.count '-' = 0 := by
      rw [h.arch]
      decide
    simp [front, harch, List.count_eq_zero.mpr h.vendor, List.count_eq_zero.mpr h.os,
      List.count_eq_zero.mpr h.environ]
  last := List.getLast?_concat

/-- What was read are parts of the text: all up to the fourth dash, then the segments that are not
empty, the first of which is the processor. -/
theorem exists_back_of_parse (h : parse isaName = .ok t) :
    t.IsPlain ∧ ∃ back, isaName.toList = t.front ++ back ∧
      (back.splitOn '+').filter (· ≠ []) = t.segments := by
  unfold parse at h
  split at h
  next => cases h
  next arch vendor os environ back hcomponents =>
    obtain ⟨htext, -, hv, ho, he⟩ := components?_eq_some_iff.mp hcomponents
    obtain ⟨processor, features, hsplit⟩ :=
      List.exists_cons_of_ne_nil (List.splitOn_ne_nil '+' back)
    have hplus : ∀ segment ∈ processor :: features, '+' ∉ segment := fun segment hs =>
      Text.not_mem_of_mem_splitOn (hsplit ▸ hs)
    simp only [processorAndFeatures, hsplit] at h
    split_ifs at h with harch hprocessor
    obtain rfl : arch = amdgcn.toList := by simpa using harch
    cases h
    refine ⟨?_, back, ?_, ?_⟩
    · constructor
      case arch => exact String.ofList_toList
      case processor => simpa [hprocessor] using hplus processor List.mem_cons_self
      case features =>
        intro f hf
        obtain ⟨segment, hs, rfl⟩ := List.mem_map.mp hf
        obtain ⟨hs, hne⟩ := List.mem_filter.mp hs
        simpa [of_decide_eq_true hne] using hplus segment (List.mem_cons_of_mem _ hs)
      all_goals simpa
    · simpa [front] using htext
    · rw [hsplit, List.filter_cons_of_pos (by simpa using hprocessor)]
      simp [segments, Function.comp_def]

/-! ### What is read back -/

/-- The segments of a plain identifier are those of its name. -/
theorem splitOn_segments (h : t.IsPlain) :
    (['+'].intercalate t.segments).splitOn '+' = t.segments := by
  refine List.splitOn_intercalate '+' (fun segment hs => ?_) (List.cons_ne_nil _ _)
  rcases List.mem_cons.mp hs with rfl | hs
  · exact h.processor.2
  · obtain ⟨f, hf, rfl⟩ := List.mem_map.mp hs
    exact (h.features f hf).2

theorem processorAndFeatures_segments (h : t.IsPlain) :
    processorAndFeatures (['+'].intercalate t.segments) =
      (t.processor.toList, t.features.map String.toList) := by
  have hfeatures : (t.features.map String.toList).filter (· ≠ []) = t.features.map String.toList := by
    refine List.filter_eq_self.mpr fun segment hs => ?_
    obtain ⟨f, hf, rfl⟩ := List.mem_map.mp hs
    simpa using (h.features f hf).1
  rw [processorAndFeatures, splitOn_segments h, segments]
  dsimp only
  rw [hfeatures]

theorem parse_name (h : t.IsPlain) : parse t.name = .ok t := by
  have hcomponents : components? t.name.toList = some (amdgcn.toList, t.vendor.toList, t.os.toList,
      t.environ.toList, ['+'].intercalate t.segments) := by
    have harch : '-' ∉ amdgcn.toList := by decide
    rw [components?_eq_some_iff, toList_name, front, h.arch]
    exact ⟨by simp, harch, h.vendor, h.os, h.environ⟩
  have hprocessor : t.processor.toList ≠ [] := by simpa using h.processor.1
  rw [parse_of_components hcomponents (processorAndFeatures_segments h) hprocessor, ← h.arch]
  simp [Function.comp_def]

theorem parse_name_iff : parse t.name = .ok t ↔ t.IsPlain :=
  ⟨fun h => (exists_back_of_parse h).1, parse_name⟩

/-! ### The normal form -/

/-- A text is written again as it is exactly if none of its segments is empty. -/
theorem intercalate_filter_eq_iff (hne : (back.splitOn '+').filter (· ≠ []) ≠ []) :
    ['+'].intercalate ((back.splitOn '+').filter (· ≠ [])) = back ↔ [] ∉ back.splitOn '+' := by
  constructor
  · intro h hmem
    have hplus : ∀ segment ∈ (back.splitOn '+').filter (· ≠ []), '+' ∉ segment := fun segment hs =>
      Text.not_mem_of_mem_splitOn (List.mem_filter.mp hs).1
    have hsplit := List.splitOn_intercalate '+' hplus hne
    rw [h] at hsplit
    rw [hsplit] at hmem
    simpa using (List.mem_filter.mp hmem).2
  · intro h
    rw [List.filter_eq_self.mpr, List.intercalate_splitOn]
    intro segment hs
    simpa using ne_of_mem_of_not_mem hs h

/-- The name of what was read is the text without its empty segments. -/
theorem exists_front_of_parse (h : parse isaName = .ok t) :
    ∃ front back, EndsInFourthDash isaName front back ∧
      t.name = .ofList (front ++ ['+'].intercalate ((back.splitOn '+').filter (· ≠ []))) ∧
      (t.name = isaName ↔ [] ∉ back.splitOn '+') := by
  obtain ⟨hplain, back, htext, hsegments⟩ := exists_back_of_parse h
  have hname : t.name.toList =
      t.front ++ ['+'].intercalate ((back.splitOn '+').filter (· ≠ [])) := by
    rw [hsegments, toList_name]
  have hne : (back.splitOn '+').filter (· ≠ []) ≠ [] := by
    rw [hsegments]
    exact List.cons_ne_nil _ _
  refine ⟨t.front, back, endsInFourthDash_front hplain htext, ?_, ?_⟩
  · rw [← hname, String.ofList_toList]
  · rw [← intercalate_filter_eq_iff hne, ← String.toList_inj, hname, htext,
      List.append_cancel_left_eq]

/-- An ISA name that is read is written again without the empty segments behind its fourth dash, and
so as it was if it has none; reading and writing once more changes nothing. The identifiers that are
read back from their names are the plain ones, and no two of these have one name. -/
theorem parse_normalForm :
    (∀ isaName t, parse isaName = .ok t →
      (∃ front back, EndsInFourthDash isaName front back ∧
        t.name = .ofList (front ++ ['+'].intercalate ((back.splitOn '+').filter (· ≠ []))) ∧
        (t.name = isaName ↔ [] ∉ back.splitOn '+')) ∧
      parse t.name = .ok t) ∧
    (∀ isaName written, (parse isaName).map name = .ok written →
      (parse written).map name = .ok written) ∧
    (∀ t : TargetIdentifier, parse t.name = .ok t ↔ t.IsPlain) ∧
    ∀ t u : TargetIdentifier, t.IsPlain → u.IsPlain → t.name = u.name → t = u := by
  have hread : ∀ isaName t, parse isaName = .ok t → parse t.name = .ok t := fun isaName t h =>
    parse_name (exists_back_of_parse h).1
  refine ⟨fun isaName t h => ⟨exists_front_of_parse h, hread isaName t h⟩, ?_,
    fun t => parse_name_iff, ?_⟩
  · intro isaName written h
    cases ht : parse isaName with
    | error e =>
      rw [ht] at h
      cases h
    | ok t =>
      rw [ht] at h
      cases h
      rw [hread isaName t ht]
      rfl
  · intro t u ht hu hname
    have hparse := parse_name ht
    rw [hname, parse_name hu] at hparse
    exact (Except.ok.inj hparse).symm

/-- A plus sign in the environment, a dash in the processor, two empty segments. -/
theorem parse_normalForm_of_empty_segments :
    (parse "amdgcn---e+-gfx900-x++xnack+").map name = .ok "amdgcn---e+-gfx900-x+xnack" ∧
    (parse "amdgcn---e+-gfx900-x+xnack").map name = .ok "amdgcn---e+-gfx900-x+xnack" ∧
    ∃ t, parse "amdgcn---e+-gfx900-x++xnack+" = .ok t ∧ parse t.name = .ok t ∧ t.IsPlain := by
  have hname : (parse "amdgcn---e+-gfx900-x++xnack+").map name =
      .ok "amdgcn---e+-gfx900-x+xnack" := rfl
  have hread := (parse_normalForm.1 "amdgcn---e+-gfx900-x++xnack+" _ rfl).2
  exact ⟨hname, parse_normalForm.2.1 _ _ hname, _, rfl, hread, (parse_normalForm.2.2.1 _).mp hread⟩

end TargetIdentifier

end DeviceLibs
