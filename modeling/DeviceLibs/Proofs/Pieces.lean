import Mathlib.Data.List.Basic

/-!
# Texts made of pieces

A text and a separator determine the pieces that the separator keeps apart: `IsJoined` says what they are
without a word on how they are found, and `isJoined_iff` that cutting finds them.
-/

namespace DeviceLibs.Text

variable {sep : Char} {cs piece : List Char} {text : String} {pieces : List String}

/-- The text is the pieces with a separator between each two, and in none of them. -/
structure IsJoined (sep : Char) (text : String) (pieces : List String) : Prop where
  ne_nil : pieces ≠ []
  eq_intercalate : text = (String.singleton sep).intercalate pieces
  not_mem : ∀ piece ∈ pieces, sep ∉ piece.toList

theorem not_mem_of_mem_splitOn (h : piece ∈ cs.splitOn sep) : sep ∉ piece := by
  induction cs generalizing piece with
  | nil =>
    obtain rfl : piece = [] := by simpa using h
    exact List.not_mem_nil
  | cons c cs ih =>
    rw [List.splitOn_cons_eq_if_modifyHead] at h
    by_cases hc : c = sep
    · rw [if_pos (by simpa using hc)] at h
      rcases List.mem_cons.mp h with rfl | h
      · exact List.not_mem_nil
      · exact ih h
    · rw [if_neg (by simpa using hc)] at h
      obtain ⟨first, rest, hsplit⟩ := List.exists_cons_of_ne_nil (List.splitOn_ne_nil sep cs)
      rw [hsplit, List.modifyHead_cons] at h
      rcases List.mem_cons.mp h with rfl | h
      · have hfirst : sep ∉ first := ih (hsplit ▸ List.mem_cons_self)
        intro hmem
        rcases List.mem_cons.mp hmem with heq | hmem
        · exact hc heq.symm
        · exact hfirst hmem
      · exact ih (hsplit ▸ List.mem_cons_of_mem _ h)

/-- What is in front of a text is joined to its first piece. -/
theorem exists_splitOn_append (sep : Char) (front back : List Char) :
    ∃ init last first rest, front.splitOn sep = init ++ [last] ∧ back.splitOn sep = first :: rest ∧
      (front ++ back).splitOn sep = init ++ (last ++ first) :: rest := by
  induction front with
  | nil =>
    obtain ⟨first, rest, hback⟩ := List.exists_cons_of_ne_nil (List.splitOn_ne_nil sep back)
    exact ⟨[], [], first, rest, by simp, hback, by simpa using hback⟩
  | cons c front ih =>
    obtain ⟨init, last, first, rest, hfront, hback, hboth⟩ := ih
    rw [List.cons_append, List.splitOn_cons_eq_if_modifyHead, List.splitOn_cons_eq_if_modifyHead,
      hfront, hboth]
    by_cases hc : c == sep
    · rw [if_pos hc, if_pos hc]
      exact ⟨[] :: init, last, first, rest, rfl, hback, rfl⟩
    · rw [if_neg hc, if_neg hc]
      cases init with
      | nil => exact ⟨[], c :: last, first, rest, rfl, hback, rfl⟩
      | cons piece init => exact ⟨(c :: piece) :: init, last, first, rest, rfl, hback, rfl⟩

theorem toList_intercalate_singleton (sep : Char) (pieces : List String) :
    ((String.singleton sep).intercalate pieces).toList =
      [sep].intercalate (pieces.map String.toList) := by
  rw [String.toList_intercalate, String.toList_singleton]

theorem isJoined_iff : IsJoined sep text pieces ↔ text.toList.splitOn sep = pieces.map String.toList := by
  constructor
  · intro h
    -- without a piece the empty text would have two readings
    have hpieces : pieces.map String.toList ≠ [] := by simpa using h.ne_nil
    rw [h.eq_intercalate, toList_intercalate_singleton]
    refine List.splitOn_intercalate sep (fun cs hcs => ?_) hpieces
    obtain ⟨piece, hpiece, rfl⟩ := List.mem_map.mp hcs
    exact h.not_mem piece hpiece
  · intro h
    refine ⟨?_, ?_, fun piece hpiece => ?_⟩
    · rintro rfl
      exact List.splitOn_ne_nil sep _ h
    · rw [← String.toList_inj, toList_intercalate_singleton, ← h, List.intercalate_splitOn]
    · exact not_mem_of_mem_splitOn (h ▸ List.mem_map_of_mem hpiece)

/-- A separator behind every piece leaves an empty one at the end. -/
theorem isJoined_join (h : ∀ piece ∈ pieces, sep ∉ piece.toList) :
    IsJoined sep (String.join (pieces.map (· ++ String.singleton sep))) (pieces ++ [""]) := by
  refine ⟨List.append_ne_nil_of_right_ne_nil _ (List.cons_ne_nil _ _), ?_, fun piece hpiece => ?_⟩
  · induction pieces with
    | nil => rfl
    | cons first rest ih =>
      obtain ⟨second, rest', hrest⟩ := List.exists_cons_of_ne_nil
        (List.append_ne_nil_of_right_ne_nil rest (List.cons_ne_nil "" []))
      have hjoin := ih fun piece hpiece => h piece (List.mem_cons_of_mem _ hpiece)
      rw [List.map_cons, String.join_cons, hjoin, List.cons_append, hrest,
        String.intercalate_cons_cons, String.append_assoc]
  · rcases List.mem_append.mp hpiece with hpiece | hpiece
    · exact h piece hpiece
    · obtain rfl := List.mem_singleton.mp hpiece
      exact List.not_mem_nil

/-- Every text is made of pieces. -/
theorem exists_isJoined (sep : Char) (text : String) :
    ∃ first rest, IsJoined sep text (first :: rest) := by
  obtain ⟨first, rest, hsplit⟩ :=
    List.exists_cons_of_ne_nil (List.splitOn_ne_nil sep text.toList)
  refine ⟨.ofList first, rest.map .ofList, ?_⟩
  rw [isJoined_iff, hsplit]
  simp [Function.comp_def]

end DeviceLibs.Text
