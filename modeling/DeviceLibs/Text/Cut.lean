/-!
# Cutting a text at a separator

`cut sep cs` is the part of `cs` before the first `sep` and the part after it.

* `cut_eq_none_iff`: there is nothing to cut exactly when `sep` does not occur.
* `cut_eq_some_iff`: the two parts, joined by `sep`, are the text, and `sep` is not in the first.
* `intercalate_cons`: in joined texts each but the first has a separator before it.
-/

namespace DeviceLibs.Text

def cut (sep : Char) : List Char → Option (List Char × List Char)
  | [] => none
  | c :: cs => if c = sep then some ([], cs) else (cut sep cs).map fun p => (c :: p.1, p.2)

variable {sep : Char} {cs a b : List Char}

theorem cut_eq_none_iff : cut sep cs = none ↔ sep ∉ cs := by
  induction cs with
  | nil => simp [cut]
  | cons c cs ih =>
    by_cases h : c = sep
    · simp [cut, h]
    · simp [cut, h, ih, Ne.symm h]

theorem cut_append (h : sep ∉ a) : cut sep (a ++ sep :: b) = some (a, b) := by
  induction a with
  | nil => simp [cut]
  | cons c a ih =>
    simp only [List.mem_cons, not_or] at h
    simp [cut, Ne.symm h.1, ih h.2]

theorem cut_eq_some_iff : cut sep cs = some (a, b) ↔ cs = a ++ sep :: b ∧ sep ∉ a := by
  constructor
  · intro h
    induction cs generalizing a with
    | nil => simp [cut] at h
    | cons c cs ih =>
      by_cases hc : c = sep
      · simp only [cut, hc, if_true, Option.some.injEq, Prod.mk.injEq] at h
        obtain ⟨rfl, rfl⟩ := h
        simp [hc]
      · simp only [cut, hc, if_false, Option.map_eq_some_iff, Prod.mk.injEq] at h
        obtain ⟨⟨a', b'⟩, h, rfl, rfl⟩ := h
        obtain ⟨rfl, hn⟩ := ih h
        exact ⟨rfl, by simp [hn, Ne.symm hc]⟩
  · rintro ⟨rfl, h⟩
    exact cut_append h

/-- The first text has nothing before it, the others a separator each. -/
theorem intercalate_cons (sep : Char) (first : List Char) (others : List (List Char)) :
    [sep].intercalate (first :: others) = first ++ others.flatMap (sep :: ·) := by
  induction others generalizing first with
  | nil => simp
  | cons next others ih =>
    rw [List.intercalate_cons_cons, ih, List.flatMap_cons]
    simp

end DeviceLibs.Text
