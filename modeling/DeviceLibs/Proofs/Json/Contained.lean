import DeviceLibs.Proofs.Json.Spelling
import DeviceLibs.Trace
import Mathlib.Data.List.DropRight

/-!
# Values that end on their own

A string ends in its quote, a list in its bracket, a word in its last letter: what follows has no say in
what is read (`Decoder.Contained`), as it would have for a number. So a text that is decoded is a spelling,
whatever it is like (`Decoder.Contained.spells`), and can stand in a list or a record.
-/

namespace DeviceLibs.Json

variable {α : Type} {cs rest word : List Char}

/-- Blanks in front of a value do not count, and where it ends does not depend on what follows. -/
structure Decoder.Contained (d : Decoder α) : Prop where
  blanks : ∀ cs, d.read (skipBlanks cs) = d.read cs
  read : ∀ {cs a rest}, d.read cs = .ok (a, rest) → ∃ c cs', skipBlanks cs = c :: cs' ∧ c ≠ ']' ∧
    ∀ more, d.read (c :: (cs' ++ more)) = .ok (a, rest ++ more)

namespace Decoder.Contained

variable {d : Decoder α} {a : α}

theorem more (h : d.Contained) (hread : d.read cs = .ok (a, rest)) (more : List Char) :
    d.read (cs ++ more) = .ok (a, rest ++ more) := by
  obtain ⟨c, cs', hcs, -, hmore⟩ := h.read hread
  rw [← h.blanks, skipBlanks_append_of_cons hcs, hmore]

/-- A text that is decoded is a spelling. -/
theorem spells {text : List Char} (h : d.Contained) (hdecode : decode d (.ofList text) = .ok a) :
    Spells d text a := by
  obtain ⟨⟨a', rest⟩, hread, hend⟩ := Traced.exists_of_bind hdecode
  rw [String.toList_ofList] at hread
  dsimp only at hend
  split_ifs at hend with hblank
  obtain rfl := Except.ok.inj hend
  obtain ⟨c, cs', hcs, hc, -⟩ := h.read hread
  refine ⟨fun b rest' hb _ => ⟨rest ++ rest', ?_, ?_⟩, c, cs', hcs, hc⟩
  · rw [← h.blanks, skipBlanks_append hb, h.blanks, h.more hread]
  · exact skipBlanks_append (List.dropWhile_eq_nil_iff.mp hblank) rest'

end Decoder.Contained

/-! ### Words and strings -/

theorem readWord_more (h : readWord word cs = .ok rest) (more : List Char) :
    readWord word (cs ++ more) = .ok (rest ++ more) := by
  induction word generalizing cs with
  | nil =>
    obtain rfl := Except.ok.inj h
    rfl
  | cons w word ih =>
    cases cs with
    | nil => cases h
    | cons c cs =>
      rw [readWord] at h
      rw [List.cons_append, readWord]
      split_ifs at h ⊢ with hc
      exact ih h

theorem readHex_more {n : Nat} (h : readHex cs = .ok (n, rest)) (more : List Char) :
    readHex (cs ++ more) = .ok (n, rest ++ more) := by
  unfold readHex at h
  split at h
  next a b c d cs =>
    simp only [List.cons_append, readHex]
    split at h
    · cases h
      rfl
    · cases h
  · cases h

theorem readUnicode_more {c : Char} (h : readUnicode cs = .ok (c, rest)) (more : List Char) :
    readUnicode (cs ++ more) = .ok (c, rest ++ more) := by
  obtain ⟨⟨n, cs'⟩, hn, h⟩ := Traced.exists_of_bind h
  have hn' := readHex_more hn more
  simp only [readUnicode, hn', bind, Except.bind]
  dsimp only at h
  split_ifs at h ⊢ with hlow hhigh
  · obtain ⟨rfl, rfl⟩ := Prod.mk.inj (Except.ok.inj h)
    rfl
  · obtain ⟨cs'', hword, h⟩ := Traced.exists_of_bind h
    obtain ⟨⟨n', cs'''⟩, hn'', h⟩ := Traced.exists_of_bind h
    simp only [readWord_more hword more, readHex_more hn'' more]
    dsimp only at h
    split_ifs at h ⊢ with hother
    · cases h
    · obtain ⟨rfl, rfl⟩ := Prod.mk.inj (Except.ok.inj h)
      rfl

theorem readEscape_more {c : Char} (h : readEscape cs = .ok (c, rest)) (more : List Char) :
    readEscape (cs ++ more) = .ok (c, rest ++ more) := by
  unfold readEscape at h
  split at h
  · cases h
  · exact readUnicode_more h more
  next e cs hu =>
    rw [List.cons_append, readEscape]
    · split at h
      · cases h
        rfl
      · cases h
    · exact hu

theorem readString_more {s : List Char} (h : readString cs = .ok (s, rest)) (more : List Char) :
    readString (cs ++ more) = .ok (s, rest ++ more) := by
  fun_induction readString cs generalizing s with
  | case1 => cases h
  | case2 rest' =>
    cases h
    rw [List.cons_append, readString]
  | case3 => cases h
  | case4 rest' c cs' hc ih =>
    obtain ⟨⟨s', rest''⟩, hs, heq⟩ := exists_of_map h
    cases heq
    rw [List.cons_append, readString_of_escape (readEscape_more hc more), ih hs]
    rfl
  | case5 => cases h
  | case6 c rest' hquote hescape hc ih =>
    obtain ⟨⟨s', rest''⟩, hs, heq⟩ := exists_of_map h
    cases heq
    rw [List.cons_append, readString_of_plain hquote hescape hc, ih hs]
    rfl

theorem readColon_more (h : readColon cs = .ok rest) (more : List Char) :
    readColon (cs ++ more) = .ok (rest ++ more) := by
  unfold readColon at h
  split at h
  · cases h
  next hcs =>
    cases h
    rw [readColon, skipBlanks_append_of_cons hcs]
    rfl
  · cases h

theorem skipBlanks_skipBlanks (cs : List Char) : skipBlanks (skipBlanks cs) = skipBlanks cs :=
  List.dropWhile_idempotent _ _

namespace Decoder

variable {d : Decoder α}

theorem contained_string : Contained Decoder.string where
  blanks cs := by
    show readText _ = readText _
    rw [readText, skipBlanks_skipBlanks, ← readText]
  read := by
    intro cs s rest h
    have hread : readText cs = .ok (s, rest) := h
    unfold readText at hread
    split at hread
    next cs' hcs =>
      obtain ⟨⟨s', rest'⟩, hs, heq⟩ := exists_of_map hread
      cases heq
      refine ⟨'"', cs', hcs, by decide, fun more => ?_⟩
      show readText ('"' :: (cs' ++ more)) = _
      rw [readText, skipBlanks_cons (by decide)]
      simp only [readString_more hs more]
      rfl
    · cases hread

theorem contained_boolean : Contained Decoder.boolean where
  blanks cs := by
    show readBoolean _ = readBoolean _
    rw [readBoolean, skipBlanks_skipBlanks, ← readBoolean]
  read := by
    intro cs t rest h
    have hread : readBoolean cs = .ok (t, rest) := h
    unfold readBoolean at hread
    split at hread
    next cs' hcs =>
      obtain ⟨rest', hword, heq⟩ := exists_of_map hread
      cases heq
      refine ⟨'t', cs', hcs, by decide, fun more => ?_⟩
      show readBoolean ('t' :: (cs' ++ more)) = _
      rw [readBoolean, skipBlanks_cons (by decide)]
      simp only [readWord_more hword more]
      rfl
    next cs' hcs =>
      obtain ⟨rest', hword, heq⟩ := exists_of_map hread
      cases heq
      refine ⟨'f', cs', hcs, by decide, fun more => ?_⟩
      show readBoolean ('f' :: (cs' ++ more)) = _
      rw [readBoolean, skipBlanks_cons (by decide)]
      simp only [readWord_more hword more]
      rfl
    · cases hread

/-! ### Lists -/

theorem readElements_more (hd : d.Contained) {as : List α} (h : readElements d cs = .ok (as, rest))
    (more : List Char) : readElements d (cs ++ more) = .ok (as, rest ++ more) := by
  fun_induction readElements d cs generalizing as with
  | case1 => cases h
  | case2 => cases h
  | case3 cs a rest' ha rest'' hb ih =>
    obtain ⟨⟨as', rest⟩, has, heq⟩ := exists_of_map h
    cases heq
    rw [readElements_step (hd.more ha more), skipBlanks_append_of_cons hb]
    simp only [ih has]
    rfl
  | case4 cs a rest' ha rest'' hb =>
    cases h
    rw [readElements_step (hd.more ha more), skipBlanks_append_of_cons hb]
    rfl
  | case5 => cases h

/-- Elements are not taken for the end of the list. -/
theorem opens_of_readElements (hd : d.Contained) {as : List α}
    (h : readElements d cs = .ok (as, rest)) : ∃ c cs', skipBlanks cs = c :: cs' ∧ c ≠ ']' := by
  rw [readElements] at h
  split at h
  · cases h
  next hread =>
    obtain ⟨c, cs', hcs, hc, -⟩ := hd.read hread
    exact ⟨c, cs', hcs, hc⟩

theorem contained_list (hd : d.Contained) : Contained (Decoder.list d) where
  blanks cs := by
    show readList d _ = readList d _
    rw [readList, skipBlanks_skipBlanks, ← readList]
  read := by
    intro cs as rest h
    have hread : readList d cs = .ok (as, rest) := h
    unfold readList at hread
    split at hread
    next cs' hcs =>
      refine ⟨'[', cs', hcs, by decide, fun more => ?_⟩
      show readList d ('[' :: (cs' ++ more)) = _
      rw [readList, skipBlanks_cons (by decide)]
      split at hread
      next rest' hend =>
        cases hread
        simp only [skipBlanks_append_of_cons hend]
      · obtain ⟨c, cs'', hc, hne⟩ := opens_of_readElements hd hread
        simp only [skipBlanks_append_of_cons hc]
        split
        next h => exact absurd (List.cons_eq_cons.mp h).1 hne
        · exact readElements_more hd hread more
    · cases hread

/-! ### Names -/

theorem readNull_more (h : readNull cs = .ok rest) (more : List Char) :
    readNull (cs ++ more) = .ok (rest ++ more) := by
  unfold readNull at h
  split at h
  next hcs =>
    rw [readNull, skipBlanks_append_of_cons hcs]
    exact readWord_more h more
  · cases h

theorem readVariantName_more {name : List Char} (h : readVariantName cs = .ok (name, rest))
    (more : List Char) : readVariantName (cs ++ more) = .ok (name, rest ++ more) := by
  unfold readVariantName at h
  split at h
  · cases h
  next hcs =>
    rw [readVariantName, skipBlanks_append_of_cons hcs]
    exact readString_more h more
  · cases h

theorem readVariantObject_more {v : Variants α} {a : α} (h : readVariantObject v cs = .ok (a, rest))
    (more : List Char) : readVariantObject v (cs ++ more) = .ok (a, rest ++ more) := by
  obtain ⟨⟨name, cs₁⟩, hname, h⟩ := Traced.exists_of_bind h
  obtain ⟨a', ha, h⟩ := Traced.exists_of_bind h
  obtain ⟨cs₂, hcolon, h⟩ := Traced.exists_of_bind h
  obtain ⟨cs₃, hnull, h⟩ := Traced.exists_of_bind h
  simp only [readVariantObject, readVariantName_more hname more, ha, readColon_more hcolon more,
    readNull_more hnull more, bind, Except.bind]
  split at h
  · cases h
  next hend =>
    cases h
    rw [skipBlanks_append_of_cons hend]
    rfl
  · cases h

theorem contained_variant (v : Variants α) : Contained (Decoder.variant v) where
  blanks cs := by
    show readVariant v _ = readVariant v _
    rw [readVariant, skipBlanks_skipBlanks, ← readVariant]
  read := by
    intro cs a rest h
    have hread : readVariant v cs = .ok (a, rest) := h
    unfold readVariant at hread
    split at hread
    · cases hread
    next cs' hcs =>
      refine ⟨'\x7b', cs', hcs, by decide, fun more => ?_⟩
      show readVariant v ('\x7b' :: (cs' ++ more)) = _
      rw [readVariant, skipBlanks_cons (by decide)]
      exact readVariantObject_more hread more
    next cs' hcs =>
      obtain ⟨⟨name, rest'⟩, hname, hread⟩ := Traced.exists_of_bind hread
      obtain ⟨a', ha, hread⟩ := Traced.exists_of_bind hread
      cases hread
      refine ⟨'"', cs', hcs, by decide, fun more => ?_⟩
      show readVariant v ('"' :: (cs' ++ more)) = _
      rw [readVariant, skipBlanks_cons (by decide)]
      simp only [readString_more hname more, ha, bind, Except.bind]
      rfl
    · cases hread

end Decoder

end DeviceLibs.Json
