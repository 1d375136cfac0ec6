import DeviceLibs.Proofs.Json.Members
import DeviceLibs.Trace

/-!
# Any value of JSON

`Decoder.value` reads a text as the value that it is: it expects no type, knows no keys, and keeps
elements and members in their order. Lists and objects may be so many deep and no deeper. What it takes a
text for is put together from the parts: `spells_string`, `spells_number`, `spells_elements`,
`spells_members`.
-/

namespace DeviceLibs.Json

inductive Value where
  | null
  | boolean (b : Bool)
  /-- A number without a sign, a point or an exponent. -/
  | natural (n : Nat)
  /-- Any other number, in its digits. -/
  | number (negative : Bool) (numeral : Numeral)
  | string (s : String)
  | array (elements : List Value)
  | object (members : List (String × Value))

def Value.ofNumeral (n : Numeral) : Value :=
  if n.fraction = [] ∧ n.exponent = none then .natural (Nat.ofDigitChars 10 n.whole 0)
  else .number false n

namespace Decoder

variable {α : Type}

/-! ### Reading -/

/-- Reads a value that is no list and no object, from its first character on. -/
def readScalar (cs : List Char) : Except Fault (Value × List Char) :=
  match cs with
  | [] => .error .ended
  | 'n' :: cs => (readWord ['u', 'l', 'l'] cs).map (.null, ·)
  | 't' :: cs => (readWord ['r', 'u', 'e'] cs).map (.boolean true, ·)
  | 'f' :: cs => (readWord ['a', 'l', 's', 'e'] cs).map (.boolean false, ·)
  | '"' :: cs => (readString cs).map fun p => (.string (.ofList p.1), p.2)
  | '-' :: cs => (readNumeral cs).map fun p => (.number true p.1, p.2)
  | cs => (readNumeral cs).map fun p => (.ofNumeral p.1, p.2)

/-- Reads a key, a colon and what `d` reads. -/
def readPair (d : Decoder α) (cs : List Char) : Except Fault ((String × α) × List Char) := do
  let (key, cs) ← readVariantName cs
  let cs ← readColon cs
  let (a, cs) ← d.read cs
  return ((.ofList key, a), cs)

theorem length_of_word {word cs rest : List Char} {v v' : Value}
    (h : (readWord word cs).map (v, ·) = .ok (v', rest)) : rest.length ≤ cs.length := by
  obtain ⟨r, hr, heq⟩ := exists_of_map h
  cases heq
  have := length_of_readWord hr
  omega

theorem length_of_readScalar {v : Value} {cs rest : List Char} (h : readScalar cs = .ok (v, rest)) :
    rest.length < cs.length := by
  unfold readScalar at h
  split at h
  · cases h
  · exact Nat.lt_succ_of_le (length_of_word h)
  · exact Nat.lt_succ_of_le (length_of_word h)
  · exact Nat.lt_succ_of_le (length_of_word h)
  · obtain ⟨p, hp, heq⟩ := exists_of_map h
    cases heq
    have := length_of_readString hp
    simp only [List.length_cons]
    omega
  · obtain ⟨p, hp, heq⟩ := exists_of_map h
    cases heq
    have := length_of_readNumeral hp
    simp only [List.length_cons]
    omega
  · obtain ⟨p, hp, heq⟩ := exists_of_map h
    cases heq
    exact length_of_readNumeral hp

theorem length_of_readPair {d : Decoder α} {p : String × α} {cs rest : List Char}
    (h : readPair d cs = .ok (p, rest)) : rest.length < cs.length := by
  unfold readPair at h
  obtain ⟨key, hkey, h⟩ := Traced.exists_of_bind h
  obtain ⟨cs', hcolon, h⟩ := Traced.exists_of_bind h
  obtain ⟨q, hvalue, h⟩ := Traced.exists_of_bind h
  obtain ⟨-, rfl⟩ := Prod.mk.inj (Except.ok.inj h)
  have h1 := length_of_readVariantName hkey
  have h2 := length_of_readColon hcolon
  have h3 := d.shorter hvalue
  omega

def pair (d : Decoder α) : Decoder (String × α) := ⟨readPair d, length_of_readPair⟩

/-- Reads pairs with commas between them, up to the closing brace. -/
def readPairs (d : Decoder α) (cs : List Char) : Except Fault (List (String × α) × List Char) :=
  match _h : readPair d cs with
  | .error f => .error f
  | .ok (p, rest) =>
    match _hb : skipBlanks rest with
    | [] => .error .ended
    | ',' :: rest' => (readPairs d rest').map fun q => (p :: q.1, q.2)
    | '\x7d' :: rest' => .ok ([p], rest')
    | _ => .error .malformed
termination_by cs.length
decreasing_by
  have h1 := length_of_readPair _h
  have h2 := length_skipBlanks_le rest
  rw [_hb] at h2
  simp only [List.length_cons] at h2
  omega

theorem length_of_readPairs {d : Decoder α} {cs rest : List Char} {l : List (String × α)}
    (h : readPairs d cs = .ok (l, rest)) : rest.length < cs.length := by
  fun_induction readPairs d cs generalizing l with
  | case1 => cases h
  | case2 => cases h
  | case3 cs p r hp r' hb ih =>
    have h1 := length_of_readPair hp
    have h2 := length_skipBlanks_le r
    rw [hb] at h2
    simp only [List.length_cons] at h2
    obtain ⟨q, hq, heq⟩ := exists_of_map h
    cases heq
    have h3 := ih hq
    omega
  | case4 cs p r hp r' hb =>
    have h1 := length_of_readPair hp
    have h2 := length_skipBlanks_le r
    rw [hb] at h2
    simp only [List.length_cons] at h2
    cases h
    omega
  | case5 => cases h

/-- Reads pairs, or the brace that closes an object without any. -/
def readObject (d : Decoder α) (cs : List Char) : Except Fault (List (String × α) × List Char) :=
  match skipBlanks cs with
  | '\x7d' :: rest => .ok ([], rest)
  | _ => readPairs d cs

theorem length_of_readObject {d : Decoder α} {cs rest : List Char} {l : List (String × α)}
    (h : readObject d cs = .ok (l, rest)) : rest.length < cs.length := by
  have hle := length_skipBlanks_le cs
  unfold readObject at h
  split at h
  next hb =>
    rw [hb] at hle
    simp only [List.length_cons] at hle
    cases h
    omega
  · exact length_of_readPairs h

/-- Reads a value whose parts `d` reads. -/
def readNested (d : Decoder Value) (cs : List Char) : Except Fault (Value × List Char) :=
  match skipBlanks cs with
  | '[' :: rest => (readList d ('[' :: rest)).map fun p => (.array p.1, p.2)
  | '\x7b' :: rest => (readObject d rest).map fun p => (.object p.1, p.2)
  | cs => readScalar cs

theorem length_of_readNested {d : Decoder Value} {v : Value} {cs rest : List Char}
    (h : readNested d cs = .ok (v, rest)) : rest.length < cs.length := by
  have hle := length_skipBlanks_le cs
  unfold readNested at h
  split at h
  next hb =>
    rw [hb] at hle
    obtain ⟨p, hp, heq⟩ := exists_of_map h
    cases heq
    have := length_of_readList hp
    omega
  next hb =>
    rw [hb] at hle
    obtain ⟨p, hp, heq⟩ := exists_of_map h
    cases heq
    have := length_of_readObject hp
    simp only [List.length_cons] at hle
    omega
  · have := length_of_readScalar h
    omega

/-- Reads a value with lists and objects at most `depth` deep. -/
def value : Nat → Decoder Value
  | 0 =>
    { read := fun cs => readScalar (skipBlanks cs)
      shorter := fun {cs _ _} h =>
        Nat.lt_of_lt_of_le (length_of_readScalar h) (length_skipBlanks_le cs) }
  | depth + 1 => ⟨readNested (value depth), length_of_readNested⟩

end Decoder

open Decoder

variable {α : Type} {b cs rest text : List Char} {depth : Nat}

/-! ### Scalars -/

theorem spells_scalar {c : Char} {v : Value} (hopen : text = c :: cs)
    (hc : isBlank c = false ∧ c ≠ '[' ∧ c ≠ '\x7b' ∧ c ≠ ']')
    (hread : ∀ rest, EndsNumber rest → readScalar (text ++ rest) = .ok (v, rest)) (depth : Nat) :
    Spells (Decoder.value depth) text v where
  read b rest hb hr := by
    obtain ⟨hblank, hlist, hobject, -⟩ := hc
    have hskip : skipBlanks (b ++ (text ++ rest)) = text ++ rest := by
      rw [hopen, skipBlanks_opened hb hblank]
      rfl
    refine ⟨rest, ?_, rfl⟩
    cases depth with
    | zero =>
      show readScalar (skipBlanks _) = _
      rw [hskip, hread rest hr]
    | succ depth =>
      show readNested _ _ = _
      rw [readNested, hskip, hopen, List.cons_append]
      split
      next h => exact absurd (List.cons_eq_cons.mp h).1 hlist
      next h => exact absurd (List.cons_eq_cons.mp h).1 hobject
      · rw [← List.cons_append, ← hopen, hread rest hr]
  opens := ⟨c, cs, by rw [hopen, skipBlanks_cons hc.1], hc.2.2.2⟩

theorem spells_string (s : String) (depth : Nat) :
    Spells (Decoder.value depth) (quote s).toList (.string s) := by
  refine spells_scalar (by rw [toList_quote]; rfl) (by decide) (fun rest _ => ?_) depth
  rw [toList_quote, quoteChars_append, readScalar, readString_flatMap_escaped]
  simp [Except.map]

theorem readScalar_of_isDigit {c : Char} (hc : c.isDigit = true) (cs : List Char) :
    readScalar (c :: cs) = (readNumeral (c :: cs)).map fun p => (.ofNumeral p.1, p.2) := by
  rw [readScalar]
  · exact List.cons_ne_nil _ _
  all_goals
    rintro r ⟨⟩
    cases hc

theorem spells_number (n depth : Nat) :
    Spells (Decoder.value depth) (Nat.toDigits 10 n) (.natural n) := by
  obtain ⟨c, cs, hcs, hc⟩ := exists_digit_toDigits n
  have hother : ∀ c' : Char, c'.isDigit = false → c ≠ c' := by
    rintro c' hc' rfl
    rw [hc] at hc'
    cases hc'
  have hopen : isBlank c = false ∧ c ≠ '[' ∧ c ≠ '\x7b' ∧ c ≠ ']' :=
    ⟨isBlank_of_isDigit hc, hother '[' rfl, hother '\x7b' rfl, hother ']' rfl⟩
  have hvalue : Value.ofNumeral ⟨Nat.toDigits 10 n, [], none⟩ = .natural n := by
    rw [Value.ofNumeral, if_pos ⟨rfl, rfl⟩, Nat.ofDigitChars_ten_toDigits]
  refine spells_scalar hcs hopen (fun rest hr => ?_) depth
  have hread := readNumeral_toDigits n hr
  rw [hcs, List.cons_append] at hread ⊢
  rw [readScalar_of_isDigit hc, hread, ← hcs]
  exact congrArg (fun v => Except.ok (v, rest)) hvalue

/-! ### Lists and objects -/

theorem spells_elements {texts : List (List Char)} {vs : List Value}
    (h : List.Forall₂ (Spells (Decoder.value depth)) texts vs) (hb : Blank b) :
    Spells (Decoder.value (depth + 1)) ('[' :: ([','].intercalate texts ++ (b ++ [']'])))
      (.array vs) where
  read b' rest hb' hr := by
    obtain ⟨rest', hread, hrest⟩ := (spells_list h hb).read [] rest blank_nil hr
    have hlist : readList (Decoder.value depth)
        ('[' :: ([','].intercalate texts ++ (b ++ [']']) ++ rest)) = .ok (vs, rest') := hread
    refine ⟨rest', ?_, hrest⟩
    show readNested _ _ = _
    rw [readNested, skipBlanks_opened hb' (by decide)]
    simp only [hlist]
    rfl
  opens := ⟨'[', _, rfl, by decide⟩

theorem spells_pair {d : Decoder α} {b' value : List Char} {a : α} (hb : Blank b) (hb' : Blank b')
    (key : String) (h : Spells d value a) :
    Spells (pair d) (b ++ (quoteChars key.toList ++ ':' :: (b' ++ value))) (key, a) := by
  refine Spells.blank_append hb ⟨fun b₀ rest hb₀ hr => ?_, '"', _, rfl, by decide⟩
  obtain ⟨rest', hread, hrest⟩ := h.read b' rest hb' hr
  refine ⟨rest', ?_, hrest⟩
  have hname : readVariantName (b₀ ++ (quoteChars key.toList ++ ':' :: (b' ++ value) ++ rest)) =
      .ok (key.toList, ':' :: (b' ++ value) ++ rest) := by
    rw [readVariantName, skipBlanks_append hb₀, List.append_assoc, quoteChars_append,
      skipBlanks_cons (by decide)]
    exact readString_flatMap_escaped _ _
  have hcolon : readColon (':' :: (b' ++ value) ++ rest) = .ok (b' ++ (value ++ rest)) := by
    rw [List.cons_append, List.append_assoc]
    exact readColon_append blank_nil _
  show readPair d _ = _
  simp only [readPair, hname, hcolon, hread, bind, Except.bind, String.ofList_toList]
  rfl

/-- A pair opens with the quotation of its key. -/
theorem opens_of_spells_pair {d : Decoder α} {p : String × α} (h : Spells (pair d) text p) :
    ∃ cs, skipBlanks text = '"' :: cs := by
  obtain ⟨rest, hread, -⟩ := h.read [] [] blank_nil endsNumber_nil
  rw [List.nil_append, List.append_nil] at hread
  obtain ⟨key, hkey, -⟩ := Traced.exists_of_bind hread
  unfold readVariantName at hkey
  split at hkey
  · cases hkey
  next cs hcs => exact ⟨cs, hcs⟩
  · cases hkey

/-- Behind a pair a comma carries on and a brace ends. -/
theorem readPairs_step {d : Decoder α} {p : String × α} {rest' : List Char}
    (h : (pair d).read cs = .ok (p, rest')) :
    readPairs d cs =
      match skipBlanks rest' with
      | [] => .error .ended
      | ',' :: rest => (readPairs d rest).map fun q => (p :: q.1, q.2)
      | '\x7d' :: rest => .ok ([p], rest)
      | _ => .error .malformed := by
  have hpair : readPair d cs = .ok (p, rest') := h
  rw [readPairs]
  split
  next hf => rw [hpair] at hf; cases hf
  next hf =>
    rw [hpair] at hf
    cases hf
    split <;> simp_all only

theorem readPairs_intercalate {d : Decoder α} {texts : List (List Char)} {ps : List (String × α)}
    (h : List.Forall₂ (Spells (pair d)) texts ps) (hne : texts ≠ []) (hb : Blank b)
    (rest : List Char) :
    readPairs d ([','].intercalate texts ++ (b ++ '\x7d' :: rest)) = .ok (ps, rest) := by
  induction h with
  | nil => exact absurd rfl hne
  | @cons text p texts ps ht hts ih =>
    -- the brace stands behind the last pair, a comma behind any other
    cases hts with
    | nil =>
      obtain ⟨rest', hd, hrest⟩ := read_element ht hb (.inr (.inr rfl)) rest
      rw [List.intercalate_singleton]
      rw [readPairs_step hd, hrest]
      rfl
    | @cons text' p' texts' ps' ht' hts' =>
      obtain ⟨rest', hd, hrest⟩ := read_element ht blank_nil (.inl rfl)
        ([','].intercalate (text' :: texts') ++ (b ++ '\x7d' :: rest))
      have hsplit : [','].intercalate (text :: text' :: texts') ++ (b ++ '\x7d' :: rest) =
          text ++ ([] ++ ',' :: ([','].intercalate (text' :: texts') ++ (b ++ '\x7d' :: rest))) := by
        simp
      rw [hsplit, readPairs_step hd, hrest]
      exact congrArg (Except.map _) (ih (List.cons_ne_nil _ _))

theorem spells_members {texts : List (List Char)} {ps : List (String × Value)}
    (h : List.Forall₂ (Spells (pair (Decoder.value depth))) texts ps) (hb : Blank b) :
    Spells (Decoder.value (depth + 1)) ('\x7b' :: ([','].intercalate texts ++ (b ++ ['\x7d'])))
      (.object ps) where
  read b' rest hb' _ := by
    refine ⟨rest, ?_, rfl⟩
    have hobject : readObject (Decoder.value depth)
        ([','].intercalate texts ++ (b ++ '\x7d' :: rest)) = .ok (ps, rest) := by
      cases h with
      | nil =>
        rw [readObject, List.intercalate_nil, List.nil_append, skipBlanks_append hb,
          skipBlanks_cons (by decide)]
        rfl
      | @cons text p texts ps ht hts =>
        obtain ⟨cs, hcs⟩ := opens_of_spells_pair ht
        obtain ⟨more, hmore⟩ := exists_intercalate_cons [','] text texts
        have hquote : skipBlanks ([','].intercalate (text :: texts) ++ (b ++ '\x7d' :: rest)) =
            '"' :: (cs ++ (more ++ (b ++ '\x7d' :: rest))) := by
          rw [hmore, List.append_assoc, skipBlanks_append_of_cons hcs]
        rw [readObject, hquote]
        exact readPairs_intercalate (.cons ht hts) (List.cons_ne_nil _ _) hb rest
    show readNested _ _ = _
    rw [readNested, skipBlanks_opened hb' (by decide)]
    simp only [List.append_assoc, List.singleton_append, hobject]
    rfl
  opens := ⟨'\x7b', _, rfl, by decide⟩

end DeviceLibs.Json
