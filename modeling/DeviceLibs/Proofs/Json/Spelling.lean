import DeviceLibs.Json.Variant
import DeviceLibs.Json.Writer
import DeviceLibs.Text.Decimal
import Mathlib.Data.List.Forall2

/-!
# Spellings of JSON values

`Spells d text a` says that the decoder `d` reads `a` off `text`, with blanks in front of it and with
anything behind it that cannot carry it on. A value in a list or a record is read in this way, so
spellings of larger values are put together from those of their parts.

* `spells_quote`: a string is read back from its quotation, whatever characters it has.
* `spells_toDigits`: a number of 32 bits is read back from its digits.
* `spells_variant`, `spells_list`: names and lists.
* `Spells.decode_eq_ok`: a text that is a spelling is decoded.
-/

namespace DeviceLibs.Json

variable {α β : Type} {b cs rest : List Char}

def Blank (cs : List Char) : Prop := ∀ c ∈ cs, isBlank c = true

instance (cs : List Char) : Decidable (Blank cs) := List.decidableBAll _ cs

/-- A number that stands before `rest` does not go on in it. -/
def EndsNumber (rest : List Char) : Prop :=
  ∀ c ∈ rest.head?, c.isDigit = false ∧ c ≠ '.' ∧ c ≠ 'e' ∧ c ≠ 'E'

structure Spells (d : Decoder α) (text : List Char) (a : α) : Prop where
  /-- What is left in front of `rest` is blank. -/
  read : ∀ b rest, Blank b → EndsNumber rest →
    ∃ rest', d.read (b ++ (text ++ rest)) = .ok (a, rest') ∧ skipBlanks rest' = skipBlanks rest
  /-- The text is not taken for the end of a list. -/
  opens : ∃ c cs, skipBlanks text = c :: cs ∧ c ≠ ']'

theorem exists_of_map {f : α → β} {x : Except Fault α} {b : β} (h : x.map f = .ok b) :
    ∃ a, x = .ok a ∧ f a = b := by
  cases x with
  | error e => cases h
  | ok a => exact ⟨a, rfl, Except.ok.inj h⟩

/-! ### Blanks -/

theorem blank_nil : Blank [] := nofun

theorem skipBlanks_append (hb : Blank b) (cs : List Char) : skipBlanks (b ++ cs) = skipBlanks cs :=
  List.dropWhile_append_of_pos hb

theorem skipBlanks_eq_nil (hb : Blank b) : skipBlanks b = [] := by
  rw [← List.append_nil b, skipBlanks_append hb]
  rfl

theorem skipBlanks_cons {c : Char} (hc : isBlank c = false) (cs : List Char) :
    skipBlanks (c :: cs) = c :: cs := by
  simp [skipBlanks, hc]

theorem endsNumber_nil : EndsNumber [] := nofun

theorem endsNumber_cons {c : Char} (hc : c.isDigit = false ∧ c ≠ '.' ∧ c ≠ 'e' ∧ c ≠ 'E')
    (cs : List Char) : EndsNumber (c :: cs) := by
  rintro d ⟨⟩
  exact hc

theorem endsNumber_append (hb : Blank b) (h : EndsNumber rest) : EndsNumber (b ++ rest) := by
  cases b with
  | nil => exact h
  | cons c b =>
    refine endsNumber_cons ?_ _
    have hc := hb c List.mem_cons_self
    simp only [isBlank, Bool.or_eq_true, decide_eq_true_eq] at hc
    rcases hc with ((rfl | rfl) | rfl) | rfl <;> decide

theorem skipBlanks_append_of_cons {text : List Char} {c : Char} (h : skipBlanks text = c :: cs)
    (rest : List Char) : skipBlanks (text ++ rest) = c :: (cs ++ rest) := by
  have hdrop : text.dropWhile isBlank = c :: cs := h
  rw [skipBlanks, List.dropWhile_append, hdrop]
  rfl

/-- Text that opens with a character that is no blank is read from there. -/
theorem skipBlanks_opened {c : Char} (hb : Blank b) (hc : isBlank c = false) (cs rest : List Char) :
    skipBlanks (b ++ (c :: cs ++ rest)) = c :: (cs ++ rest) := by
  rw [skipBlanks_append hb]
  exact skipBlanks_cons hc _

theorem readColon_append (hb : Blank b) (cs : List Char) : readColon (b ++ ':' :: cs) = .ok cs := by
  rw [readColon, skipBlanks_append hb, skipBlanks_cons (by decide)]
  rfl

/-! ### Whole texts -/

theorem decode_of_read {d : Decoder α} {text : String} {x : Except Fault α}
    (h : d.read text.toList = x.map (·, b)) (hb : Blank b) : decode d text = x := by
  rw [decode, h]
  cases x with
  | error f => rfl
  | ok a => exact if_pos (skipBlanks_eq_nil hb)

theorem decode_of_read_error {d : Decoder α} {text : String} {f : Fault}
    (h : d.read text.toList = .error f) : decode d text = .error f := by
  rw [decode, h]
  rfl

theorem decode_map (f : α → β) (d : Decoder α) (text : String) :
    decode (d.map f) text = (decode d text).map f := by
  show ((d.read text.toList).map _ >>= _) = _
  rw [decode]
  cases d.read text.toList with
  | error e => rfl
  | ok p =>
    show (if skipBlanks p.2 = [] then _ else _) = Except.map f (if skipBlanks p.2 = [] then _ else _)
    split_ifs <;> rfl

namespace Spells

variable {d : Decoder α} {text : List Char} {a : α}

theorem map (f : α → β) (h : Spells d text a) : Spells (d.map f) text (f a) where
  read b rest hb hr := by
    obtain ⟨rest', hd, hrest⟩ := h.read b rest hb hr
    refine ⟨rest', ?_, hrest⟩
    show (d.read _).map _ = _
    rw [hd]
    rfl
  opens := h.opens

theorem blank_append (hb : Blank b) (h : Spells d text a) : Spells d (b ++ text) a where
  read b' rest hb' hr := by
    have hbb : Blank (b' ++ b) := fun c hc => (List.mem_append.mp hc).elim (hb' c) (hb c)
    obtain ⟨rest', hd, hrest⟩ := h.read (b' ++ b) rest hbb hr
    refine ⟨rest', ?_, hrest⟩
    rw [← hd, List.append_assoc, List.append_assoc]
  opens := by
    rw [skipBlanks_append hb]
    exact h.opens

theorem decode_eq_ok {s : String} (h : Spells d s.toList a) : decode d s = .ok a := by
  obtain ⟨rest, hd, hrest⟩ := h.read [] [] blank_nil endsNumber_nil
  rw [List.append_nil, List.nil_append] at hd
  have hend : skipBlanks rest = [] := hrest
  simp only [decode, hd, bind, Except.bind, hend, if_true]
  rfl

end Spells

/-! ### Strings -/

theorem hexValue?_digitChar {n : Nat} (h : n < 16) : Text.hexValue? n.digitChar = some n := by
  have hall : ∀ n < 16, Text.hexValue? (Nat.digitChar n) = some n := by decide
  exact hall n h

/-- The four digits of a character below the space. -/
theorem readUnicode_digits {c : Char} (h : c < ' ') (cs : List Char) :
    readUnicode ('0' :: '0' :: (c.toNat / 16).digitChar :: (c.toNat % 16).digitChar :: cs) =
      .ok (c, cs) := by
  have hc : c.toNat < 32 := h
  have hzero : Text.hexValue? '0' = some 0 := by decide
  have hhex : readHex ('0' :: '0' :: (c.toNat / 16).digitChar :: (c.toNat % 16).digitChar :: cs) =
      .ok (c.toNat, cs) := by
    simp only [readHex, hzero, hexValue?_digitChar (show c.toNat / 16 < 16 by omega),
      hexValue?_digitChar (show c.toNat % 16 < 16 by omega)]
    rw [show ((0 * 16 + 0) * 16 + c.toNat / 16) * 16 + c.toNat % 16 = c.toNat by omega]
  simp only [readUnicode, hhex, bind, Except.bind]
  rw [if_neg (by omega), if_pos (by omega), Char.ofNat_toNat]
  rfl

theorem readString_of_escape {e rest : List Char} {c : Char} (h : readEscape e = .ok (c, rest)) :
    readString ('\\' :: e) = (readString rest).map fun p => (c :: p.1, p.2) := by
  rw [readString]
  split
  next hf => rw [h] at hf; cases hf
  next hf => rw [h] at hf; cases hf; rfl

theorem readString_of_plain {c : Char} (hq : c ≠ '"') (hs : c ≠ '\\') (hc : ¬ c < ' ')
    (cs : List Char) : readString (c :: cs) = (readString cs).map fun p => (c :: p.1, p.2) := by
  rw [readString]
  · rw [if_neg hc]
  · exact hq
  · exact hs

/-- An escaped character is read back. -/
theorem readString_escaped (c : Char) (cs : List Char) :
    readString (escaped c ++ cs) = (readString cs).map fun p => (c :: p.1, p.2) := by
  unfold escaped
  split
  case h_8 hq hs _ _ _ _ _ =>
    split_ifs with hc
    · exact readString_of_escape (readUnicode_digits hc cs)
    · exact readString_of_plain hq hs hc cs
  all_goals exact readString_of_escape rfl

theorem readString_flatMap_escaped (s rest : List Char) :
    readString (s.flatMap escaped ++ '"' :: rest) = .ok (s, rest) := by
  induction s with
  | nil => simp [readString]
  | cons c s ih =>
    rw [List.flatMap_cons, List.append_assoc, readString_escaped, ih]
    rfl

theorem toList_quote (s : String) : (quote s).toList = quoteChars s.toList := by simp [quote]

theorem quoteChars_append (s rest : List Char) :
    quoteChars s ++ rest = '"' :: (s.flatMap escaped ++ '"' :: rest) := by
  simp [quoteChars]

theorem spells_quote (s : String) : Spells Decoder.string (quote s).toList s where
  read b rest hb _ := by
    refine ⟨rest, ?_, rfl⟩
    show Decoder.readText _ = _
    rw [Decoder.readText, skipBlanks_append hb, toList_quote, quoteChars_append,
      skipBlanks_cons (by decide)]
    simp only [readString_flatMap_escaped]
    simp [Except.map]
  opens := ⟨'"', _, by rw [toList_quote]; rfl, by decide⟩

/-! ### Names -/

theorem exists_of_decode_string {text s : String} (h : decode Decoder.string text = .ok s) :
    ∃ cs rest, skipBlanks text.toList = '"' :: cs ∧ readString cs = .ok (s.toList, rest) ∧
      skipBlanks rest = [] := by
  have hread : (Decoder.readText text.toList >>= fun p : String × List Char =>
      if skipBlanks p.2 = [] then .ok p.1 else .error .malformed) = .ok s := h
  unfold Decoder.readText at hread
  split at hread
  next cs hcs =>
    cases hs : readString cs with
    | error e => rw [hs] at hread; cases hread
    | ok p =>
      rw [hs] at hread
      simp only [bind, Except.bind, Except.map] at hread
      split_ifs at hread with hend
      cases hread
      exact ⟨cs, p.2, hcs, by rw [hs, String.toList_ofList], hend⟩
  next => cases hread

/-- A decoder for names takes a text as the name that it stands for as a string, however it is spelt. -/
theorem decode_variant_of_string {v : Decoder.Variants α} {text s : String}
    (h : decode Decoder.string text = .ok s) (a : α) :
    decode (Decoder.variant v) text = .ok a ↔ v.ofName? s = some a := by
  obtain ⟨cs, rest, hcs, hread, hend⟩ := exists_of_decode_string h
  have hvariant : decode (Decoder.variant v) text = v.lookup s := by
    show (Decoder.readVariant v text.toList >>= _) = _
    rw [Decoder.readVariant, hcs]
    simp only [hread, bind, Except.bind, String.ofList_toList]
    cases v.lookup s with
    | error e => rfl
    | ok a => exact if_pos hend
  rw [hvariant, Decoder.Variants.lookup]
  cases v.ofName? s <;> simp

theorem spells_variant {v : Decoder.Variants α} {s : String} {a : α} (h : v.ofName? s = some a) :
    Spells (Decoder.variant v) (quote s).toList a where
  read b rest hb _ := by
    refine ⟨rest, ?_, rfl⟩
    show Decoder.readVariant v _ = _
    rw [Decoder.readVariant, skipBlanks_append hb, toList_quote, quoteChars_append,
      skipBlanks_cons (by decide)]
    simp only [readString_flatMap_escaped, bind, Except.bind, Decoder.Variants.lookup,
      String.ofList_toList, h]
    rfl
  opens := ⟨'"', _, by rw [toList_quote]; rfl, by decide⟩

/-! ### Truth values -/

theorem readWord_append (word rest : List Char) : readWord word (word ++ rest) = .ok rest := by
  induction word with
  | nil => rfl
  | cons w word ih =>
    rw [List.cons_append, readWord, if_pos rfl]
    exact ih

theorem spells_boolean (t : Bool) : Spells Decoder.boolean (boolean t).toList t where
  read b rest hb _ := by
    refine ⟨rest, ?_, rfl⟩
    show Decoder.readBoolean _ = _
    cases t with
    | true =>
      have hword : (boolean true).toList = 't' :: ['r', 'u', 'e'] := rfl
      rw [hword, Decoder.readBoolean, skipBlanks_opened hb (by decide)]
      simp only [readWord_append]
      rfl
    | false =>
      have hword : (boolean false).toList = 'f' :: ['a', 'l', 's', 'e'] := rfl
      rw [hword, Decoder.readBoolean, skipBlanks_opened hb (by decide)]
      simp only [readWord_append]
      rfl
  opens := by cases t <;> exact ⟨_, _, rfl, by decide⟩

/-! ### Numbers -/

theorem readDigits_append_of_all {digits : List Char} (hd : ∀ c ∈ digits, c.isDigit = true)
    (hne : digits ≠ []) (hr : ∀ c ∈ rest.head?, c.isDigit = false) :
    readDigits (digits ++ rest) = .ok (digits, rest) := by
  have hrest : rest.takeWhile Char.isDigit = [] ∧ rest.dropWhile Char.isDigit = rest := by
    cases rest with
    | nil => exact ⟨rfl, rfl⟩
    | cons c cs => simp [hr c rfl]
  rw [readDigits, List.takeWhile_append_of_pos hd, List.dropWhile_append_of_pos hd, hrest.1, hrest.2,
    List.append_nil]
  cases digits with
  | nil => exact absurd rfl hne
  | cons c cs => rfl

theorem readWhole_toDigits (n : Nat) (hr : EndsNumber rest) :
    readWhole (Nat.toDigits 10 n ++ rest) = .ok (Nat.toDigits 10 n, rest) := by
  rcases Nat.eq_zero_or_pos n with rfl | hn
  · have hnext : (rest.head?.map Char.isDigit).getD false = false := by
      cases rest with
      | nil => rfl
      | cons c cs => exact (hr c rfl).1
    rw [Nat.toDigits_zero, List.singleton_append, readWhole, hnext]
    rfl
  · have hread := readDigits_append_of_all (fun c => Text.isDigit_of_mem_toDigits)
      (Nat.toDigits_ne_nil (n := n)) fun c hc => (hr c hc).1
    obtain ⟨c, cs, hcs, hc⟩ := Text.exists_toDigits_eq_cons hn
    rw [hcs] at hread ⊢
    rw [readWhole]
    · exact hread
    · rintro r ⟨⟩
      exact hc rfl

theorem readNumeral_toDigits (n : Nat) (hr : EndsNumber rest) :
    readNumeral (Nat.toDigits 10 n ++ rest) = .ok (⟨Nat.toDigits 10 n, [], none⟩, rest) := by
  have hfraction : readFraction rest = .ok ([], rest) := by
    cases rest with
    | nil => rfl
    | cons c cs =>
      rw [readFraction]
      rintro r ⟨⟩
      exact (hr '.' rfl).2.1 rfl
  have hexponent : readExponent rest = .ok (none, rest) := by
    cases rest with
    | nil => rfl
    | cons c cs =>
      rw [readExponent]
      · rintro r ⟨⟩
        exact (hr 'e' rfl).2.2.1 rfl
      · rintro r ⟨⟩
        exact (hr 'E' rfl).2.2.2 rfl
  simp only [readNumeral, readWhole_toDigits n hr, hfraction, hexponent, bind, Except.bind]
  rfl

/-- Digits are taken in as long as the number fits in 64 bits. -/
theorem absorb_eq {digits : List Char} {k : Nat} (h : Nat.ofDigitChars 10 digits k < UInt64.size) :
    absorb k digits = (Nat.ofDigitChars 10 digits k, []) := by
  induction digits generalizing k with
  | nil => rfl
  | cons c cs ih =>
    rw [Nat.ofDigitChars_cons] at h ⊢
    -- the number only grows with the digits to come, so it is within bounds here too
    have hle : 10 * k + (c.toNat - '0'.toNat) < UInt64.size := by
      rw [Nat.ofDigitChars_eq_ofDigitChars_zero] at h
      have hle := Nat.le_mul_of_pos_left (10 * k + (c.toNat - '0'.toNat))
        (Nat.pow_pos (n := cs.length) (show 0 < 10 by decide))
      omega
    rw [absorb, if_neg (by omega), Nat.mul_comm k 10]
    exact ih h

theorem exists_digit_toDigits (n : Nat) :
    ∃ c cs, Nat.toDigits 10 n = c :: cs ∧ c.isDigit = true := by
  cases hd : Nat.toDigits 10 n with
  | nil => exact absurd hd Nat.toDigits_ne_nil
  | cons c cs => exact ⟨c, cs, rfl, Text.isDigit_of_mem_toDigits (hd ▸ List.mem_cons_self)⟩

theorem isBlank_of_isDigit {c : Char} (h : c.isDigit = true) : isBlank c = false := by
  rw [← Bool.not_eq_true]
  intro hb
  simp only [isBlank, Bool.or_eq_true, decide_eq_true_eq] at hb
  rcases hb with ((rfl | rfl) | rfl) | rfl <;> cases h

theorem opens_toDigits (n : Nat) : ∃ c cs, skipBlanks (Nat.toDigits 10 n) = c :: cs ∧ c ≠ ']' := by
  obtain ⟨c, cs, hcs, hc⟩ := exists_digit_toDigits n
  refine ⟨c, cs, by rw [hcs, skipBlanks_cons (isBlank_of_isDigit hc)], ?_⟩
  rintro rfl
  cases hc

theorem readNumber_toDigits {n : Nat} (hn : n < UInt64.size) (hr : EndsNumber rest) :
    readNumber (Nat.toDigits 10 n ++ rest) = .ok (.integer n, rest) := by
  have hvalue : Nat.ofDigitChars 10 (Nat.toDigits 10 n) 0 = n := Nat.ofDigitChars_ten_toDigits
  have hnumber : Numeral.number? false ⟨Nat.toDigits 10 n, [], none⟩ = some (.integer n) := by
    rw [Numeral.number?]
    simp only
    rw [absorb_eq (by rw [hvalue]; exact hn), hvalue]
    rfl
  have hsign : ∀ cs, Nat.toDigits 10 n ++ rest ≠ '-' :: cs := by
    intro cs hcs
    obtain ⟨c, ds, hds, hc⟩ := exists_digit_toDigits n
    rw [hds] at hcs
    cases hcs
    cases hc
  unfold readNumber
  split
  next negative cs hcs =>
    split at hcs
    next ds hds => exact absurd hds (hsign ds)
    · cases hcs
      simp only [readNumeral_toDigits n hr, bind, Except.bind, hnumber]
      rfl

theorem toUInt32_integer (v : UInt32) : Decoder.toUInt32 (.integer v.toNat) = .ok v := by
  have hv : ((v.toNat : Int)).toNat < UInt32.size := by
    rw [Int.toNat_natCast]
    exact v.toNat_lt_size
  rw [Decoder.toUInt32, if_pos ⟨Int.natCast_nonneg _, hv⟩, Int.toNat_natCast, UInt32.ofNat_toNat]

theorem spells_toDigits (v : UInt32) : Spells Decoder.uint32 (Nat.toDigits 10 v.toNat) v where
  read b rest hb hr := by
    refine ⟨rest, ?_, rfl⟩
    have hn : v.toNat < UInt64.size := Nat.lt_trans v.toNat_lt_size (by decide)
    have hread := readNumber_toDigits hn hr
    obtain ⟨c, cs, hcs, hc⟩ := exists_digit_toDigits v.toNat
    show Decoder.readUInt32 _ = _
    rw [hcs] at hread ⊢
    rw [Decoder.readUInt32, skipBlanks_opened hb (isBlank_of_isDigit hc)]
    simp only [List.head?_cons, Option.map_some, hc, Bool.or_true, Option.getD_some, if_true]
    rw [← List.cons_append, hread]
    show (Decoder.toUInt32 (.integer v.toNat) >>= _) = _
    rw [toUInt32_integer]
    rfl
  opens := opens_toDigits v.toNat

/-! ### Lists -/

/-- What may stand behind an element: blanks, and a comma or the closing bracket. -/
theorem read_element {d : Decoder α} {text : List Char} {a : α} (h : Spells d text a) (hb : Blank b)
    {c : Char} (hc : c = ',' ∨ c = ']' ∨ c = '\x7d') (rest : List Char) :
    ∃ rest', d.read (text ++ (b ++ c :: rest)) = .ok (a, rest') ∧ skipBlanks rest' = c :: rest := by
  have hnumber : c.isDigit = false ∧ c ≠ '.' ∧ c ≠ 'e' ∧ c ≠ 'E' := by
    rcases hc with rfl | rfl | rfl <;> decide
  have hblank : isBlank c = false := by rcases hc with rfl | rfl | rfl <;> decide
  obtain ⟨rest', hd, hrest⟩ :=
    h.read [] (b ++ c :: rest) blank_nil (endsNumber_append hb (endsNumber_cons hnumber rest))
  exact ⟨rest', hd, by rw [hrest, skipBlanks_append hb, skipBlanks_cons hblank]⟩

namespace Decoder

variable {d : Decoder α} {a : α}

/-- Behind an element a comma carries on and a bracket ends. -/
theorem readElements_step {rest' : List Char} (h : d.read cs = .ok (a, rest')) :
    readElements d cs =
      match skipBlanks rest' with
      | [] => .error .ended
      | ',' :: rest => (readElements d rest).map fun p => (a :: p.1, p.2)
      | ']' :: rest => .ok ([a], rest)
      | _ => .error .malformed := by
  rw [readElements]
  split
  next hf => rw [h] at hf; cases hf
  next hf =>
    rw [h] at hf
    cases hf
    split <;> simp_all only

theorem readElements_intercalate {texts : List (List Char)} {as : List α}
    (h : List.Forall₂ (Spells d) texts as) (hne : texts ≠ []) (hb : Blank b) (rest : List Char) :
    readElements d ([','].intercalate texts ++ (b ++ ']' :: rest)) = .ok (as, rest) := by
  induction h with
  | nil => exact absurd rfl hne
  | @cons text a texts as ht hts ih =>
    -- the bracket stands behind the last element, a comma behind any other
    cases hts with
    | nil =>
      obtain ⟨rest', hd, hrest⟩ := read_element ht hb (.inr (.inl rfl)) rest
      rw [List.intercalate_singleton]
      rw [readElements_step hd, hrest]
      rfl
    | @cons text' a' texts' as' ht' hts' =>
      obtain ⟨rest', hd, hrest⟩ := read_element ht blank_nil (.inl rfl)
        ([','].intercalate (text' :: texts') ++ (b ++ ']' :: rest))
      have hsplit : [','].intercalate (text :: text' :: texts') ++ (b ++ ']' :: rest) =
          text ++ ([] ++ ',' :: ([','].intercalate (text' :: texts') ++ (b ++ ']' :: rest))) := by
        simp
      rw [hsplit, readElements_step hd, hrest]
      exact congrArg (Except.map _) (ih (List.cons_ne_nil _ _))

end Decoder

theorem exists_intercalate_cons (sep text : List Char) (texts : List (List Char)) :
    ∃ more, sep.intercalate (text :: texts) = text ++ more := by
  cases texts with
  | nil => exact ⟨[], by simp⟩
  | cons text' texts => exact ⟨_, by rw [List.intercalate_cons_cons, List.append_assoc]⟩

theorem skipBlanks_intercalate_ne {d : Decoder α} {texts : List (List Char)} {as : List α}
    (h : List.Forall₂ (Spells d) texts as) (hne : texts ≠ []) (rest rest' : List Char) :
    skipBlanks ([','].intercalate texts ++ rest) ≠ ']' :: rest' := by
  cases h with
  | nil => exact absurd rfl hne
  | @cons text a texts as ht hts =>
    obtain ⟨c, cs, hc, hbracket⟩ := ht.opens
    obtain ⟨more, hmore⟩ := exists_intercalate_cons [','] text texts
    rw [hmore, List.append_assoc, skipBlanks_append_of_cons hc]
    rintro ⟨⟩
    exact hbracket rfl

theorem spells_list {d : Decoder α} {texts : List (List Char)} {as : List α}
    (h : List.Forall₂ (Spells d) texts as) (hb : Blank b) :
    Spells (Decoder.list d) ('[' :: ([','].intercalate texts ++ (b ++ [']']))) as where
  read b' rest hb' _ := by
    refine ⟨rest, ?_, rfl⟩
    show Decoder.readList d _ = _
    rw [Decoder.readList, skipBlanks_opened hb' (by decide)]
    simp only [List.append_assoc, List.singleton_append]
    by_cases hne : texts = []
    · subst hne
      cases h
      have hclose : skipBlanks ([','].intercalate [] ++ (b ++ ']' :: rest)) = ']' :: rest := by
        rw [List.intercalate_nil, List.nil_append, skipBlanks_append hb]
        exact skipBlanks_cons (by decide) rest
      rw [hclose]
      rfl
    · split
      next rest' hs => exact absurd hs (skipBlanks_intercalate_ne h hne _ _)
      · exact Decoder.readElements_intercalate h hne hb rest
  opens := ⟨'[', _, rfl, by decide⟩

theorem spells_array {d : Decoder α} {toJson : α → String} (h : ∀ a, Spells d (toJson a).toList a)
    (as : List α) : Spells (Decoder.list d) (array (as.map toJson)).toList as := by
  have hopen : "[".toList = ['['] := rfl
  have hcomma : ",".toList = [','] := rfl
  have hclose : "]".toList = [']'] := rfl
  have helements : List.Forall₂ (Spells d) (as.map fun a => (toJson a).toList) as :=
    List.forall₂_map_left_iff.mpr (List.forall₂_same.mpr fun a _ => h a)
  rw [array, String.toList_append, String.toList_append, String.toList_intercalate, hopen, hcomma,
    hclose, List.map_map]
  exact spells_list helements blank_nil

end DeviceLibs.Json
