import DeviceLibs.Json.Skip
import DeviceLibs.Proofs.Json.Spelling
import DeviceLibs.Text.Cut

/-!
# The grammar of JSON

What a text between quotes stands for (`Spelt`), and which texts are values (`IsValue`), without a word on
how they are read. A string is read as what it stands for (`readString_of_spelt`). Any value is passed over
up to its end, however deep its brackets are (`skipValue_of_isValue`): the tokens of a value leave the
brackets that were open before it and a separator due (`passes_of_isValue`).
-/

namespace DeviceLibs.Json

/-! ### Texts -/

/-- Four digits in base sixteen, of either case. -/
inductive IsHex : List Char → Nat → Prop where
  | digits {a b c d : Char} {w x y z : Nat} (ha : Text.hexValue? a = some w)
    (hb : Text.hexValue? b = some x) (hc : Text.hexValue? c = some y)
    (hd : Text.hexValue? d = some z) :
    IsHex [a, b, c, d] (((w * 16 + x) * 16 + y) * 16 + z)

/-- The text between two quotes stands for the characters. -/
inductive Spelt : List Char → List Char → Prop where
  | nil : Spelt [] []
  | plain {c : Char} {text s : List Char} (hquote : c ≠ '"') (hescape : c ≠ '\\')
    (hprintable : ¬ c < ' ') (h : Spelt text s) : Spelt (c :: text) (c :: s)
  | escape {e c : Char} {text s : List Char} (he : simpleEscape? e = some c) (h : Spelt text s) :
    Spelt ('\\' :: e :: text) (c :: s)
  | unicode {digits text s : List Char} {n : Nat} (hn : IsHex digits n)
    (hwhole : n < 0xD800 ∨ 0xDFFF < n) (h : Spelt text s) :
    Spelt ('\\' :: 'u' :: (digits ++ text)) (.ofNat n :: s)
  | pair {digits digits' text s : List Char} {high low : Nat} (hhigh : IsHex digits high)
    (hlow : IsHex digits' low) (hhigh' : 0xD800 ≤ high ∧ high ≤ 0xDBFF)
    (hlow' : 0xDC00 ≤ low ∧ low ≤ 0xDFFF) (h : Spelt text s) :
    Spelt ('\\' :: 'u' :: (digits ++ '\\' :: 'u' :: (digits' ++ text))) (surrogatePair high low :: s)

def IsDigits (cs : List Char) : Prop := cs ≠ [] ∧ ∀ c ∈ cs, c.isDigit = true

/-- Digits without a superfluous zero in front. -/
inductive IsWhole : List Char → Prop where
  | zero : IsWhole ['0']
  | digits {c : Char} {cs : List Char} (hc : c ≠ '0') (h : IsDigits (c :: cs)) : IsWhole (c :: cs)

inductive IsFraction : List Char → Prop where
  | none : IsFraction []
  | digits {cs : List Char} (h : IsDigits cs) : IsFraction ('.' :: cs)

inductive IsExponent : List Char → Prop where
  | none : IsExponent []
  | digits {e : Char} {sign cs : List Char} (he : e = 'e' ∨ e = 'E')
    (hsign : sign = [] ∨ sign = ['+'] ∨ sign = ['-']) (h : IsDigits cs) :
    IsExponent (e :: (sign ++ cs))

inductive IsNumber : List Char → Prop where
  | mk {sign whole fraction exponent : List Char} (hsign : sign = [] ∨ sign = ['-'])
    (hwhole : IsWhole whole) (hfraction : IsFraction fraction) (hexponent : IsExponent exponent) :
    IsNumber (sign ++ (whole ++ (fraction ++ exponent)))

/-- A member of an object: a key, spelt in some way, and the text of a value. -/
structure Member where
  before : List Char
  spelling : List Char
  key : String
  behind : List Char
  value : List Char
  blank_before : Blank before
  spelt : Spelt spelling key.toList
  blank_behind : Blank behind

def Member.text (m : Member) : List Char :=
  m.before ++ '"' :: (m.spelling ++ '"' :: (m.behind ++ ':' :: m.value))

/-- Characters that need no escape stand for themselves. -/
theorem spelt_self {s : List Char} (h : ∀ c ∈ s, c ≠ '"' ∧ c ≠ '\\' ∧ ¬ c < ' ') : Spelt s s := by
  induction s with
  | nil => exact .nil
  | cons c s ih =>
    obtain ⟨⟨hquote, hescape, hprintable⟩, hs⟩ := List.forall_mem_cons.mp h
    exact .plain hquote hescape hprintable (ih hs)

/-- The member without blanks and escapes. -/
def Member.plain (key : String) (value : List Char)
    (h : ∀ c ∈ key.toList, c ≠ '"' ∧ c ≠ '\\' ∧ ¬ c < ' ') : Member where
  before := []
  spelling := key.toList
  key := key
  behind := []
  value := value
  blank_before := blank_nil
  spelt := spelt_self h
  blank_behind := blank_nil

/-- The text is a value, with blanks where they may be. -/
inductive IsValue : List Char → Prop where
  | null : IsValue "null".toList
  | boolean (b : Bool) : IsValue (boolean b).toList
  | number {text : List Char} (h : IsNumber text) : IsValue text
  | string {text s : List Char} (h : Spelt text s) : IsValue ('"' :: (text ++ ['"']))
  | array {texts : List (List Char)} {b : List Char} (h : ∀ text ∈ texts, IsValue text)
    (hb : Blank b) : IsValue ('[' :: ([','].intercalate texts ++ (b ++ [']'])))
  | object {members : List Member} {b : List Char} (h : ∀ m ∈ members, IsValue m.value)
    (hb : Blank b) :
    IsValue ('\x7b' :: ([','].intercalate (members.map Member.text) ++ (b ++ ['\x7d'])))
  | blank {b text b' : List Char} (hb : Blank b) (hb' : Blank b') (h : IsValue text) :
    IsValue (b ++ (text ++ b'))

variable {text s rest digits cs b : List Char} {n : Nat} {opened : List Bracket} {due : Due}

/-! ### Strings -/

theorem readHex_append (h : IsHex digits n) (rest : List Char) :
    readHex (digits ++ rest) = .ok (n, rest) := by
  cases h with
  | digits ha hb hc hd => simp only [List.cons_append, List.nil_append, readHex, ha, hb, hc, hd]

theorem readEscape_of_isHex (h : IsHex digits n) (hwhole : n < 0xD800 ∨ 0xDFFF < n)
    (rest : List Char) : readEscape ('u' :: (digits ++ rest)) = .ok (.ofNat n, rest) := by
  show readUnicode _ = _
  simp only [readUnicode, readHex_append h, bind, Except.bind]
  rw [if_neg (by omega), if_pos (by omega)]
  rfl

theorem readEscape_of_pair {digits' : List Char} {high low : Nat} (hhigh : IsHex digits high)
    (hlow : IsHex digits' low) (hhigh' : 0xD800 ≤ high ∧ high ≤ 0xDBFF)
    (hlow' : 0xDC00 ≤ low ∧ low ≤ 0xDFFF) (rest : List Char) :
    readEscape ('u' :: (digits ++ '\\' :: 'u' :: (digits' ++ rest))) =
      .ok (surrogatePair high low, rest) := by
  have hword : readWord ['\\', 'u'] ('\\' :: 'u' :: (digits' ++ rest)) = .ok (digits' ++ rest) :=
    readWord_append ['\\', 'u'] _
  show readUnicode _ = _
  simp only [readUnicode, readHex_append hhigh, bind, Except.bind]
  rw [if_neg (by omega), if_neg (by omega)]
  simp only [hword, readHex_append hlow]
  rw [if_neg (by omega)]
  rfl

/-- A string is read as what it stands for. -/
theorem readString_of_spelt (h : Spelt text s) (rest : List Char) :
    readString (text ++ '"' :: rest) = .ok (s, rest) := by
  induction h with
  | nil => simp [readString]
  | plain hquote hescape hprintable _ ih =>
    rw [List.cons_append, readString_of_plain hquote hescape hprintable, ih]
    rfl
  | @escape e c text s he _ ih =>
    have hescape : readEscape (e :: (text ++ '"' :: rest)) = .ok (c, text ++ '"' :: rest) := by
      rw [readEscape]
      · rw [he]
      · rintro rfl
        cases he
    rw [List.cons_append, List.cons_append, readString_of_escape hescape, ih]
    rfl
  | unicode hn hwhole _ ih =>
    rw [List.cons_append, List.cons_append, List.append_assoc,
      readString_of_escape (readEscape_of_isHex hn hwhole _), ih]
    rfl
  | pair hhigh hlow hhigh' hlow' _ ih =>
    simp only [List.cons_append, List.append_assoc]
    rw [readString_of_escape (readEscape_of_pair hhigh hlow hhigh' hlow' _), ih]
    rfl

theorem skipString_of_escape {e : List Char} (h : skipEscape e = .ok rest) :
    skipString ('\\' :: e) = skipString rest := by
  rw [skipString]
  split
  next hf => rw [h] at hf; cases hf
  next hf => rw [h] at hf; cases hf; rfl

theorem skipEscape_of_isHex (h : IsHex digits n) (rest : List Char) :
    skipEscape ('u' :: (digits ++ rest)) = .ok rest := by
  rw [skipEscape, readHex_append h]
  rfl

theorem skipString_of_spelt (h : Spelt text s) (rest : List Char) :
    skipString (text ++ '"' :: rest) = .ok rest := by
  induction h with
  | nil => simp [skipString]
  | plain hquote hescape hprintable _ ih =>
    rw [List.cons_append, skipString]
    · rw [if_neg hprintable, ih]
    · exact hquote
    · exact hescape
  | @escape e c text s he _ ih =>
    have hescape : skipEscape (e :: (text ++ '"' :: rest)) = .ok (text ++ '"' :: rest) := by
      rw [skipEscape]
      · rw [he]
        rfl
      · rintro rfl
        cases he
    rw [List.cons_append, List.cons_append, skipString_of_escape hescape, ih]
  | unicode hn _ _ ih =>
    rw [List.cons_append, List.cons_append, List.append_assoc,
      skipString_of_escape (skipEscape_of_isHex hn _), ih]
  | pair hhigh hlow _ _ _ ih =>
    simp only [List.cons_append, List.append_assoc]
    rw [skipString_of_escape (skipEscape_of_isHex hhigh _),
      skipString_of_escape (skipEscape_of_isHex hlow _), ih]

/-! ### Numbers -/

theorem isDigits_singleton {c : Char} (h : c.isDigit = true) : IsDigits [c] := by
  refine ⟨List.cons_ne_nil _ _, fun d hd => ?_⟩
  rw [List.mem_singleton.mp hd]
  exact h

theorem IsWhole.isDigits (h : IsWhole cs) : IsDigits cs := by
  cases h with
  | zero => exact isDigits_singleton rfl
  | digits _ h => exact h

theorem IsWhole.exists_cons (h : IsWhole cs) : ∃ c cs', cs = c :: cs' ∧ c.isDigit = true := by
  obtain ⟨c, cs', rfl⟩ := List.exists_cons_of_ne_nil h.isDigits.1
  exact ⟨c, cs', rfl, h.isDigits.2 c List.mem_cons_self⟩

theorem IsDigits.readDigits_append (h : IsDigits digits) (hr : ∀ c ∈ rest.head?, c.isDigit = false) :
    readDigits (digits ++ rest) = .ok (digits, rest) :=
  readDigits_append_of_all h.2 h.1 hr

theorem exists_readExponent (h : IsExponent cs) (hr : EndsNumber rest) :
    ∃ e, readExponent (cs ++ rest) = .ok (e, rest) ∧ (e = none ↔ cs = []) := by
  cases h with
  | none =>
    refine ⟨none, ?_, by simp⟩
    rw [List.nil_append, readExponent]
    · rintro cs rfl
      exact (hr 'e' rfl).2.2.1 rfl
    · rintro cs rfl
      exact (hr 'E' rfl).2.2.2 rfl
  | @digits e sign cs he hsign h =>
    have hread : ∀ negative, readExponentDigits negative (cs ++ rest) =
        .ok (some (negative, cs), rest) := by
      intro negative
      rw [readExponentDigits, h.readDigits_append fun c hc => (hr c hc).1]
      rfl
    have hsigned : ∃ p, readSignedExponent (sign ++ cs ++ rest) = .ok (some p, rest) := by
      rcases hsign with rfl | rfl | rfl
      · obtain ⟨c, cs', rfl⟩ := List.exists_cons_of_ne_nil h.1
        have hc := h.2 c List.mem_cons_self
        refine ⟨(false, c :: cs'), ?_⟩
        rw [List.nil_append, readSignedExponent]
        · exact hread false
        all_goals
          rintro cs ⟨⟩
          cases hc
      · exact ⟨_, hread false⟩
      · exact ⟨_, hread true⟩
    obtain ⟨p, hp⟩ := hsigned
    rcases he with rfl | rfl <;> exact ⟨some p, hp, by simp⟩

theorem head_exponent (h : IsExponent cs) (hr : EndsNumber rest) :
    ∀ c ∈ (cs ++ rest).head?, c.isDigit = false ∧ c ≠ '.' := by
  cases h with
  | none => exact fun c hc => ⟨(hr c hc).1, (hr c hc).2.1⟩
  | digits he _ _ =>
    rintro c ⟨⟩
    rcases he with rfl | rfl <;> decide

/-- The digits of a fraction are what stands behind its point. -/
theorem IsFraction.readFraction_append (h : IsFraction cs)
    (hr : ∀ c ∈ rest.head?, c.isDigit = false ∧ c ≠ '.') :
    readFraction (cs ++ rest) = .ok (cs.tail, rest) := by
  cases h with
  | none =>
    rw [List.nil_append, readFraction]
    · rfl
    · rintro cs rfl
      exact (hr '.' rfl).2 rfl
  | digits h => exact h.readDigits_append fun c hc => (hr c hc).1

theorem head_fraction (h : IsFraction cs) (hr : ∀ c ∈ rest.head?, c.isDigit = false ∧ c ≠ '.') :
    ∀ c ∈ (cs ++ rest).head?, c.isDigit = false := by
  cases h with
  | none => exact fun c hc => (hr c hc).1
  | digits _ =>
    rintro c ⟨⟩
    decide

theorem IsWhole.readWhole_append (h : IsWhole cs) (hr : ∀ c ∈ rest.head?, c.isDigit = false) :
    readWhole (cs ++ rest) = .ok (cs, rest) := by
  cases h with
  | zero =>
    have hnext : (rest.head?.map Char.isDigit).getD false = false := by
      cases rest with
      | nil => rfl
      | cons c cs => exact hr c rfl
    rw [List.singleton_append, readWhole, hnext]
    rfl
  | @digits c cs hc h =>
    rw [List.cons_append, readWhole, ← List.cons_append]
    · exact h.readDigits_append hr
    · rintro cs ⟨⟩
      exact hc rfl

theorem exists_readNumeral {whole fraction exponent : List Char} (hwhole : IsWhole whole)
    (hfraction : IsFraction fraction) (hexponent : IsExponent exponent) (hr : EndsNumber rest) :
    ∃ e, readNumeral (whole ++ (fraction ++ exponent) ++ rest) =
      .ok (⟨whole, fraction.tail, e⟩, rest) ∧ (e = none ↔ exponent = []) := by
  have hhead := head_exponent hexponent hr
  obtain ⟨e, he, hnone⟩ := exists_readExponent hexponent hr
  refine ⟨e, ?_, hnone⟩
  simp only [List.append_assoc, readNumeral, hwhole.readWhole_append (head_fraction hfraction hhead),
    hfraction.readFraction_append hhead, he, bind, Except.bind]
  rfl

/-- A number opens with its sign or a digit. -/
theorem skipScalar_of_isNumber (h : IsNumber text) (hr : EndsNumber rest) :
    (∃ c cs, text = c :: cs ∧ (c = '-' ∨ c.isDigit = true)) ∧ skipScalar (text ++ rest) = .ok rest := by
  obtain ⟨hsign, hwhole, hfraction, hexponent⟩ := h
  rename_i sign whole fraction exponent
  obtain ⟨e, hnumeral, -⟩ := exists_readNumeral hwhole hfraction hexponent hr
  obtain ⟨c, cs, rfl, hc⟩ := hwhole.exists_cons
  have hskip : skipNumber (c :: cs ++ (fraction ++ exponent) ++ rest) = .ok rest := by
    rw [skipNumber, hnumeral]
  rcases hsign with rfl | rfl
  · refine ⟨⟨c, _, rfl, .inr hc⟩, ?_⟩
    simp only [List.nil_append, List.cons_append] at hskip ⊢
    rw [skipScalar]
    · rw [if_pos hc, hskip]
    all_goals
      rintro rfl
      cases hc
  · exact ⟨⟨'-', _, rfl, .inl rfl⟩, hskip⟩

/-! ### Values -/

theorem skipFrom_step {opened' : List Bracket} {due' : Due} (hdue : opened ≠ [] ∨ due ≠ .separator)
    (h : step opened due (skipBlanks cs) = .ok (opened', due', rest)) :
    skipFrom opened due cs = skipFrom opened' due' rest := by
  rw [skipFrom, if_neg (by tauto)]
  split
  next hf => rw [h] at hf; cases hf
  next hf => rw [h] at hf; cases hf; rfl

theorem skipFrom_blank (hb : Blank b) (hdue : opened ≠ [] ∨ due ≠ .separator) (cs : List Char) :
    skipFrom opened due (b ++ cs) = skipFrom opened due cs := by
  rw [skipFrom, skipFrom.eq_def opened due cs, skipBlanks_append hb, if_neg (by tauto),
    if_neg (by tauto)]

/-- From where a token is due, the tokens of the text are passed over up to where a separator is. -/
def Passes (opened : List Bracket) (due : Due) (text : List Char) : Prop :=
  ∀ rest, EndsNumber rest →
    ∃ b, Blank b ∧ skipFrom opened due (text ++ rest) = skipFrom opened .separator (b ++ rest)

theorem passes_blank {b' : List Char} (hb : Blank b) (hb' : Blank b') (hdue : due ≠ .separator)
    (h : Passes opened due text) : Passes opened due (b ++ (text ++ b')) := by
  intro rest hr
  obtain ⟨b'', hb'', hskip⟩ := h (b' ++ rest) (endsNumber_append hb' hr)
  refine ⟨b'' ++ b', fun c hc => (List.mem_append.mp hc).elim (hb'' c) (hb' c), ?_⟩
  rw [List.append_assoc, List.append_assoc, List.append_assoc, skipFrom_blank hb (.inr hdue), hskip]

/-- What opens as neither a list nor an object is one token. -/
theorem passes_scalar {c : Char} (hdue : due = .value ∨ due = .valueOrEnd) (hopen : text = c :: cs)
    (hc : isBlank c = false ∧ c ≠ '[' ∧ c ≠ '\x7b' ∧ c ≠ ']')
    (hskip : ∀ rest, EndsNumber rest → skipScalar (text ++ rest) = .ok rest) :
    Passes opened due text := by
  intro rest hr
  obtain ⟨hblank, hlist, hobject, hend⟩ := hc
  have hscalar : skipScalar (c :: (cs ++ rest)) = .ok rest := by
    rw [← List.cons_append, ← hopen, hskip rest hr]
  have hvalue : stepValue opened (c :: (cs ++ rest)) = .ok (opened, .separator, rest) := by
    rw [stepValue]
    · rw [hscalar]
      rfl
    · rintro cs ⟨⟩
      exact hlist rfl
    · rintro cs ⟨⟩
      exact hobject rfl
  have hstep : step opened due (skipBlanks (text ++ rest)) = .ok (opened, .separator, rest) := by
    rw [hopen, List.cons_append, skipBlanks_cons hblank]
    rcases hdue with rfl | rfl
    · exact hvalue
    · rw [step]
      · exact hvalue
      · rintro cs ⟨⟩
        exact hend rfl
  refine ⟨[], blank_nil, skipFrom_step (.inr ?_) hstep⟩
  rcases hdue with rfl | rfl <;> decide

namespace Bracket

def opening : Bracket → Char
  | list => '['
  | object => '\x7b'

def closing : Bracket → Char
  | list => ']'
  | object => '\x7d'

/-- What is due behind the opening bracket. -/
def first : Bracket → Due
  | list => .valueOrEnd
  | object => .keyOrEnd

/-- What is due behind a comma. -/
def next : Bracket → Due
  | list => .value
  | object => .key

variable (bracket : Bracket)

theorem isBlank_opening : isBlank bracket.opening = false := by cases bracket <;> rfl

theorem isBlank_closing : isBlank bracket.closing = false := by cases bracket <;> rfl

theorem step_opening (hdue : due = .value ∨ due = .valueOrEnd) (cs : List Char) :
    step opened due (bracket.opening :: cs) = .ok (bracket :: opened, bracket.first, cs) := by
  rcases hdue with rfl | rfl <;> cases bracket <;> rfl

theorem step_closing (cs : List Char) :
    step (bracket :: opened) bracket.first (bracket.closing :: cs) = .ok (opened, .separator, cs) := by
  cases bracket <;> rfl

theorem stepSeparator_comma (cs : List Char) :
    stepSeparator (bracket :: opened) (',' :: cs) = .ok (bracket :: opened, bracket.next, cs) := by
  cases bracket <;> rfl

theorem stepSeparator_closing (cs : List Char) :
    stepSeparator (bracket :: opened) (bracket.closing :: cs) = .ok (opened, .separator, cs) := by
  cases bracket <;> rfl

end Bracket

section

variable {bracket : Bracket} {texts : List (List Char)}

theorem endsNumber_items (bracket : Bracket) (hb : Blank b) (texts : List (List Char))
    (rest : List Char) :
    EndsNumber (texts.flatMap (',' :: ·) ++ (b ++ bracket.closing :: rest)) := by
  cases texts with
  | nil =>
    have hclosing : EndsNumber (bracket.closing :: rest) :=
      endsNumber_cons (by cases bracket <;> decide) rest
    rw [List.flatMap_nil, List.nil_append]
    exact endsNumber_append hb hclosing
  | cons text texts => exact endsNumber_cons (by decide) _

/-- The items behind the first, up to the bracket that closes them. -/
theorem skipFrom_items (htexts : ∀ text ∈ texts, Passes (bracket :: opened) bracket.next text)
    (hb : Blank b) (rest : List Char) :
    skipFrom (bracket :: opened) .separator
        (texts.flatMap (',' :: ·) ++ (b ++ bracket.closing :: rest)) =
      skipFrom opened .separator rest := by
  have hne : bracket :: opened ≠ [] := List.cons_ne_nil _ _
  induction texts with
  | nil =>
    refine skipFrom_step (.inl hne) ?_
    rw [List.flatMap_nil, List.nil_append, skipBlanks_append hb,
      skipBlanks_cons bracket.isBlank_closing]
    exact bracket.stepSeparator_closing rest
  | cons text texts ih =>
    obtain ⟨htext, htexts⟩ := List.forall_mem_cons.mp htexts
    obtain ⟨b', hb', hskip⟩ := htext _ (endsNumber_items bracket hb texts rest)
    have hstep : step (bracket :: opened) .separator (skipBlanks
        (',' :: (text ++ (texts.flatMap (',' :: ·) ++ (b ++ bracket.closing :: rest))))) =
          .ok (bracket :: opened, bracket.next,
            text ++ (texts.flatMap (',' :: ·) ++ (b ++ bracket.closing :: rest))) := by
      rw [skipBlanks_cons (by decide)]
      exact bracket.stepSeparator_comma _
    rw [List.flatMap_cons, List.append_assoc, List.cons_append, skipFrom_step (.inl hne) hstep,
      hskip, skipFrom_blank hb' (.inl hne), ih htexts]

theorem passes_bracketed (bracket : Bracket) (hdue : due = .value ∨ due = .valueOrEnd) (hb : Blank b)
    (htexts : ∀ text ∈ texts, Passes (bracket :: opened) bracket.first text ∧
      Passes (bracket :: opened) bracket.next text) :
    Passes opened due
      (bracket.opening :: ([','].intercalate texts ++ (b ++ [bracket.closing]))) := by
  intro rest hr
  have hne : bracket :: opened ≠ [] := List.cons_ne_nil _ _
  have hdue' : due ≠ .separator := by rcases hdue with rfl | rfl <;> decide
  have htext : bracket.opening :: ([','].intercalate texts ++ (b ++ [bracket.closing])) ++ rest =
      bracket.opening :: ([','].intercalate texts ++ (b ++ bracket.closing :: rest)) := by simp
  have hstep : step opened due (skipBlanks
      (bracket.opening :: ([','].intercalate texts ++ (b ++ bracket.closing :: rest)))) =
        .ok (bracket :: opened, bracket.first,
          [','].intercalate texts ++ (b ++ bracket.closing :: rest)) := by
    rw [skipBlanks_cons bracket.isBlank_opening, bracket.step_opening hdue]
  refine ⟨[], blank_nil, ?_⟩
  rw [htext, List.nil_append, skipFrom_step (.inr hdue') hstep]
  cases texts with
  | nil =>
    refine skipFrom_step (.inl hne) ?_
    rw [List.intercalate_nil, List.nil_append, skipBlanks_append hb,
      skipBlanks_cons bracket.isBlank_closing, bracket.step_closing]
  | cons text texts =>
    obtain ⟨⟨hfirst, -⟩, hrest⟩ := List.forall_mem_cons.mp htexts
    obtain ⟨b', hb', hskip⟩ := hfirst _ (endsNumber_items bracket hb texts rest)
    rw [Text.intercalate_cons, List.append_assoc, hskip, skipFrom_blank hb' (.inl hne),
      skipFrom_items (fun text h => (hrest text h).2) hb]

end

theorem skipBlanks_member (m : Member) (rest : List Char) :
    skipBlanks (m.text ++ rest) =
      '"' :: (m.spelling ++ '"' :: (m.behind ++ ':' :: (m.value ++ rest))) := by
  simp only [Member.text, List.append_assoc, List.cons_append, skipBlanks_append m.blank_before]
  rw [skipBlanks_cons (by decide)]

/-- A member is passed over as its value is. -/
theorem passes_member {m : Member} (hdue : due = .key ∨ due = .keyOrEnd)
    (h : Passes opened .value m.value) : Passes opened due m.text := by
  intro rest hr
  obtain ⟨b, hb, hskip⟩ := h rest hr
  have hcolon := readColon_append m.blank_behind (m.value ++ rest)
  have hkey : stepKey opened
      ('"' :: (m.spelling ++ '"' :: (m.behind ++ ':' :: (m.value ++ rest)))) =
        .ok (opened, .value, m.value ++ rest) := by
    simp only [stepKey, skipString_of_spelt m.spelt, hcolon, bind, Except.bind]
    rfl
  have hstep : step opened due (skipBlanks (m.text ++ rest)) =
      .ok (opened, .value, m.value ++ rest) := by
    rw [skipBlanks_member]
    rcases hdue with rfl | rfl <;> exact hkey
  refine ⟨b, hb, ?_⟩
  rw [skipFrom_step (.inr (by rcases hdue with rfl | rfl <;> decide)) hstep, hskip]

/-- The tokens of a value leave the brackets that were open before it and a separator due. -/
theorem passes_of_isValue (h : IsValue text) (opened : List Bracket)
    (hdue : due = .value ∨ due = .valueOrEnd) : Passes opened due text := by
  induction h generalizing opened due with
  | null => exact passes_scalar hdue rfl (by decide) fun rest _ => readWord_append ['u', 'l', 'l'] rest
  | boolean b =>
    cases b with
    | true =>
      exact passes_scalar hdue rfl (by decide) fun rest _ => readWord_append ['r', 'u', 'e'] rest
    | false =>
      exact passes_scalar hdue rfl (by decide) fun rest _ => readWord_append ['a', 'l', 's', 'e'] rest
  | number h =>
    obtain ⟨⟨c, cs, hopen, hc⟩, -⟩ := skipScalar_of_isNumber h endsNumber_nil
    refine passes_scalar hdue hopen ?_ fun rest hr => (skipScalar_of_isNumber h hr).2
    rcases hc with rfl | hc
    · decide
    · refine ⟨isBlank_of_isDigit hc, ?_, ?_, ?_⟩
      all_goals
        rintro rfl
        cases hc
  | string h =>
    refine passes_scalar hdue rfl (by decide) fun rest _ => ?_
    rw [List.cons_append, List.append_assoc]
    exact skipString_of_spelt h rest
  | array _ hb ih =>
    refine passes_bracketed .list hdue hb fun text h => ⟨?_, ?_⟩
    · exact ih text h _ (.inr rfl)
    · exact ih text h _ (.inl rfl)
  | object _ hb ih =>
    refine passes_bracketed .object hdue hb fun text h => ?_
    obtain ⟨m, hm, rfl⟩ := List.mem_map.mp h
    exact ⟨passes_member (.inr rfl) (ih m hm _ (.inl rfl)),
      passes_member (.inl rfl) (ih m hm _ (.inl rfl))⟩
  | blank hb hb' _ ih =>
    exact passes_blank hb hb' (by rcases hdue with rfl | rfl <;> decide) (ih opened hdue)

/-- A value is passed over up to its end, or to blanks behind it. -/
theorem skipValue_of_isValue (h : IsValue text) (hr : EndsNumber rest) :
    ∃ b, Blank b ∧ skipValue (text ++ rest) = .ok (b ++ rest) := by
  obtain ⟨b, hb, hskip⟩ := passes_of_isValue h [] (.inl rfl) rest hr
  refine ⟨b, hb, ?_⟩
  rw [skipValue, hskip, skipFrom, if_pos ⟨rfl, rfl⟩]

end DeviceLibs.Json
