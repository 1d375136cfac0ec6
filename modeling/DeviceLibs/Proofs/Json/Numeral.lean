import DeviceLibs.Proofs.Json.Grammar
import DeviceLibs.Proofs.ProcessorName
import DeviceLibs.Trace
import Mathlib.Data.List.DropRight

/-!
# Numbers where 32 bits are due

A number passes through several ranges before it is taken or refused: 64 bits without a sign, 64 bits with
one, floats. `ReadsAsUInt32` says by its digits alone what becomes of it; that is what comes out of a text,
at any length and with blanks at both ends (`readsAsUInt32_decode`). Texts that are no number of the grammar
are not taken at all (`isNumber_of_decode`).
-/

namespace DeviceLibs.Json

open Text (placeValue)

variable {cs rest digits whole fraction exponent b b' : List Char} {negative : Bool}

/-! ### What is read is a number -/

theorem isDigits_of_readDigits (h : readDigits cs = .ok (digits, rest)) :
    IsDigits digits ∧ cs = digits ++ rest := by
  obtain ⟨hsplit, hne⟩ := readDigits_append h
  refine ⟨⟨hne, ?_⟩, hsplit⟩
  unfold readDigits at h
  split at h
  · cases h
  · cases h
  · cases h
    exact fun c hc => List.mem_takeWhile_imp hc

theorem isWhole_of_readWhole (h : readWhole cs = .ok (digits, rest)) :
    IsWhole digits ∧ cs = digits ++ rest := by
  unfold readWhole at h
  split at h
  · split_ifs at h
    cases h
    exact ⟨.zero, rfl⟩
  next hzero =>
    obtain ⟨hdigits, rfl⟩ := isDigits_of_readDigits h
    obtain ⟨c, ds, rfl⟩ := List.exists_cons_of_ne_nil hdigits.1
    refine ⟨.digits ?_ hdigits, rfl⟩
    rintro rfl
    exact hzero _ rfl

theorem exists_isFraction_of_readFraction (h : readFraction cs = .ok (digits, rest)) :
    ∃ fraction, IsFraction fraction ∧ cs = fraction ++ rest := by
  unfold readFraction at h
  split at h
  · obtain ⟨hdigits, rfl⟩ := isDigits_of_readDigits h
    exact ⟨_, .digits hdigits, rfl⟩
  · cases h
    exact ⟨[], .none, rfl⟩

theorem exists_digits_of_readExponentDigits {e : Option (Bool × List Char)}
    (h : readExponentDigits negative cs = .ok (e, rest)) :
    ∃ digits, IsDigits digits ∧ cs = digits ++ rest := by
  obtain ⟨⟨digits, rest'⟩, hread, heq⟩ := exists_of_map h
  cases heq
  exact ⟨digits, isDigits_of_readDigits hread⟩

theorem exists_digits_of_readSignedExponent {e : Option (Bool × List Char)}
    (h : readSignedExponent cs = .ok (e, rest)) :
    ∃ sign digits, (sign = [] ∨ sign = ['+'] ∨ sign = ['-']) ∧ IsDigits digits ∧
      cs = sign ++ digits ++ rest := by
  unfold readSignedExponent at h
  split at h
  all_goals
    obtain ⟨digits, hdigits, rfl⟩ := exists_digits_of_readExponentDigits h
  · exact ⟨['+'], digits, .inr (.inl rfl), hdigits, rfl⟩
  · exact ⟨['-'], digits, .inr (.inr rfl), hdigits, rfl⟩
  · exact ⟨[], digits, .inl rfl, hdigits, rfl⟩

theorem exists_isExponent_of_readExponent {e : Option (Bool × List Char)}
    (h : readExponent cs = .ok (e, rest)) :
    ∃ exponent, IsExponent exponent ∧ cs = exponent ++ rest := by
  unfold readExponent at h
  split at h
  · obtain ⟨sign, digits, hsign, hdigits, rfl⟩ := exists_digits_of_readSignedExponent h
    exact ⟨_, .digits (.inl rfl) hsign hdigits, rfl⟩
  · obtain ⟨sign, digits, hsign, hdigits, rfl⟩ := exists_digits_of_readSignedExponent h
    exact ⟨_, .digits (.inr rfl) hsign hdigits, rfl⟩
  · cases h
    exact ⟨[], .none, rfl⟩

/-- What is read from behind a sign makes a number with it. -/
theorem exists_isNumber_of_readNumeral {sign : List Char} {n : Numeral}
    (hsign : sign = [] ∨ sign = ['-']) (h : readNumeral cs = .ok (n, rest)) :
    ∃ number, IsNumber number ∧ sign ++ cs = number ++ rest := by
  obtain ⟨⟨whole, cs₁⟩, hreadWhole, h⟩ := Traced.exists_of_bind h
  obtain ⟨⟨digits, cs₂⟩, hreadFraction, h⟩ := Traced.exists_of_bind h
  obtain ⟨⟨e, cs₃⟩, hreadExponent, h⟩ := Traced.exists_of_bind h
  cases h
  obtain ⟨hwhole, rfl⟩ := isWhole_of_readWhole hreadWhole
  obtain ⟨fraction, hfraction, rfl⟩ := exists_isFraction_of_readFraction hreadFraction
  obtain ⟨exponent, hexponent, rfl⟩ := exists_isExponent_of_readExponent hreadExponent
  exact ⟨_, .mk hsign hwhole hfraction hexponent, by simp only [List.append_assoc]⟩

theorem exists_isNumber_of_readNumber {n : Number} (h : readNumber cs = .ok (n, rest)) :
    ∃ number, IsNumber number ∧ cs = number ++ rest := by
  unfold readNumber at h
  split at h
  next negative cs' hcs =>
    obtain ⟨⟨numeral, rest'⟩, hnumeral, h⟩ := Traced.exists_of_bind h
    dsimp only at h
    split at h
    · cases h
      split at hcs
      · cases hcs
        exact exists_isNumber_of_readNumeral (.inr rfl) hnumeral
      · cases hcs
        exact exists_isNumber_of_readNumeral (.inl rfl) hnumeral
    · cases h

/-! ### What the digits are worth -/

/-- A whole number is written as it stands. -/
theorem IsWhole.toDigits_placeValue (h : IsWhole cs) : Nat.toDigits 10 (placeValue cs) = cs := by
  have hdigits : Text.IsNumeral (.ofList cs) := by
    refine ⟨fun hnil => h.isDigits.1 ?_, by rw [String.toList_ofList]; exact h.isDigits.2⟩
    rw [← String.toList_ofList (l := cs), hnil]
    rfl
  have hzero : ¬ Text.HasSpareZero (.ofList cs) := by
    rintro ⟨c, cs', hcs⟩
    rw [String.toList_ofList] at hcs
    subst hcs
    cases h with
    | digits hc _ => exact hc rfl
  have hwritten := Text.toDigits_placeValue hdigits hzero
  rwa [String.toList_ofList] at hwritten

theorem isWhole_toDigits (n : Nat) : IsWhole (Nat.toDigits 10 n) := by
  rcases Nat.eq_zero_or_pos n with rfl | hn
  · exact .zero
  · obtain ⟨c, cs, hcs, hc⟩ := Text.exists_toDigits_eq_cons hn
    rw [hcs]
    refine .digits hc ⟨List.cons_ne_nil _ _, ?_⟩
    rw [← hcs]
    exact fun d hd => Text.isDigit_of_mem_toDigits hd

theorem placeValue_toDigits (n : Nat) : placeValue (Nat.toDigits 10 n) = n := by
  rw [← Text.ofDigitChars_eq_placeValue, Nat.ofDigitChars_ten_toDigits]

/-- Digits are left over from a number that 64 bits do not hold. -/
theorem absorb_snd_ne_nil {k : Nat} (hk : k < UInt64.size)
    (h : UInt64.size ≤ Nat.ofDigitChars 10 digits k) : (absorb k digits).2 ≠ [] := by
  induction digits generalizing k with
  | nil => exact absurd hk (Nat.not_lt.mpr h)
  | cons c cs ih =>
    rw [Nat.ofDigitChars_cons, Nat.mul_comm] at h
    rw [absorb]
    split
    · exact List.cons_ne_nil _ _
    -- the digits so far fit, so one of those to come does not
    next hfits => exact ih (Nat.not_le.mp hfits) h

/-! ### Ranges -/

/-- What stands in front of the digits. -/
def signOf : Bool → List Char
  | true => ['-']
  | false => []

/-- A fault of a number that is no integer of 64 bits: it is taken as a float or, if it is too large for
one, it is malformed. -/
inductive FloatFault (negative : Bool) : Fault → Prop where
  | float (x : Binary64) : FloatFault negative (.mismatch (.wrongType (.float negative x) "u32"))
  | infinite : FloatFault negative .malformed

/-- What a number is read as where one of 32 bits is due. -/
inductive ReadsAsUInt32 : List Char → Except Fault UInt32 → Prop where
  | fits {digits : List Char} {v : UInt32} (h : IsWhole digits) (hvalue : placeValue digits = v.toNat) :
    ReadsAsUInt32 digits (.ok v)
  /-- An integer of 64 bits without a sign. -/
  | large {digits : List Char} (h : IsWhole digits) (hlow : 2 ^ 32 ≤ placeValue digits)
    (hhigh : placeValue digits < 2 ^ 64) :
    ReadsAsUInt32 digits (.error (.mismatch (.outOfRange (placeValue digits) "u32")))
  /-- An integer of 64 bits with a sign. -/
  | negative {digits : List Char} (h : IsWhole digits) (hlow : 0 < placeValue digits)
    (hhigh : placeValue digits ≤ 2 ^ 63) :
    ReadsAsUInt32 ('-' :: digits) (.error (.mismatch (.outOfRange (-placeValue digits) "u32")))
  | huge {digits : List Char} {f : Fault} (h : IsWhole digits) (hlow : 2 ^ 64 ≤ placeValue digits)
    (hf : FloatFault false f) : ReadsAsUInt32 digits (.error f)
  /-- Minus zero is no integer either. -/
  | negativeFloat {digits : List Char} {f : Fault} (h : IsWhole digits)
    (hvalue : placeValue digits = 0 ∨ 2 ^ 63 < placeValue digits) (hf : FloatFault true f) :
    ReadsAsUInt32 ('-' :: digits) (.error f)
  /-- A fraction or an exponent makes a float, also where its value is an integer. -/
  | float {whole fraction exponent : List Char} {negative : Bool} {f : Fault} (hwhole : IsWhole whole)
    (hfraction : IsFraction fraction) (hexponent : IsExponent exponent)
    (hfloat : fraction ≠ [] ∨ exponent ≠ []) (hf : FloatFault negative f) :
    ReadsAsUInt32 (signOf negative ++ (whole ++ (fraction ++ exponent))) (.error f)

theorem ReadsAsUInt32.whole_of_ok {v : UInt32} (h : ReadsAsUInt32 cs (.ok v)) :
    IsWhole cs ∧ placeValue cs = v.toNat := by
  cases h with
  | fits hwhole hvalue => exact ⟨hwhole, hvalue⟩

/-- What is made of a number, where `none` is one that is too large. -/
def numberOutcome : Option Number → Except Fault UInt32
  | none => .error .malformed
  | some n => Decoder.toUInt32 n

theorem exists_floatFault (negative : Bool) {n : Numeral}
    (h : ¬ ((absorb 0 n.whole).2 = [] ∧ n.fraction = [] ∧ n.exponent = none)) :
    ∃ f, FloatFault negative f ∧ numberOutcome (n.number? negative) = .error f := by
  cases habsorb : absorb 0 n.whole with
  | mk whole dropped =>
    rw [habsorb] at h
    rw [Numeral.number?, habsorb]
    simp only [if_neg h]
    cases scale? _ _ with
    | none => exact ⟨_, .infinite, rfl⟩
    | some x => exact ⟨_, .float x, rfl⟩

/-- An integer, when its digits are few enough. -/
theorem number?_whole (hsize : placeValue digits < 2 ^ 64) :
    Numeral.number? false ⟨digits, [], none⟩ = some (.integer (placeValue digits)) ∧
    Numeral.number? true ⟨digits, [], none⟩ =
      if placeValue digits = 0 ∨ 2 ^ 63 < placeValue digits
      then some (.float true (.ofRatio (placeValue digits) 1))
      else some (.integer (-placeValue digits)) := by
  rw [← Text.ofDigitChars_eq_placeValue] at hsize
  have habsorb := absorb_eq hsize
  rw [Text.ofDigitChars_eq_placeValue] at habsorb
  constructor <;> simp [Numeral.number?, habsorb]

theorem numberOutcome_integer {v : UInt32} (hvalue : placeValue digits = v.toNat) :
    numberOutcome (some (.integer (placeValue digits))) = .ok v := by
  rw [hvalue]
  exact toUInt32_integer v

theorem numberOutcome_outOfRange {n : Int} (h : n < 0 ∨ 2 ^ 32 ≤ n) :
    numberOutcome (some (.integer n)) = .error (.mismatch (.outOfRange n "u32")) := by
  have hsize : (UInt32.size : Int) = 2 ^ 32 := rfl
  refine if_neg ?_
  rintro ⟨hlow, hhigh⟩
  omega

/-- An integer of 64 bits, with or without a sign. -/
theorem readsAsUInt32_of_lt (h : IsWhole digits) (hsize : placeValue digits < 2 ^ 64) :
    ReadsAsUInt32 (signOf negative ++ digits)
      (numberOutcome (Numeral.number? negative ⟨digits, [], none⟩)) := by
  obtain ⟨hplain, hminus⟩ := number?_whole hsize
  cases negative with
  | false =>
    show ReadsAsUInt32 digits _
    rw [hplain]
    by_cases hfits : placeValue digits < 2 ^ 32
    · have hvalue : placeValue digits = (UInt32.ofNat (placeValue digits)).toNat :=
        (UInt32.toNat_ofNat_of_lt' hfits).symm
      rw [numberOutcome_integer hvalue]
      exact .fits h hvalue
    · rw [numberOutcome_outOfRange (.inr (by omega))]
      exact .large h (Nat.not_lt.mp hfits) hsize
  | true =>
    show ReadsAsUInt32 ('-' :: digits) _
    rw [hminus]
    split_ifs with hfloat
    · exact .negativeFloat h hfloat (.float _)
    · rw [numberOutcome_outOfRange (.inl (by omega))]
      exact .negative h (by omega) (by omega)

theorem readsAsUInt32_of_le (h : IsWhole digits) (hsize : 2 ^ 64 ≤ placeValue digits) :
    ReadsAsUInt32 (signOf negative ++ digits)
      (numberOutcome (Numeral.number? negative ⟨digits, [], none⟩)) := by
  rw [← Text.ofDigitChars_eq_placeValue] at hsize
  have hleft : (absorb 0 digits).2 ≠ [] := absorb_snd_ne_nil (by decide) hsize
  rw [Text.ofDigitChars_eq_placeValue] at hsize
  obtain ⟨f, hf, hread⟩ := exists_floatFault negative (n := ⟨digits, [], none⟩)
    fun hall => hleft hall.1
  rw [hread]
  cases negative with
  | false => exact .huge h hsize hf
  | true =>
    show ReadsAsUInt32 ('-' :: digits) _
    exact .negativeFloat h (.inr (by omega)) hf

theorem IsFraction.tail_ne_nil (h : IsFraction fraction) (hne : fraction ≠ []) :
    fraction.tail ≠ [] := by
  cases h with
  | none => exact absurd rfl hne
  | digits h => exact h.1

theorem readsAsUInt32_numberOutcome {e : Option (Bool × List Char)} (hwhole : IsWhole whole)
    (hfraction : IsFraction fraction) (hexponent : IsExponent exponent)
    (he : e = none ↔ exponent = []) :
    ReadsAsUInt32 (signOf negative ++ (whole ++ (fraction ++ exponent)))
      (numberOutcome (Numeral.number? negative ⟨whole, fraction.tail, e⟩)) := by
  by_cases hplain : fraction = [] ∧ exponent = []
  · obtain ⟨rfl, rfl⟩ := hplain
    obtain rfl := he.mpr rfl
    rw [List.append_nil, List.append_nil]
    exact (Nat.lt_or_ge (placeValue whole) (2 ^ 64)).elim (readsAsUInt32_of_lt hwhole)
      (readsAsUInt32_of_le hwhole)
  · have hfloat : fraction ≠ [] ∨ exponent ≠ [] := by tauto
    have hinexact : ¬ ((absorb 0 whole).2 = [] ∧ fraction.tail = [] ∧ e = none) := by
      rintro ⟨-, htail, hnone⟩
      rcases hfloat with hne | hne
      · exact hfraction.tail_ne_nil hne htail
      · exact hne (he.mp hnone)
    obtain ⟨f, hf, hread⟩ := exists_floatFault negative (n := ⟨whole, fraction.tail, e⟩) hinexact
    rw [hread]
    exact .float hwhole hfraction hexponent hfloat hf

/-! ### Whole texts -/

/-- The text without the blanks at its ends. -/
def trimmed (text : String) : String :=
  .ofList ((text.toList.dropWhile isBlank).rdropWhile isBlank)

theorem exists_blank_trimmed (text : String) :
    ∃ b b', Blank b ∧ Blank b' ∧ text.toList = b ++ ((trimmed text).toList ++ b') := by
  refine ⟨text.toList.takeWhile isBlank, (text.toList.dropWhile isBlank).rtakeWhile isBlank,
    fun c => List.mem_takeWhile_imp, fun c => List.mem_rtakeWhile_imp, ?_⟩
  rw [trimmed, String.toList_ofList, List.rdropWhile_append_rtakeWhile,
    List.takeWhile_append_dropWhile]

theorem dropWhile_of_not_blank (h : ∀ c ∈ cs, isBlank c = false) : cs.dropWhile isBlank = cs := by
  cases cs with
  | nil => rfl
  | cons c cs => exact skipBlanks_cons (h c List.mem_cons_self) cs

theorem toList_trimmed {text : String} (hb : Blank b) (hb' : Blank b')
    (hcs : ∀ c ∈ cs, isBlank c = false) (h : text.toList = b ++ (cs ++ b')) :
    (trimmed text).toList = cs := by
  rw [trimmed, String.toList_ofList, h, List.dropWhile_append_of_pos hb]
  cases cs with
  | nil => rw [List.nil_append, List.dropWhile_eq_nil_iff.mpr hb', List.rdropWhile_nil]
  | cons c cs =>
    have hrev : ∀ d ∈ (c :: cs).reverse, isBlank d = false :=
      fun d hd => hcs d (List.mem_reverse.mp hd)
    have hrev' : ∀ d ∈ b'.reverse, isBlank d = true := fun d hd => hb' d (List.mem_reverse.mp hd)
    rw [List.cons_append, List.dropWhile_cons_of_neg (by simp [hcs c List.mem_cons_self]),
      ← List.cons_append, List.rdropWhile, List.reverse_append, List.dropWhile_append_of_pos hrev',
      dropWhile_of_not_blank hrev, List.reverse_reverse]

theorem endsNumber_of_blank (hb : Blank b) : EndsNumber b := by
  rw [← List.append_nil b]
  exact endsNumber_append hb endsNumber_nil

/-- Blanks at the ends do not count. -/
theorem Spells.decode_of_trimmed {α : Type} {d : Decoder α} {a : α} {text : String}
    (h : Spells d (trimmed text).toList a) : decode d text = .ok a := by
  obtain ⟨b, b', hb, hb', htext⟩ := exists_blank_trimmed text
  obtain ⟨rest, hread, hrest⟩ := h.read b b' hb (endsNumber_of_blank hb')
  rw [skipBlanks_eq_nil hb'] at hrest
  refine decode_of_read (b := rest) ?_ (List.dropWhile_eq_nil_iff.mp hrest)
  rw [htext, hread]
  rfl

/-! ### Decoding -/

theorem IsDigits.not_blank (h : IsDigits cs) : ∀ c ∈ cs, isBlank c = false :=
  fun c hc => isBlank_of_isDigit (h.2 c hc)

theorem IsNumber.not_blank (h : IsNumber cs) : ∀ c ∈ cs, isBlank c = false := by
  obtain ⟨hsign, hwhole, hfraction, hexponent⟩ := h
  rename_i sign whole fraction exponent
  intro c hc
  simp only [List.mem_append] at hc
  rcases hc with hc | hc | hc | hc
  · rcases hsign with rfl | rfl
    · cases hc
    · obtain rfl := List.mem_singleton.mp hc
      rfl
  · exact hwhole.isDigits.not_blank c hc
  · cases hfraction with
    | none => cases hc
    | digits h =>
      rcases List.mem_cons.mp hc with rfl | hc
      · rfl
      · exact h.not_blank c hc
  · cases hexponent with
    | none => cases hc
    | digits he hsign h =>
      rcases List.mem_cons.mp hc with rfl | hc
      · rcases he with rfl | rfl <;> rfl
      · rcases List.mem_append.mp hc with hc | hc
        · rcases hsign with rfl | rfl | rfl
          · cases hc
          all_goals
            obtain rfl := List.mem_singleton.mp hc
            rfl
        · exact h.not_blank c hc

theorem exists_signOf {sign : List Char} (h : sign = [] ∨ sign = ['-']) :
    ∃ negative, sign = signOf negative := by
  rcases h with rfl | rfl
  · exact ⟨false, rfl⟩
  · exact ⟨true, rfl⟩

/-- A number is what its digits stand for, with its sign. -/
theorem readNumber_signOf (negative : Bool) {numeral : Numeral} {c : Char} (hc : c.isDigit = true)
    (h : readNumeral (c :: cs) = .ok (numeral, rest)) :
    readNumber (signOf negative ++ c :: cs) =
      (numeral.number? negative).elim (.error .malformed) fun n => .ok (n, rest) := by
  unfold readNumber
  split
  next negative' cs' hcs =>
    have hread : negative' = negative ∧ cs' = c :: cs := by
      cases negative with
      | true =>
        cases hcs
        exact ⟨rfl, rfl⟩
      | false =>
        -- a digit is not taken for the sign
        split at hcs
        next ds hds =>
          cases hds
          cases hc
        · cases hcs
          exact ⟨rfl, rfl⟩
    obtain ⟨rfl, rfl⟩ := hread
    simp only [h, bind, Except.bind]
    cases numeral.number? negative' <;> rfl

theorem readUInt32_signOf {numeral : Numeral} {c : Char} (hb : Blank b) (hc : c.isDigit = true)
    (h : readNumeral (c :: cs) = .ok (numeral, rest)) :
    Decoder.readUInt32 (b ++ (signOf negative ++ c :: cs)) =
      (numberOutcome (numeral.number? negative)).map (·, rest) := by
  have hread := readNumber_signOf negative hc h
  obtain ⟨d, ds, hopen, hd⟩ : ∃ d ds, signOf negative ++ c :: cs = d :: ds ∧
      (d = '-' ∨ d.isDigit = true) := by
    cases negative with
    | true => exact ⟨'-', _, rfl, .inl rfl⟩
    | false => exact ⟨c, cs, rfl, .inr hc⟩
  have hblank : isBlank d = false := by
    rcases hd with rfl | hd
    · rfl
    · exact isBlank_of_isDigit hd
  rw [hopen] at hread ⊢
  rw [Decoder.readUInt32, skipBlanks_append hb, skipBlanks_cons hblank, if_pos (by simpa using hd),
    hread]
  cases numeral.number? negative with
  | none => rfl
  | some n =>
    show (Decoder.toUInt32 n >>= _) = _
    rw [numberOutcome]
    cases Decoder.toUInt32 n <;> rfl

/-- What a number is read as is what is decoded. -/
theorem readsAsUInt32_decode {text : String} (h : IsNumber (trimmed text).toList) :
    ReadsAsUInt32 (trimmed text).toList (decode Decoder.uint32 text) := by
  obtain ⟨b, b', hb, hb', htext⟩ := exists_blank_trimmed text
  generalize (trimmed text).toList = cs at h htext
  obtain ⟨hsign, hwhole, hfraction, hexponent⟩ := h
  rename_i sign whole fraction exponent
  obtain ⟨negative, rfl⟩ := exists_signOf hsign
  obtain ⟨e, hread, he⟩ :=
    exists_readNumeral hwhole hfraction hexponent (endsNumber_of_blank hb')
  obtain ⟨c, cs, rfl, hc⟩ := hwhole.exists_cons
  have hdecode : decode Decoder.uint32 text =
      numberOutcome (Numeral.number? negative ⟨c :: cs, fraction.tail, e⟩) := by
    refine decode_of_read (b := b') ?_ hb'
    show Decoder.readUInt32 _ = _
    rw [htext, List.append_assoc, List.cons_append, List.cons_append]
    exact readUInt32_signOf hb hc hread
  rw [hdecode]
  exact readsAsUInt32_numberOutcome hwhole hfraction hexponent he

/-- Only numbers are taken. -/
theorem isNumber_of_decode {text : String} {v : UInt32} (h : decode Decoder.uint32 text = .ok v) :
    IsNumber (trimmed text).toList := by
  obtain ⟨⟨v', rest⟩, hread, hend⟩ := Traced.exists_of_bind h
  have hread : Decoder.readUInt32 text.toList = .ok (v', rest) := hread
  dsimp only at hend
  split_ifs at hend with hblank
  rw [Decoder.readUInt32] at hread
  dsimp only at hread
  split_ifs at hread with hopen
  obtain ⟨⟨n, rest'⟩, hnumber, hread⟩ := Traced.exists_of_bind hread
  obtain ⟨v'', hv, hread⟩ := Traced.exists_of_bind hread
  cases hread
  obtain ⟨number, hnumber, hsplit⟩ := exists_isNumber_of_readNumber hnumber
  have htext : text.toList = text.toList.takeWhile isBlank ++ (number ++ rest') := by
    rw [← hsplit]
    exact List.takeWhile_append_dropWhile.symm
  rw [toList_trimmed (fun c => List.mem_takeWhile_imp) (List.dropWhile_eq_nil_iff.mp hblank)
    hnumber.not_blank htext]
  exact hnumber

end DeviceLibs.Json
