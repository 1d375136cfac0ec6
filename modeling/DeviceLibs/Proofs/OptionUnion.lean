import DeviceLibs.Proofs.OptionString

/-!
# Option strings with a comma between them

The tokens of two option strings with a comma between them are those of the one and then those of the
other (`tokens_append_comma`), wherever the first ends and however the second begins. Hence the second
string is read in the state that the first has left (`parse_append`), and that state is its flags. What
the second adds to them is what it means by itself, as long as no flag is in both
(`result_acceptAll_tokens_iff`).
-/

namespace DeviceLibs.OptionFlags

variable {flags flags' fa fb : OptionFlags} {ts us : List String} {a b : String}

/-- The flags that are on in one or the other. -/
def union (fa fb : OptionFlags) : OptionFlags where
  correctlyRoundedSqrt := fa.correctlyRoundedSqrt || fb.correctlyRoundedSqrt
  dazOpt := fa.dazOpt || fb.dazOpt
  finiteOnly := fa.finiteOnly || fb.finiteOnly
  unsafeMath := fa.unsafeMath || fb.unsafeMath

@[simp] theorem get_union (fa fb : OptionFlags) (f : OptionFlag) :
    (fa.union fb).get f = (fa.get f || fb.get f) := by
  cases f <;> rfl

/-! ### One string behind the other -/

theorem tokens_append_comma (a b : String) : tokens (a ++ "," ++ b) = tokens a ++ tokens b := by
  have hchars : (a ++ "," ++ b).toList = a.toList ++ ',' :: b.toList := by
    have hcomma : ",".toList = [','] := rfl
    rw [String.toList_append, String.toList_append, hcomma, List.append_assoc, List.singleton_append]
  rw [tokens, hchars, List.splitOn_append_cons_self, List.filter_append, List.map_append]
  rfl

/-- Reading goes on with the flags that it has reached, and an error ends it. -/
theorem result_acceptAll_bind (flags : OptionFlags) (ts us : List String) :
    (acceptAll flags (ts ++ us)).result =
      (acceptAll flags ts).result >>= fun reached => (acceptAll reached us).result := by
  induction ts generalizing flags with
  | nil => rfl
  | cons t ts ih =>
    rw [List.cons_append]
    cases h : flags.accept t with
    | error e =>
      rw [acceptAll_of_error h, acceptAll_of_error h]
      rfl
    | ok flags' =>
      rw [acceptAll_of_ok h, acceptAll_of_ok h]
      exact ih flags'

theorem parse_append (a b : String) :
    parse (a ++ "," ++ b) = parse a >>= fun fa => (acceptAll fa (tokens b)).result := by
  have hjoined := result_acceptAll_bind allOff (tokens a) (tokens b)
  rw [← tokens_append_comma] at hjoined
  exact hjoined

theorem parse_append_of_ok (h : parse a = .ok fa) (b : String) :
    parse (a ++ "," ++ b) = (acceptAll fa (tokens b)).result := by
  rw [parse_append, h]
  rfl

/-! ### What the second string adds -/

/-- Tokens are accepted if they are those of different flags, none of which is on. -/
theorem result_acceptAll_eq_ok_iff :
    (acceptAll flags ts).result = .ok flags' ↔ ∃ fs : List OptionFlag,
      ts = fs.map OptionFlag.token ∧ fs.Nodup ∧ (∀ f ∈ fs, flags.get f = false) ∧
        fs.foldl enable flags = flags' := by
  constructor
  · intro h
    obtain ⟨fs, rest, hts, hnodup, hoff, -, hok, herror⟩ := acceptAll_eq flags ts
    cases rest with
    | nil =>
      rw [List.append_nil] at hts
      have hreached := hok rfl
      rw [h] at hreached
      exact ⟨fs, hts, hnodup, hoff, (Except.ok.inj hreached).symm⟩
    | cons t rest =>
      obtain ⟨e, -, he⟩ := herror t rfl
      rw [h] at he
      cases he
  · rintro ⟨fs, rfl, hnodup, hoff, rfl⟩
    exact result_acceptAll_map_token hnodup hoff

/-- From flags that are on, a string is read as from none, unless it repeats one of them. -/
theorem result_acceptAll_tokens_iff :
    (acceptAll fa (tokens b)).result = .ok flags ↔ ∃ fb, parse b = .ok fb ∧
      (∀ f : OptionFlag, ¬ (fa.get f = true ∧ fb.get f = true)) ∧ flags = fa.union fb := by
  have hoff : ∀ f, allOff.get f = false := by
    intro f
    cases f <;> rfl
  -- what tokens switch on does not depend on what was on before
  have hunion : ∀ fs : List OptionFlag,
      fs.foldl enable fa = fa.union (fs.foldl enable allOff) := by
    intro fs
    refine ext_get fun f => ?_
    rw [get_union, get_foldl_enable, get_foldl_enable, hoff, Bool.false_or]
  have hmem : ∀ (fs : List OptionFlag) (f : OptionFlag),
      (fs.foldl enable allOff).get f = true ↔ f ∈ fs := by
    intro fs f
    rw [get_foldl_enable, hoff, Bool.false_or, decide_eq_true_eq]
  constructor
  · intro h
    obtain ⟨fs, hts, hnodup, hfa, rfl⟩ := result_acceptAll_eq_ok_iff.mp h
    have hb : parse b = .ok (fs.foldl enable allOff) :=
      result_acceptAll_eq_ok_iff.mpr ⟨fs, hts, hnodup, fun f _ => hoff f, rfl⟩
    refine ⟨_, hb, ?_, hunion fs⟩
    rintro f ⟨hon, hf⟩
    have hstill := hfa f ((hmem fs f).mp hf)
    rw [hon] at hstill
    cases hstill
  · rintro ⟨fb, hb, hapart, rfl⟩
    obtain ⟨fs, hts, hnodup, -, rfl⟩ := result_acceptAll_eq_ok_iff.mp hb
    refine result_acceptAll_eq_ok_iff.mpr ⟨fs, hts, hnodup, ?_, hunion fs⟩
    intro f hf
    by_contra hon
    exact hapart f ⟨by simpa using hon, (hmem fs f).mpr hf⟩

/-- Two option strings with a comma between them are read as the union of what each is read as, if both
are accepted and no flag is in both. An error in the first is that of the whole. Of a first string that
is accepted only its flags count, for success and for the error alike. -/
theorem parse_append_comma (a b : String) :
    (∀ flags, parse (a ++ "," ++ b) = .ok flags ↔ ∃ fa fb, parse a = .ok fa ∧ parse b = .ok fb ∧
      (∀ f : OptionFlag, ¬ (fa.get f = true ∧ fb.get f = true)) ∧ flags = fa.union fb) ∧
    (∀ e, parse a = .error e → parse (a ++ "," ++ b) = .error e) ∧
    ∀ fa, parse a = .ok fa → parse (a ++ "," ++ b) = parse (fa.options ++ "," ++ b) := by
  refine ⟨fun flags => ?_, fun e ha => ?_, fun fa ha => ?_⟩
  · constructor
    · intro h
      rw [parse_append] at h
      obtain ⟨fa, ha, hrest⟩ := Traced.exists_of_bind h
      obtain ⟨fb, hb, hapart, hunion⟩ := result_acceptAll_tokens_iff.mp hrest
      exact ⟨fa, fb, ha, hb, hapart, hunion⟩
    · rintro ⟨fa, fb, ha, hb, hapart, hunion⟩
      rw [parse_append_of_ok ha]
      exact result_acceptAll_tokens_iff.mpr ⟨fb, hb, hapart, hunion⟩
  · rw [parse_append, ha]
    rfl
  · rw [parse_append_of_ok ha, parse_append_of_ok (parse_options fa)]

/-- A junction of empty tokens, an error before it, and a duplicate across it. -/
theorem parse_append_comma_of_junctions :
    parse ("daz_opt," ++ "," ++ ",unsafe_math") = .ok { dazOpt := true, unsafeMath := true } ∧
    parse ("fast_math" ++ "," ++ "daz_opt,daz_opt") = .error (.unknownOption "fast_math") ∧
    parse ("unsafe_math,daz_opt" ++ "," ++ "daz_opt,") =
      parse (OptionFlags.options { dazOpt := true, unsafeMath := true } ++ "," ++ "daz_opt,") := by
  refine ⟨?_, ?_, ?_⟩
  · refine ((parse_append_comma "daz_opt," ",unsafe_math").1 _).mpr ?_
    exact ⟨{ dazOpt := true }, { unsafeMath := true }, rfl, rfl, by intro f; cases f <;> decide, rfl⟩
  · exact (parse_append_comma "fast_math" "daz_opt,daz_opt").2.1 _ rfl
  · exact (parse_append_comma "unsafe_math,daz_opt" "daz_opt,").2.2 _ rfl

end DeviceLibs.OptionFlags
