import DeviceLibs.Command.Line
import Mathlib.Tactic.SplitIfs

/-!
# Command lines and the verbose switch

`Takes` says how a reading takes the next argument, with its value, and `Reads` how it goes on to its end.
The switch `-v` tells readings apart by nothing but itself (`Reading.Agree`), wherever it stands: each
argument behind it is taken as it was before (`Takes.of_agree`), and hence all of them are
(`Reads.agree`). So a command line with `-v` added to it makes the same request, now verbose
(`parse_insert_verbose`), and there is always a place for it as long as it is not given
(`parse_cons_verbose`).
-/

namespace DeviceLibs.CommandLine

/-- The reading takes an argument, or an option and its value. -/
inductive Takes (r : Reading) : List String → Reading → Prop where
  | word {text : String} {l : Level} (htext : Argument.ofText text = .word)
    (hl : r.level.words.lookup text = some l) : Takes r [text] (r.enter l)
  | letters {r' : Reading} {text : String} {cs : List Char}
    (htext : Argument.ofText text = .letters cs) (hr : r.giveLetters cs = .ok r') :
    Takes r [text] r'
  | switch {r' : Reading} {text name : String} {o : OptionName}
    (htext : Argument.ofText text = .long name none) (ho : r.level.option? name = some o)
    (hvalue : o.takesValue = false) (hr : r.giveSwitch o = .ok r') : Takes r [text] r'
  /-- The value stands behind an equals sign. -/
  | inline {r' : Reading} {text name value : String} {o : OptionName}
    (htext : Argument.ofText text = .long name (some value)) (ho : r.level.option? name = some o)
    (hvalue : o.takesValue = true) (hr : r.giveValue o value = .ok r') : Takes r [text] r'
  /-- The value is the next argument. -/
  | next {r' : Reading} {text name value : String} {o : OptionName}
    (htext : Argument.ofText text = .long name none) (ho : r.level.option? name = some o)
    (hvalue : o.takesValue = true) (hword : Argument.ofText value = .word)
    (hr : r.giveValue o value = .ok r') : Takes r [text, value] r'

/-- The reading goes on with these arguments to its end. -/
inductive Reads : Reading → List String → Reading → Prop where
  | done (r : Reading) : Reads r [] r
  | terminator {r : Reading} {text : String} (htext : Argument.ofText text = .terminator) :
    Reads r [text] r
  | step {r r' a : Reading} {taken rest : List String} (h : Takes r taken r')
    (hrest : Reads r' rest a) : Reads r (taken ++ rest) a

namespace Reading

/-- The readings have come to the same, but for whether `-v` has been given. -/
structure Agree (r r' : Reading) : Prop where
  level : r'.level = r.level
  values : r'.values = r.values
  given : ∀ o, o ≠ .verbose → (o ∈ r'.given ↔ o ∈ r.given)

variable {r r' r'' a b : Reading} {text name value : String} {rest arguments : List String}
  {o : OptionName} {cs : List Char} {l : Level}

theorem complete_terminator (htext : Argument.ofText text = .terminator) :
    r.complete (text :: rest) = if rest = [] then .ok r else .error .usage := by
  rw [complete, htext]

theorem complete_letters (htext : Argument.ofText text = .letters cs) :
    r.complete (text :: rest) = r.giveLetters cs >>= fun r' => r'.complete rest := by
  rw [complete, htext]

theorem complete_switch (htext : Argument.ofText text = .long name none)
    (ho : r.level.option? name = some o) (hvalue : o.takesValue = false) :
    r.complete (text :: rest) = r.giveSwitch o >>= fun r' => r'.complete rest := by
  simp only [complete, htext, ho, hvalue]

theorem complete_next (htext : Argument.ofText text = .long name none)
    (ho : r.level.option? name = some o) (hvalue : o.takesValue = true) :
    r.complete (text :: value :: rest) =
      if Argument.ofText value = .word then r.giveValue o value >>= fun r' => r'.complete rest
      else .error .usage := by
  simp only [complete, htext, ho, hvalue]

theorem reads_of_complete (h : r.complete arguments = .ok a) : Reads r arguments a := by
  fun_induction Reading.complete r arguments with
  | case1 =>
    cases h
    exact .done _
  | case2 r text rest htext l hl ih => exact .step (.word htext hl) (ih h)
  | case3 => cases h
  | case4 => cases h
  | case5 r text htext =>
    cases h
    exact .terminator htext
  | case6 => cases h
  | case7 r text rest cs htext ih =>
    obtain ⟨r', hr, h⟩ := Traced.exists_of_bind h
    exact .step (.letters htext hr) (ih r' h)
  | case8 => cases h
  | case9 r text rest name o ho hvalue htext ih =>
    obtain ⟨r', hr, h⟩ := Traced.exists_of_bind h
    exact .step (.switch htext ho hvalue hr) (ih r' h)
  | case10 => cases h
  | case11 r text rest name o ho value hvalue htext ih =>
    obtain ⟨r', hr, h⟩ := Traced.exists_of_bind h
    exact .step (.inline htext ho hvalue hr) (ih r' h)
  | case12 => cases h
  | case13 r text name o ho hvalue value rest hword htext ih =>
    obtain ⟨r', hr, h⟩ := Traced.exists_of_bind h
    exact .step (.next htext ho hvalue hword hr) (ih r' h)
  | case14 => cases h

/-! ### Giving options -/

namespace Agree

theorem refl (r : Reading) : r.Agree r := ⟨rfl, rfl, fun _ _ => Iff.rfl⟩

theorem symm (h : r.Agree r') : r'.Agree r :=
  ⟨h.level.symm, h.values.symm, fun o ho => (h.given o ho).symm⟩

theorem trans (h : r.Agree r') (h' : r'.Agree r'') : r.Agree r'' :=
  ⟨h'.level.trans h.level, h'.values.trans h.values,
    fun o ho => (h'.given o ho).trans (h.given o ho)⟩

theorem enter (h : r.Agree r') (l : Level) : (r.enter l).Agree (r'.enter l) :=
  ⟨rfl, h.values, fun _ _ => Iff.rfl⟩

end Agree

theorem giveValue_eq_ok_iff : r.giveValue o value = .ok r' ↔
    o ∉ r.given ∧ o.accepts value = true ∧
      r' = { r with given := o :: r.given, values := (o, value) :: r.values } := by
  unfold giveValue
  constructor
  · intro h
    split_ifs at h with hrefused
    obtain ⟨hgiven, haccepts⟩ := not_or.mp hrefused
    exact ⟨hgiven, by simpa using haccepts, (Except.ok.inj h).symm⟩
  · rintro ⟨hgiven, haccepts, rfl⟩
    rw [if_neg (by simp [hgiven, haccepts])]

/-- Only `-v` is a switch that a reading goes on behind. -/
theorem of_giveSwitch (hvalue : o.takesValue = false) (h : r.giveSwitch o = .ok r') :
    r.Agree r' ∧ r'.verbose = true := by
  have hverbose : o = .verbose := by
    cases o with
    | verbose => rfl
    | help => cases h
    | version => cases h
    | _ => cases hvalue
  subst hverbose
  unfold giveSwitch at h
  dsimp only at h
  split_ifs at h
  obtain rfl := Except.ok.inj h
  exact ⟨⟨rfl, rfl, fun o ho => by simp [ho]⟩, rfl⟩

theorem takesValue_of_letter? {c : Char} (h : l.letter? c = some o) : o.takesValue = false := by
  unfold Level.letter? at h
  have hc : o.letter? = some c := by simpa using List.find?_some h
  cases o with
  | verbose => rfl
  | help => rfl
  | version => rfl
  | _ => cases hc

theorem of_giveLetters (h : r.giveLetters cs = .ok r') :
    r.Agree r' ∧ (cs = [] ∧ r' = r ∨ r'.verbose = true) := by
  induction cs generalizing r with
  | nil =>
    cases h
    exact ⟨.refl _, .inl ⟨rfl, rfl⟩⟩
  | cons c cs ih =>
    unfold giveLetters at h
    split at h
    next => cases h
    next o ho =>
      obtain ⟨r₁, hr, h⟩ := Traced.exists_of_bind h
      obtain ⟨hagree, hverbose⟩ := of_giveSwitch (takesValue_of_letter? ho) hr
      obtain ⟨hagree', hrest⟩ := ih h
      refine ⟨hagree.trans hagree', .inr ?_⟩
      rcases hrest with ⟨-, rfl⟩ | hrest
      · exact hverbose
      · exact hrest

/-- An option with a value is given to both readings or to none. -/
theorem Agree.giveValue (h : r.Agree r') (hvalue : o.takesValue = true)
    (hr : r.giveValue o value = .ok a) :
    ∃ b, r'.giveValue o value = .ok b ∧ a.Agree b ∧ a.verbose = r.verbose := by
  obtain ⟨hgiven, haccepts, rfl⟩ := giveValue_eq_ok_iff.mp hr
  have ho : o ≠ .verbose := by
    rintro rfl
    cases hvalue
  refine ⟨_, giveValue_eq_ok_iff.mpr ⟨fun h' => hgiven ((h.given o ho).mp h'), haccepts, rfl⟩,
    ⟨h.level, by rw [h.values], fun o' ho' => ?_⟩, rfl⟩
  simp [h.given o' ho']

end Reading

/-! ### One argument -/

namespace Takes

variable {r r' s b : Reading} {taken rest : List String}

theorem complete_eq (h : Takes r taken r') (rest : List String) :
    r.complete (taken ++ rest) = r'.complete rest := by
  cases h with
  | word htext hl => simp only [List.singleton_append, Reading.complete, htext, hl]
  | letters htext hr =>
    rw [List.singleton_append, Reading.complete_letters htext, hr]
    rfl
  | switch htext ho hvalue hr =>
    rw [List.singleton_append, Reading.complete_switch htext ho hvalue, hr]
    rfl
  | inline htext ho hvalue hr =>
    simp only [List.singleton_append, Reading.complete, htext, ho, hvalue, hr]
    rfl
  | next htext ho hvalue hword hr =>
    rw [List.cons_append, List.singleton_append, Reading.complete_next htext ho hvalue,
      if_pos hword, hr]
    rfl

theorem verbose (h : Takes r taken r') (hv : r.verbose = true) : r'.verbose = true := by
  cases h with
  | word htext hl => exact hv
  | letters htext hr =>
    rcases (Reading.of_giveLetters hr).2 with ⟨-, rfl⟩ | hverbose
    · exact hv
    · exact hverbose
  | switch htext ho hvalue hr => exact (Reading.of_giveSwitch hvalue hr).2
  | inline htext ho hvalue hr =>
    obtain ⟨-, -, -, hkept⟩ := (Reading.Agree.refl r).giveValue hvalue hr
    exact hkept.trans hv
  | next htext ho hvalue hword hr =>
    obtain ⟨-, -, -, hkept⟩ := (Reading.Agree.refl r).giveValue hvalue hr
    exact hkept.trans hv

/-- A reading that agrees takes the same, unless it stops at a switch. -/
theorem of_agree (h : Takes r taken r') (hagree : r.Agree s)
    (hswitches : (∃ rest b, s.complete (taken ++ rest) = .ok b) ∨ r'.verbose = false) :
    ∃ s', Takes s taken s' ∧ r'.Agree s' := by
  cases h with
  | word htext hl =>
    rw [← hagree.level] at hl
    exact ⟨_, .word htext hl, hagree.enter _⟩
  | letters htext hr =>
    obtain ⟨hleft, hnone | hverbose⟩ := Reading.of_giveLetters hr
    · obtain ⟨rfl, rfl⟩ := hnone
      exact ⟨s, .letters htext rfl, hagree⟩
    · rw [hverbose] at hswitches
      obtain ⟨rest, b, hb⟩ := hswitches.resolve_right (by decide)
      rw [List.singleton_append, Reading.complete_letters htext] at hb
      obtain ⟨s', hs, -⟩ := Traced.exists_of_bind hb
      exact ⟨s', .letters htext hs,
        hleft.symm.trans (hagree.trans (Reading.of_giveLetters hs).1)⟩
  | switch htext ho hvalue hr =>
    obtain ⟨hleft, hverbose⟩ := Reading.of_giveSwitch hvalue hr
    rw [hverbose] at hswitches
    obtain ⟨rest, b, hb⟩ := hswitches.resolve_right (by decide)
    rw [← hagree.level] at ho
    rw [List.singleton_append, Reading.complete_switch htext ho hvalue] at hb
    obtain ⟨s', hs, -⟩ := Traced.exists_of_bind hb
    exact ⟨s', .switch htext ho hvalue hs,
      hleft.symm.trans (hagree.trans (Reading.of_giveSwitch hvalue hs).1)⟩
  | inline htext ho hvalue hr =>
    rw [← hagree.level] at ho
    obtain ⟨s', hs, hagree', -⟩ := hagree.giveValue hvalue hr
    exact ⟨s', .inline htext ho hvalue hs, hagree'⟩
  | next htext ho hvalue hword hr =>
    rw [← hagree.level] at ho
    obtain ⟨s', hs, hagree', -⟩ := hagree.giveValue hvalue hr
    exact ⟨s', .next htext ho hvalue hword hs, hagree'⟩

/-- Between an option and its value there is no place for the switch. -/
theorem complete_between {front back : List String} (h : Takes r (front ++ back) r')
    (hfront : front ≠ []) (hback : back ≠ []) (rest : List String) :
    r.complete (front ++ "-v" :: rest) = .error .usage := by
  obtain ⟨text, front, rfl⟩ := List.exists_cons_of_ne_nil hfront
  generalize htaken : text :: front ++ back = taken at h
  have hone : ∀ t : String, text :: front ++ back ≠ [t] := by
    intro t ht
    obtain ⟨-, hnil⟩ := List.cons_eq_cons.mp ht
    exact hback (List.append_eq_nil_iff.mp hnil).2
  cases h with
  | next htext ho hvalue hword hr =>
    obtain ⟨rfl, hvalues⟩ := List.cons_eq_cons.mp htaken
    have hnone : front = [] := by
      rcases List.append_eq_singleton_iff.mp hvalues with ⟨hnil, -⟩ | ⟨-, hnil⟩
      · exact hnil
      · exact absurd hnil hback
    have hswitch : Argument.ofText "-v" ≠ .word := by decide
    rw [hnone, List.cons_append, List.nil_append, Reading.complete_next htext ho hvalue,
      if_neg hswitch]
  | _ => exact absurd htaken (hone _)

end Takes

/-! ### Whole command lines -/

namespace Reads

variable {r s a b : Reading} {before after arguments : List String}

theorem verbose (h : Reads r arguments a) (hv : r.verbose = true) : a.verbose = true := by
  induction h with
  | done r => exact hv
  | terminator htext => exact hv
  | step h hrest ih => exact ih (h.verbose hv)

/-- Readings that agree still do so at their ends. -/
theorem agree (h : Reads r arguments a) (hagree : r.Agree s) (hs : s.complete arguments = .ok b) :
    a.Agree b := by
  induction h generalizing s with
  | done r =>
    cases hs
    exact hagree
  | terminator htext =>
    rw [Reading.complete_terminator htext, if_pos rfl] at hs
    cases hs
    exact hagree
  | step h hrest ih =>
    obtain ⟨s', htakes, hagree'⟩ := h.of_agree hagree (.inl ⟨_, b, hs⟩)
    rw [htakes.complete_eq] at hs
    exact ih hagree' hs

/-- What is read without a switch is read to the end by any reading that agrees. -/
theorem exists_complete (h : Reads r arguments a) (hquiet : a.verbose = false)
    (hagree : r.Agree s) : ∃ b, s.complete arguments = .ok b := by
  induction h generalizing s with
  | done r => exact ⟨s, rfl⟩
  | terminator htext =>
    refine ⟨s, ?_⟩
    rw [Reading.complete_terminator htext, if_pos rfl]
  | @step _ r' _ _ _ h hrest ih =>
    have hswitches : r'.verbose = false := by
      cases hv : r'.verbose with
      | false => rfl
      | true => exact (hrest.verbose hv).symm.trans hquiet
    obtain ⟨s', htakes, hagree'⟩ := h.of_agree hagree (.inr hswitches)
    rw [htakes.complete_eq]
    exact ih hquiet hagree'

theorem cons_verbose (h : Reads r arguments a) (hb : r.complete ("-v" :: arguments) = .ok b) :
    a.Agree b ∧ b.verbose = true := by
  have hletter : Argument.ofText "-v" = .letters ['v'] := rfl
  rw [Reading.complete_letters hletter] at hb
  obtain ⟨s, hs, hb⟩ := Traced.exists_of_bind hb
  obtain ⟨hagree, ⟨hnone, -⟩ | hverbose⟩ := Reading.of_giveLetters hs
  · cases hnone
  · exact ⟨h.agree hagree hb, (Reading.reads_of_complete hb).verbose hverbose⟩

/-- The switch may stand anywhere: what is read before it is the same, and what follows agrees. -/
theorem insert_verbose (h : Reads r (before ++ after) a)
    (hb : r.complete (before ++ "-v" :: after) = .ok b) : a.Agree b ∧ b.verbose = true := by
  generalize harguments : before ++ after = arguments at h
  induction h generalizing before with
  | done r =>
    obtain ⟨rfl, rfl⟩ := List.append_eq_nil_iff.mp harguments
    exact (Reads.done r).cons_verbose hb
  | terminator htext =>
    rcases List.append_eq_cons_iff.mp harguments with ⟨rfl, rfl⟩ | ⟨before, rfl, hnil⟩
    · exact (Reads.terminator htext).cons_verbose hb
    · -- nothing but words may follow
      rw [List.cons_append, Reading.complete_terminator htext, if_neg (by simp)] at hb
      cases hb
  | step h hrest ih =>
    rcases List.append_eq_append_iff.mp harguments with ⟨back, rfl, rfl⟩ | ⟨before, rfl, rfl⟩
    · by_cases hbefore : before = []
      · subst hbefore
        exact (Reads.step h hrest).cons_verbose hb
      by_cases hback : back = []
      · subst hback
        rw [← List.append_nil before, h.complete_eq] at hb
        exact hrest.cons_verbose hb
      · rw [h.complete_between hbefore hback] at hb
        cases hb
    · rw [List.append_assoc, h.complete_eq] at hb
      exact ih hb rfl

end Reads

/-! ### Requests -/

variable {arguments before after : List String} {r r' : Request}

theorem parse_eq_ok_iff : parse arguments = .ok r ↔
    ∃ a, Reading.complete {} arguments = .ok a ∧ a.command? = some r.command ∧
      a.path? .config = r.config ∧ a.verbose = r.verbose := by
  unfold parse
  constructor
  · intro h
    obtain ⟨a, ha, h⟩ := Traced.exists_of_bind h
    cases hc : a.command? with
    | none =>
      rw [hc] at h
      cases h
    | some command =>
      rw [hc] at h
      obtain rfl := Except.ok.inj h
      exact ⟨a, ha, hc, rfl, rfl⟩
  · rintro ⟨a, ha, hc, hconfig, hverbose⟩
    rw [ha]
    simp only [bind, Except.bind, hc, hconfig, hverbose]
    rfl

namespace Reading

variable {a b : Reading}

theorem Agree.path?_eq (h : a.Agree b) (o : OptionName) : b.path? o = a.path? o := by
  simp only [path?, value?, h.values]

theorem Agree.command?_eq (h : a.Agree b) : b.command? = a.command? := by
  simp only [command?, language?, path?, value?, h.level, h.values]

end Reading

/-- A command line with `-v` added to it makes the same request, now verbose. -/
theorem parse_insert_verbose (h : parse (before ++ after) = .ok r)
    (h' : parse (before ++ "-v" :: after) = .ok r') : r' = { r with verbose := true } := by
  obtain ⟨a, ha, hc, hconfig, -⟩ := parse_eq_ok_iff.mp h
  obtain ⟨b, hb, hc', hconfig', hverbose'⟩ := parse_eq_ok_iff.mp h'
  obtain ⟨hagree, hverbose⟩ := (Reading.reads_of_complete ha).insert_verbose hb
  have hcommand : r'.command = r.command := by
    rw [hagree.command?_eq, hc] at hc'
    exact (Option.some.inj hc').symm
  have hconfigs : r'.config = r.config := by
    rw [← hconfig', ← hconfig, hagree.path?_eq]
  cases r'
  simp only at hcommand hconfigs hverbose'
  rw [hcommand, hconfigs, ← hverbose', hverbose]

/-- Where a command line does not ask for a log it can. -/
theorem parse_cons_verbose (h : parse arguments = .ok r) (hquiet : r.verbose = false) :
    parse ("-v" :: arguments) = .ok { r with verbose := true } := by
  obtain ⟨a, ha, hc, hconfig, hverbose⟩ := parse_eq_ok_iff.mp h
  have hreads := Reading.reads_of_complete ha
  have hagree : Reading.Agree {} { given := [.verbose], verbose := true } :=
    ⟨rfl, rfl, fun o ho => by simp [ho]⟩
  obtain ⟨b, hb⟩ := hreads.exists_complete (hverbose.trans hquiet) hagree
  have hb' : Reading.complete {} ("-v" :: arguments) = .ok b := hb
  obtain ⟨hagree', hverbose'⟩ := hreads.cons_verbose hb'
  refine parse_eq_ok_iff.mpr ⟨b, hb', ?_, ?_, hverbose'⟩
  · rw [hagree'.command?_eq, hc]
  · rw [hagree'.path?_eq, hconfig]

end DeviceLibs.CommandLine
