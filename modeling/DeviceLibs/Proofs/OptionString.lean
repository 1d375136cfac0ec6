import DeviceLibs.OptionFlags.Parse
import Mathlib.Data.List.Basic

/-!
# Option strings read back

The option string of a set of flags is read as these flags (`parse_options`). Commas come between the
tokens and in none of them (`tokens_intercalate`), and each token switches on its own flag
(`result_acceptAll_map_token`). Of any string, the tokens up to the first that is at fault are accepted,
and no others (`exists_accepted`).
-/

namespace DeviceLibs.OptionFlags

variable {flags : OptionFlags}

/-- Texts with commas between them, none empty and none with a comma in it, are the tokens. -/
theorem tokens_intercalate {ts : List String} (h : ∀ t ∈ ts, t ≠ "" ∧ ',' ∉ t.toList) :
    tokens (",".intercalate ts) = ts := by
  have hcomma : ",".toList = [','] := rfl
  rw [tokens, String.toList_intercalate, hcomma]
  cases ts with
  | nil => rfl
  | cons t ts =>
    rw [List.splitOn_intercalate ',' (by simpa using fun u hu => (h u hu).2) (by simp)]
    rw [List.filter_eq_self.mpr (by simpa using fun u hu => (h u hu).1), List.map_map]
    simp [Function.comp_def]

theorem tokens_options (flags : OptionFlags) :
    tokens flags.options = flags.enabled.map OptionFlag.token := by
  refine tokens_intercalate fun t ht => ?_
  obtain ⟨f, -, rfl⟩ := List.mem_map.mp ht
  cases f <;> decide

/-! ### Tokens of flags that are still off -/

theorem accept_token {f : OptionFlag} (h : flags.get f = false) :
    flags.accept f.token = .ok (flags.enable f) := by
  simp [accept, OptionFlag.ofToken?_token, h]

/-- Tokens of different flags, all of them off, are accepted, and then comes the rest. -/
theorem result_acceptAll_append {fs : List OptionFlag} (hfs : fs.Nodup)
    (hoff : ∀ f ∈ fs, flags.get f = false) (rest : List String) :
    (acceptAll flags (fs.map OptionFlag.token ++ rest)).result =
      (acceptAll (fs.foldl enable flags) rest).result := by
  induction fs generalizing flags with
  | nil => rfl
  | cons f fs ih =>
    obtain ⟨hf, hfs⟩ := List.nodup_cons.mp hfs
    rw [List.map_cons, List.cons_append, acceptAll_of_ok (accept_token (hoff f (by simp)))]
    refine ih hfs fun g hg => ?_
    have hne : f ≠ g := fun h => hf (h ▸ hg)
    rw [get_enable, hoff g (by simp [hg]), decide_eq_false hne, Bool.or_self]

theorem result_acceptAll_map_token {fs : List OptionFlag} (hfs : fs.Nodup)
    (hoff : ∀ f ∈ fs, flags.get f = false) :
    (acceptAll flags (fs.map OptionFlag.token)).result = .ok (fs.foldl enable flags) := by
  rw [← List.append_nil (fs.map OptionFlag.token), result_acceptAll_append hfs hoff]
  rfl

theorem get_foldl_enable (fs : List OptionFlag) (g : OptionFlag) :
    (fs.foldl enable flags).get g = (flags.get g || decide (g ∈ fs)) := by
  induction fs generalizing flags with
  | nil => simp
  | cons f fs ih =>
    rw [List.foldl_cons, ih, get_enable]
    simp [Bool.or_assoc, eq_comm]

theorem foldl_enable_enabled (flags : OptionFlags) : flags.enabled.foldl enable allOff = flags := by
  refine ext_get fun f => ?_
  have hoff : allOff.get f = false := by cases f <;> rfl
  rw [get_foldl_enable, hoff, Bool.false_or]
  simp [enabled, OptionFlag.mem_all]

theorem parse_options (flags : OptionFlags) : parse flags.options = .ok flags := by
  have hall : OptionFlag.all.Nodup := by decide
  have hnodup : flags.enabled.Nodup := hall.filter _
  rw [parse, read, tokens_options, result_acceptAll_map_token hnodup fun f _ => by cases f <;> rfl,
    foldl_enable_enabled]

/-! ### Tokens up to the first that is at fault -/

theorem token_of_ofToken? {token : String} {f : OptionFlag} (h : OptionFlag.ofToken? token = some f) :
    token = f.token := by
  have hf := List.find?_some h
  exact (of_decide_eq_true hf).symm

theorem exists_flag_of_accept {token : String} {flags' : OptionFlags}
    (h : flags.accept token = .ok flags') :
    ∃ f : OptionFlag, token = f.token ∧ flags.get f = false ∧ flags' = flags.enable f := by
  unfold accept at h
  split at h
  next => cases h
  next f hf =>
    split_ifs at h with hget
    exact ⟨f, token_of_ofToken? hf, by simpa using hget, (Except.ok.inj h).symm⟩

/-- A token that is refused names no flag, or one that is on already. -/
theorem fault_of_accept {token : String} {e : SelectionError} (h : flags.accept token = .error e) :
    (e = .unknownOption token ∧ OptionFlag.ofToken? token = none) ∨
      (e = .duplicateOption token ∧ ∃ f : OptionFlag, token = f.token ∧ flags.get f = true) := by
  unfold accept at h
  split at h
  next hf => exact .inl ⟨(Except.error.inj h).symm, hf⟩
  next f hf =>
    split_ifs at h with hget
    exact .inr ⟨(Except.error.inj h).symm, f, token_of_ofToken? hf, hget⟩

/-- The tokens of some flags are accepted, and then all of them were, or the next is refused. -/
theorem acceptAll_eq (flags : OptionFlags) (ts : List String) :
    ∃ (fs : List OptionFlag) (rest : List String), ts = fs.map OptionFlag.token ++ rest ∧
      fs.Nodup ∧ (∀ f ∈ fs, flags.get f = false) ∧
      (acceptAll flags ts).events = fs.map (.optionEnabled ·.token) ∧
      (rest = [] → (acceptAll flags ts).result = .ok (fs.foldl enable flags)) ∧
      ∀ t ∈ rest.head?, ∃ e, (fs.foldl enable flags).accept t = .error e ∧
        (acceptAll flags ts).result = .error e := by
  induction ts generalizing flags with
  | nil => exact ⟨[], [], rfl, .nil, by simp, rfl, fun _ => rfl, by simp⟩
  | cons t ts ih =>
    cases h : flags.accept t with
    | error e =>
      refine ⟨[], t :: ts, rfl, .nil, by simp, ?_, by simp, ?_⟩
      · rw [acceptAll_of_error h]
        rfl
      · intro t' ht'
        obtain rfl : t = t' := by simpa using ht'
        exact ⟨e, h, by rw [acceptAll_of_error h]⟩
    | ok flags' =>
      obtain ⟨f, rfl, hoff, rfl⟩ := exists_flag_of_accept h
      obtain ⟨fs, rest, rfl, hnodup, hfs, hevents, hok, herror⟩ := ih (flags.enable f)
      -- the flag is on by then, so it is not met again
      have hf : f ∉ fs := by
        intro hmem
        have hget := hfs f hmem
        simp [get_enable] at hget
      refine ⟨f :: fs, rest, rfl, List.nodup_cons.mpr ⟨hf, hnodup⟩, ?_, ?_, ?_, ?_⟩
      · intro g hg
        rcases List.mem_cons.mp hg with rfl | hg
        · exact hoff
        · have hget := hfs g hg
          rw [get_enable, Bool.or_eq_false_iff] at hget
          exact hget.1
      · rw [acceptAll_of_ok h, hevents]
        rfl
      · rw [acceptAll_of_ok h]
        exact hok
      · rw [acceptAll_of_ok h]
        exact herror

/-- The tokens up to the first that names no flag, or one that was named before, are accepted. -/
theorem exists_accepted (options : String) :
    ∃ (fs : List OptionFlag) (rest : List String),
      tokens options = fs.map OptionFlag.token ++ rest ∧ fs.Nodup ∧
      (read options).events = fs.map (.optionEnabled ·.token) ∧
      (∀ flags, parse options = .ok flags → flags = fs.foldl enable allOff) ∧
      ∀ t ∈ rest.head?, OptionFlag.ofToken? t = none ∨ t ∈ fs.map OptionFlag.token := by
  obtain ⟨fs, rest, hts, hnodup, -, hevents, hok, herror⟩ := acceptAll_eq allOff (tokens options)
  refine ⟨fs, rest, hts, hnodup, hevents, fun flags h => ?_, fun t ht => ?_⟩
  · cases rest with
    | nil => exact Except.ok.inj (h.symm.trans (hok rfl))
    | cons t rest =>
      obtain ⟨e, -, he⟩ := herror t rfl
      cases h.symm.trans he
  · obtain ⟨e, he, -⟩ := herror t ht
    rcases fault_of_accept he with ⟨-, hnone⟩ | ⟨-, f, rfl, hget⟩
    · exact .inl hnone
    · have hoff : allOff.get f = false := by cases f <;> rfl
      rw [get_foldl_enable, hoff, Bool.false_or, decide_eq_true_eq] at hget
      exact .inr (List.mem_map_of_mem hget)

/-- A string is refused for one of its tokens, and for no other reason. -/
theorem eq_of_parse {options : String} {e : SelectionError} (h : parse options = .error e) :
    ∃ t ∈ tokens options, e = .unknownOption t ∨ e = .duplicateOption t := by
  obtain ⟨fs, rest, hts, -, -, -, hok, herror⟩ := acceptAll_eq allOff (tokens options)
  cases rest with
  | nil => cases h.symm.trans (hok rfl)
  | cons t rest =>
    obtain ⟨e', haccept, he'⟩ := herror t rfl
    obtain rfl : e = e' := Except.error.inj (h.symm.trans he')
    exact ⟨t, by simp [hts], (fault_of_accept haccept).imp And.left And.left⟩

theorem parse_ne_missingBlob (options name : String) :
    parse options ≠ .error (.missingBlob name) := by
  intro h
  obtain ⟨t, -, ht | ht⟩ := eq_of_parse h
  · cases ht
  · cases ht

theorem perm_enabled_foldl {fs : List OptionFlag} (h : fs.Nodup) :
    fs.Perm (fs.foldl enable allOff).enabled := by
  have hall : OptionFlag.all.Nodup := by decide
  refine (List.perm_ext_iff_of_nodup h (hall.filter _)).mpr fun f => ?_
  have hoff : allOff.get f = false := by cases f <;> rfl
  rw [List.mem_filter, get_foldl_enable, hoff, Bool.false_or, decide_eq_true_eq]
  exact ⟨fun hf => ⟨OptionFlag.mem_all f, hf⟩, fun hf => hf.2⟩

end DeviceLibs.OptionFlags
