import DeviceLibs.Proofs.OptionString
import DeviceLibs.Proofs.Pieces
import Mathlib.Data.List.Nodup
import Mathlib.Data.List.Perm.Subperm
import Mathlib.Data.Set.List

/-!
# The grammar of option strings

The tokens of an option string are its pieces between the commas, less the empty ones. `ReadsAs` says
what tokens are read as: flags, if each names one and none is given twice, and else the error of the
first that is at fault. `parse_iff_tokens` is the agreement of `parse` with it, in both directions, and
what follows for strings with the same tokens.
-/

namespace DeviceLibs.OptionFlags

open Text (IsJoined)

variable {ts before : List String} {t : String} {fs : List OptionFlag}
  {r : Except SelectionError OptionFlags}

/-- Each names a flag, and no two the same. -/
structure NameFlags (ts : List String) : Prop where
  isToken : ∀ t ∈ ts, ∃ f : OptionFlag, t = f.token
  nodup : ts.Nodup

/-- What tokens are read as. -/
inductive ReadsAs (ts : List String) : Except SelectionError OptionFlags → Prop where
  | flags {flags : OptionFlags} (hts : NameFlags ts)
    (hget : ∀ f : OptionFlag, flags.get f = true ↔ f.token ∈ ts) : ReadsAs ts (.ok flags)
  | unknown {before after : List String} {t : String} (hts : ts = before ++ t :: after)
    (hbefore : NameFlags before) (ht : ∀ f : OptionFlag, t ≠ f.token) :
    ReadsAs ts (.error (.unknownOption t))
  | duplicate {before after : List String} {t : String} (hts : ts = before ++ t :: after)
    (hbefore : NameFlags before) (ht : t ∈ before) : ReadsAs ts (.error (.duplicateOption t))

theorem tokens_of_isJoined {options : String} {pieces : List String}
    (h : IsJoined ',' options pieces) : tokens options = pieces.filter (· ≠ "") := by
  rw [tokens, Text.isJoined_iff.mp h, List.filter_map, List.map_map]
  simp [Function.comp_def]

/-! ### Tokens and flags -/

theorem mem_map_token {f : OptionFlag} : f.token ∈ fs.map OptionFlag.token ↔ f ∈ fs :=
  List.mem_map_of_injective fun _ _ => OptionFlag.token_injective

theorem nameFlags_map (hfs : fs.Nodup) : NameFlags (fs.map OptionFlag.token) where
  isToken t ht := by
    obtain ⟨f, -, rfl⟩ := List.mem_map.mp ht
    exact ⟨f, rfl⟩
  nodup := List.Nodup.map (fun _ _ => OptionFlag.token_injective) hfs

theorem exists_flags_of_nameFlags (h : NameFlags ts) :
    ∃ fs : List OptionFlag, ts = fs.map OptionFlag.token ∧ fs.Nodup := by
  obtain ⟨fs, rfl⟩ : ts ∈ Set.range (List.map OptionFlag.token) := by
    rw [Set.range_list_map]
    intro t ht
    obtain ⟨f, rfl⟩ := h.isToken t ht
    exact ⟨f, rfl⟩
  exact ⟨fs, rfl, h.nodup.of_map _⟩

theorem get_foldl_allOff (fs : List OptionFlag) (f : OptionFlag) :
    (fs.foldl enable allOff).get f = true ↔ f.token ∈ fs.map OptionFlag.token := by
  have hoff : allOff.get f = false := by cases f <;> rfl
  rw [get_foldl_enable, hoff, Bool.false_or, decide_eq_true_eq, mem_map_token]

/-! ### Agreement -/

/-- What comes of a token behind some that are accepted. -/
theorem result_acceptAll_of_error {e : SelectionError} (hfs : fs.Nodup)
    (h : (fs.foldl enable allOff).accept t = .error e) (after : List String) :
    (acceptAll allOff (fs.map OptionFlag.token ++ t :: after)).result = .error e := by
  rw [result_acceptAll_append hfs fun f _ => by cases f <;> rfl, acceptAll_of_error h]

theorem accept_of_ne_token (h : ∀ f : OptionFlag, t ≠ f.token) (flags : OptionFlags) :
    flags.accept t = .error (.unknownOption t) := by
  have hnone : OptionFlag.ofToken? t = none := by
    rw [OptionFlag.ofToken?, List.find?_eq_none]
    intro f _
    simpa using (h f).symm
  rw [accept, hnone]

theorem accept_of_get {flags : OptionFlags} {f : OptionFlag} (h : flags.get f = true) :
    flags.accept f.token = .error (.duplicateOption f.token) := by
  simp [accept, OptionFlag.ofToken?_token, h]

theorem ReadsAs.result_eq (h : ReadsAs ts r) : (acceptAll allOff ts).result = r := by
  cases h with
  | @flags flags hts hget =>
    obtain ⟨fs, rfl, hfs⟩ := exists_flags_of_nameFlags hts
    have hflags : fs.foldl enable allOff = flags := by
      refine ext_get fun f => ?_
      rw [Bool.eq_iff_iff, get_foldl_allOff, hget]
    rw [result_acceptAll_map_token hfs fun f _ => by cases f <;> rfl, hflags]
  | unknown hts hbefore ht =>
    obtain ⟨fs, rfl, hfs⟩ := exists_flags_of_nameFlags hbefore
    rw [hts, result_acceptAll_of_error hfs (accept_of_ne_token ht _)]
  | duplicate hts hbefore ht =>
    obtain ⟨fs, rfl, hfs⟩ := exists_flags_of_nameFlags hbefore
    obtain ⟨f, hf, rfl⟩ := List.mem_map.mp ht
    have hget := (get_foldl_allOff fs f).mpr ht
    rw [hts, result_acceptAll_of_error hfs (accept_of_get hget)]

theorem exists_readsAs (ts : List String) : ∃ r, ReadsAs ts r := by
  obtain ⟨fs, rest, hts, hfs, -, -, -, herror⟩ := acceptAll_eq allOff ts
  cases rest with
  | nil =>
    rw [List.append_nil] at hts
    subst hts
    exact ⟨_, .flags (nameFlags_map hfs) (get_foldl_allOff fs)⟩
  | cons t after =>
    obtain ⟨e, haccept, -⟩ := herror t rfl
    rcases fault_of_accept haccept with ⟨-, hnone⟩ | ⟨-, f, rfl, hget⟩
    · refine ⟨_, .unknown hts (nameFlags_map hfs) ?_⟩
      rintro f rfl
      cases hnone.symm.trans (OptionFlag.ofToken?_token f)
    · exact ⟨_, .duplicate hts (nameFlags_map hfs) ((get_foldl_allOff fs f).mp hget)⟩

theorem parse_eq_iff {options : String} : parse options = r ↔ ReadsAs (tokens options) r := by
  refine ⟨fun h => ?_, ReadsAs.result_eq⟩
  obtain ⟨r', hr'⟩ := exists_readsAs (tokens options)
  rwa [← h, show parse options = r' from hr'.result_eq]

/-! ### Strings with the same tokens -/

theorem ReadsAs.of_perm {ts' : List String} {flags : OptionFlags} (hperm : ts.Perm ts')
    (h : ReadsAs ts (.ok flags)) : ReadsAs ts' (.ok flags) := by
  cases h with
  | flags hts hget =>
    refine .flags ⟨fun t ht => hts.isToken t (hperm.mem_iff.mpr ht), hperm.nodup_iff.mp hts.nodup⟩ ?_
    intro f
    rw [hget, hperm.mem_iff]

/-- There are no more tokens than flags. -/
theorem NameFlags.length_le (h : NameFlags ts) : ts.length ≤ 4 := by
  obtain ⟨fs, rfl, hfs⟩ := exists_flags_of_nameFlags h
  have hsub : fs ⊆ OptionFlag.all := fun f _ => OptionFlag.mem_all f
  rw [List.length_map]
  exact (List.subperm_of_subset hfs hsub).length_le

/-- A string is read by its tokens, the pieces between its commas that are not empty, and by nothing
else: as the flags that they name, or as an error that names the first at fault. Their order counts for
errors alone. What is written for flags is read as these, and more than four tokens are refused. -/
theorem parse_iff_tokens :
    (∀ options, ∃ pieces, IsJoined ',' options pieces ∧ tokens options = pieces.filter (· ≠ "")) ∧
    (∀ options r, parse options = r ↔ ReadsAs (tokens options) r) ∧
    (∀ options options' flags, (tokens options).Perm (tokens options') →
      parse options = .ok flags → parse options' = .ok flags) ∧
    (∀ options flags, parse options = .ok flags → parse flags.options = parse options) ∧
    ∀ options flags, parse options = .ok flags → (tokens options).length ≤ 4 := by
  refine ⟨fun options => ?_, fun _ _ => parse_eq_iff, ?_, ?_, ?_⟩
  · obtain ⟨first, rest, h⟩ := Text.exists_isJoined ',' options
    exact ⟨_, h, tokens_of_isJoined h⟩
  · intro options options' flags hperm h
    exact parse_eq_iff.mpr ((parse_eq_iff.mp h).of_perm hperm)
  · intro options flags h
    rw [h, parse_options]
  · intro options flags h
    cases parse_eq_iff.mp h with
    | flags hts hget => exact hts.length_le

/-- Two spellings of the same flags, and a string with two tokens at fault. -/
theorem parse_iff_tokens_of_spellings :
    parse "unsafe_math,,daz_opt," = .ok { dazOpt := true, unsafeMath := true } ∧
    (tokens "unsafe_math,,daz_opt,").Perm (tokens "daz_opt,unsafe_math") ∧
    parse "daz_opt,unsafe_math" = .ok { dazOpt := true, unsafeMath := true } ∧
    parse (OptionFlags.options { dazOpt := true, unsafeMath := true }) =
      parse "unsafe_math,,daz_opt," ∧
    (tokens "unsafe_math,,daz_opt,").length ≤ 4 ∧
    ReadsAs (tokens "daz_opt,,daz_opt,DAZ_OPT") (.error (.duplicateOption "daz_opt")) := by
  have hread : parse "unsafe_math,,daz_opt," = .ok { dazOpt := true, unsafeMath := true } := rfl
  have hperm : (tokens "unsafe_math,,daz_opt,").Perm (tokens "daz_opt,unsafe_math") :=
    .swap _ _ _
  obtain ⟨-, hiff, hsame, hwritten, hfew⟩ := parse_iff_tokens
  exact ⟨hread, hperm, hsame _ _ _ hperm hread, hwritten _ _ hread, hfew _ _ hread,
    (hiff _ _).mp rfl⟩

end DeviceLibs.OptionFlags
