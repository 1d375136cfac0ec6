import DeviceLibs.Proofs.FileTree
import DeviceLibs.Text.Cut

/-!
# The paths of locations

The absolute path of a location leads there, whatever the working directory is (`landing_path`), and
shows something exactly if something is there (`exists_view_path_iff`). A file can be written there in
any directory, unless a directory has its name (`exists_writeFile_path_iff`).
-/

namespace DeviceLibs.FileTree

variable {t : FileTree} {l : Location}

/-- A name that leads from a directory to what is in it. -/
structure IsEntryName (name : String) : Prop where
  nonempty : name ≠ ""
  slash : '/' ∉ name.toList
  dots : name ≠ "." ∧ name ≠ ".."
  short : name.utf8ByteSize ≤ nameBound

/-- A name that a path leads on by, however long it is. -/
structure IsSegment (name : String) : Prop where
  nonempty : name ≠ ""
  slash : '/' ∉ name.toList
  dots : name ≠ "." ∧ name ≠ ".."

instance : DecidablePred IsSegment := fun name =>
  decidable_of_iff (name ≠ "" ∧ '/' ∉ name.toList ∧ name ≠ "." ∧ name ≠ "..")
    ⟨fun ⟨hne, hslash, hdots⟩ => ⟨hne, hslash, hdots⟩, fun h => ⟨h.nonempty, h.slash, h.dots⟩⟩

theorem IsEntryName.isSegment {name : String} (h : IsEntryName name) : IsSegment name :=
  ⟨h.nonempty, h.slash, h.dots⟩

/-- Every name of the path has a slash in front. -/
theorem toList_path (hne : l ≠ []) : l.path.text.toList = l.reverse.flatMap ('/' :: ·.toList) := by
  have hslash : "/".toList = ['/'] := rfl
  obtain ⟨first, others, hnames⟩ := List.exists_cons_of_ne_nil (List.reverse_ne_nil_iff.mpr hne)
  rw [Location.path, String.toList_append, String.toList_intercalate, hslash, hnames, List.map_cons,
    Text.intercalate_cons, List.flatMap_cons, List.flatMap_map]
  rfl

theorem start_path (l cwd : Location) : start cwd l.path = [] := by
  have habsolute : l.path.isAbsolute = true := by
    rw [Path.isAbsolute, Location.path, String.toList_append]
    rfl
  rw [start, if_pos habsolute]

theorem names_path (hnames : ∀ n ∈ l, IsSegment n) : l.path.names = l.reverse := by
  cases l with
  | nil => rfl
  | cons name parent =>
    have htext : (Location.path (name :: parent)).text.toList =
        ['/'].intercalate ([] :: (name :: parent).reverse.map String.toList) := by
      rw [toList_path (List.cons_ne_nil _ _), Text.intercalate_cons, List.flatMap_map]
      rfl
    have hplain : ∀ piece ∈ (name :: parent).reverse.map String.toList,
        '/' ∉ piece ∧ piece ≠ [] := by
      intro piece hpiece
      obtain ⟨n, hn, rfl⟩ := List.mem_map.mp hpiece
      have hsegment := hnames n (List.mem_reverse.mp hn)
      exact ⟨hsegment.slash, by simpa using hsegment.nonempty⟩
    have hpieces : ∀ piece ∈ [] :: (name :: parent).reverse.map String.toList, '/' ∉ piece := by
      intro piece hpiece
      rcases List.mem_cons.mp hpiece with rfl | hpiece
      · exact List.not_mem_nil
      · exact (hplain piece hpiece).1
    rw [Path.names, htext, List.splitOn_intercalate '/' hpieces (List.cons_ne_nil _ _),
      List.filter_cons_of_neg (by simp), List.filter_eq_self.mpr, List.map_map]
    · simp [Function.comp_def]
    · intro piece hpiece
      simpa using (hplain piece hpiece).2

/-- Names that are no dots lead down one by one. -/
theorem foldl_follow {names : List String} (h : ∀ n ∈ names, n ≠ "." ∧ n ≠ "..") (l : Location) :
    names.foldl Location.follow l = names.reverse ++ l := by
  induction names generalizing l with
  | nil => rfl
  | cons name names ih =>
    obtain ⟨⟨hdot, hup⟩, hrest⟩ := List.forall_mem_cons.mp h
    rw [List.foldl_cons, Location.follow, if_neg hdot, if_neg hup, ih hrest, List.reverse_cons,
      List.append_assoc]
    rfl

theorem landing_path (hnames : ∀ n ∈ l, IsSegment n) (cwd : Location) : l.path.landing cwd = l := by
  have hdots : ∀ n ∈ l.reverse, n ≠ "." ∧ n ≠ ".." := fun n hn =>
    (hnames n (List.mem_reverse.mp hn)).dots
  rw [Path.landing, names_path hnames, start_path, foldl_follow hdots, List.reverse_reverse,
    List.append_nil]

section

variable {name : String} {parent : Location} (hnames : ∀ n ∈ name :: parent, IsSegment n)
include hnames

theorem endsInSlash_path : (Location.path (name :: parent)).endsInSlash = false := by
  obtain ⟨hne, hslash, -⟩ := hnames name List.mem_cons_self
  have hchars : name.toList ≠ [] := by simpa using hne
  rw [Path.endsInSlash, toList_path (List.cons_ne_nil _ _), List.reverse_cons,
    List.flatMap_append, List.flatMap_singleton,
    List.getLast?_append_of_ne_nil _ (List.cons_ne_nil _ _), List.getLast?_cons_of_ne_nil hchars]
  exact decide_eq_false fun h => hslash (List.mem_of_getLast? h)

/-- The path of a name in a directory is that of its location. -/
theorem join_path : (Location.path parent).join name = Location.path (name :: parent) := by
  obtain ⟨-, hslash, -⟩ := hnames name List.mem_cons_self
  have hrelative : (Path.mk name).isAbsolute = false :=
    decide_eq_false fun h => hslash (List.mem_of_mem_head? h)
  have hsep : "/".toList = ['/'] := rfl
  rw [Path.join, hrelative, if_neg Bool.false_ne_true]
  cases parent with
  | nil =>
    simp [Location.path, Path.endsInSlash]
  | cons last above =>
    have hlast : ∀ n ∈ last :: above, IsSegment n := fun n hn =>
      hnames n (List.mem_cons_of_mem _ hn)
    have htext := toList_path (List.cons_ne_nil last above)
    have hempty : (Location.path (last :: above)).text ≠ "" := by
      intro h
      rw [h] at htext
      simp at htext
    rw [endsInSlash_path hlast, if_neg (by simp [hempty])]
    have hjoined := toList_path (List.cons_ne_nil name (last :: above))
    rw [List.reverse_cons, List.flatMap_append, List.flatMap_singleton] at hjoined
    refine congrArg Path.mk (String.toList_injective (Eq.trans ?_ hjoined.symm))
    rw [String.toList_append, String.toList_append, htext, hsep, List.append_assoc]
    rfl

end

theorem walk_append (t : FileTree) (l : Location) (names others : List String) :
    t.walk l (names ++ others) = t.walk l names >>= fun l' => t.walk l' others := by
  induction names generalizing l with
  | nil => rfl
  | cons name names ih =>
    rw [List.cons_append, walk, walk]
    split_ifs <;> first | rfl | exact ih _

/-- Names lead from the root to whatever is there. -/
theorem walk_reverse (h : (t.lookup l).isSome) (hnames : ∀ n ∈ l, IsEntryName n) :
    t.walk [] l.reverse = .ok l := by
  induction l with
  | nil => rfl
  | cons name parent ih =>
    have hparent := lookup_parent h
    have hname := hnames name List.mem_cons_self
    have hwalk := ih (by rw [hparent]; rfl) fun n hn => hnames n (List.mem_cons_of_mem _ hn)
    have hshort : ¬ nameBound < name.utf8ByteSize := Nat.not_lt.mpr hname.short
    rw [List.reverse_cons, walk_append, hwalk]
    show t.walk parent [name] = _
    rw [walk, if_neg (not_not.mpr hparent), if_neg hname.dots.1, if_neg hname.dots.2,
      if_neg hshort, if_pos h]
    rfl

section

variable {name : String} {parent : Location} (hnames : ∀ n ∈ name :: parent, IsEntryName n)
  (hcheck : checkPath (Location.path (name :: parent)) = .ok ())
include hnames hcheck

/-- A path of a location shows something exactly if something is there. -/
theorem exists_view_path_iff (t : FileTree) (cwd : Location) :
    (∃ e, t.view cwd (Location.path (name :: parent)) = .ok e) ↔
      (t.lookup (name :: parent)).isSome := by
  have hsegments : ∀ n ∈ name :: parent, IsSegment n := fun n hn => (hnames n hn).isSegment
  have hlanding := landing_path hsegments cwd
  rw [view_eq, hcheck]
  rw [Path.landing, names_path hsegments, start_path] at hlanding
  rw [names_path hsegments, start_path]
  constructor
  · rintro ⟨e, he⟩
    obtain ⟨_, -, he⟩ := Traced.exists_of_bind he
    obtain ⟨l, hwalk, he⟩ := Traced.exists_of_bind he
    rw [← hlanding, ← eq_foldl_of_walk hwalk]
    cases hl : t.lookup l with
    | none =>
      rw [hl] at he
      cases he
    | some e => rfl
  · intro h
    rw [walk_reverse h hnames]
    show ∃ e, shown _ (t.lookup (name :: parent)) = .ok e
    obtain ⟨e, he⟩ := Option.isSome_iff_exists.mp h
    rw [he]
    rcases e with d | _
    · rw [shown, endsInSlash_path hsegments]
      exact ⟨_, rfl⟩
    · exact ⟨_, rfl⟩

/-- A file can be written in any directory where no directory has its name. -/
theorem exists_writeFile_path_iff (t : FileTree) (cwd : Location) (data : ByteArray) :
    (∃ t', t.writeFile cwd (Location.path (name :: parent)) data = .ok t') ↔
      t.lookup parent = some .directory ∧ t.lookup (name :: parent) ≠ some .directory := by
  have hsegments : ∀ n ∈ name :: parent, IsSegment n := fun n hn => (hnames n hn).isSegment
  have hname := hnames name List.mem_cons_self
  have hshort : ¬ nameBound < name.utf8ByteSize := Nat.not_lt.mpr hname.short
  have hslash : ¬ (Location.path (name :: parent)).endsInSlash = true := by
    rw [endsInSlash_path hsegments]
    exact Bool.false_ne_true
  constructor
  · rintro ⟨t', h⟩
    obtain ⟨⟨l, last⟩, hlast, h⟩ := Traced.exists_of_bind h
    cases last with
    | none => cases h
    | some last =>
      obtain ⟨hdir, hlanding⟩ := of_resolveLast hlast
      rw [landing_path hsegments] at hlanding
      obtain ⟨rfl, rfl⟩ := List.cons_eq_cons.mp hlanding
      dsimp only at h
      split_ifs at h with hfile
      exact ⟨hdir, hfile⟩
  · rintro ⟨hdir, hfile⟩
    have hwalk : t.walk [] parent.reverse = .ok parent :=
      walk_reverse (by rw [hdir]; rfl) fun n hn => hnames n (List.mem_cons_of_mem _ hn)
    have hlast : t.resolveLast cwd (Location.path (name :: parent)) = .ok (parent, some name) := by
      rw [resolveLast, hcheck, names_path hsegments, start_path, List.reverse_cons,
        List.getLast?_concat, List.dropLast_concat, hwalk]
      simp only [bind, Except.bind]
      rw [if_neg (not_not.mpr hdir), if_neg (not_or.mpr hname.dots)]
      rfl
    rw [writeFile, hlast]
    simp only [bind, Except.bind]
    rw [if_neg hslash, if_neg hshort, dif_neg hfile, dif_pos hdir]
    exact ⟨_, rfl⟩

end

end DeviceLibs.FileTree
