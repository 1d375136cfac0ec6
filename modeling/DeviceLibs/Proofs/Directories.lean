import DeviceLibs.Proofs.LexicalParent
import DeviceLibs.Proofs.TreeGrowth

/-!
# Making directories

When a path is made a directory, whatever is missing above it is made first. Above it are its lexical
ancestors, and the tree agrees: an ancestor leads to a place that the path leads through
(`lookup_of_mem_ancestors`), as dots lead nowhere. So directories come into being at the places of
ancestors only, where nothing was (`OnlyMakes`), and at all of them if the whole succeeds
(`directory_iff_of_makeDirectories`).
-/

namespace DeviceLibs

namespace Path

variable {p q : Path} {cwd : Location}

/-! ### Where ancestors lead -/

/-- The name that a component leads on by. The root is where one starts, and a dot leads nowhere. -/
def Component.step? : Component → Option String
  | root => none
  | name piece => if piece = ['.'] then none else some (.ofList piece)

/-- The names of the path, less the dots. -/
def steps (p : Path) : List String := p.names.filter (· ≠ ".")

theorem ofList_ne_dot_iff {piece : List Char} : String.ofList piece ≠ "." ↔ piece ≠ ['.'] := by
  have hdot : ".".toList = ['.'] := rfl
  rw [ne_eq, ← String.toList_inj, String.toList_ofList, hdot]

theorem steps_namesOf (pieces : List (List Char)) :
    ((pieces.filter (· ≠ [])).map String.ofList).filter (· ≠ ".") =
      (namesOf pieces).filterMap Component.step? := by
  induction pieces with
  | nil => rfl
  | cons piece pieces ih =>
    by_cases hempty : piece = []
    · subst hempty
      exact ih
    · by_cases hdot : piece = ['.']
      · subst hdot
        exact ih
      · have hidle : isIdle piece = false := by simp [isIdle, hempty, hdot]
        have hstep : Component.step? (.name piece) = some (.ofList piece) := if_neg hdot
        rw [namesOf_cons_of_not hidle, List.filterMap_cons_some hstep, ← ih,
          List.filter_cons_of_pos (by simpa using hempty), List.map_cons,
          List.filter_cons_of_pos (by simpa using ofList_ne_dot_iff.mpr hdot)]

theorem steps_eq (p : Path) : p.steps = p.components.filterMap Component.step? := by
  unfold steps names components
  generalize p.text.toList.splitOn '/' = pieces
  match pieces with
  | [] | [[]] => rfl
  | [] :: piece :: rest => exact steps_namesOf (piece :: rest)
  | (c :: cs) :: rest =>
    rw [steps_namesOf]
    by_cases hdot : c :: cs = ['.']
    · rw [hdot]
      rfl
    · have hidle : isIdle (c :: cs) = false := by simp only [isIdle, hdot, decide_false]; rfl
      rw [namesOf_cons_of_not hidle]
      rfl

theorem isAbsolute_iff : p.isAbsolute = true ↔ p.components.head? = some .root := by
  unfold isAbsolute components
  cases p.text.toList with
  | nil => simp [componentsOf]
  | cons c cs =>
    rw [List.splitOn_cons_eq_if_modifyHead]
    obtain ⟨first, rest, hcs⟩ := List.exists_cons_of_ne_nil (List.splitOn_ne_nil '/' cs)
    by_cases hc : c = '/'
    · rw [if_pos (by simpa using hc), hcs, componentsOf_cons _ (List.cons_ne_nil _ _)]
      simp [hc]
    · rw [if_neg (by simpa using hc), hcs, List.modifyHead_cons]
      simp [componentsOf, hc]

theorem IsParentOf.steps_prefix (h : q.IsParentOf p) : q.steps <+: p.steps := by
  obtain ⟨last, hlast⟩ := h.components
  rw [steps_eq, steps_eq, hlast, List.filterMap_append]
  exact List.prefix_append _ _

theorem IsParentOf.isAbsolute_eq (h : q.IsParentOf p) : q.isAbsolute = p.isAbsolute := by
  obtain ⟨last, hlast⟩ := h.components
  rw [Bool.eq_iff_iff, isAbsolute_iff, isAbsolute_iff, hlast]
  cases q.components with
  | nil => simp
  | cons component components => rfl

/-- A climb stays on the way of the path that it starts from. -/
theorem Climbs.on_the_way {ps : List Path} (h : Climbs p ps) :
    ∀ q ∈ ps, q.steps <+: p.steps ∧ q.isAbsolute = p.isAbsolute := by
  induction h with
  | top h =>
    intro q hq
    obtain rfl := List.mem_singleton.mp hq
    exact ⟨List.prefix_rfl, rfl⟩
  | up h _ ih =>
    intro r hr
    rcases List.mem_cons.mp hr with rfl | hr
    · exact ⟨List.prefix_rfl, rfl⟩
    · obtain ⟨hsteps, habsolute⟩ := ih r hr
      exact ⟨hsteps.trans h.steps_prefix, habsolute.trans h.isAbsolute_eq⟩

theorem foldl_follow_filter (l : Location) (names : List String) :
    (names.filter (· ≠ ".")).foldl Location.follow l = names.foldl Location.follow l := by
  induction names generalizing l with
  | nil => rfl
  | cons name names ih =>
    by_cases hdot : name = "."
    · subst hdot
      exact ih l
    · rw [List.filter_cons_of_pos (by simpa using hdot), List.foldl_cons, List.foldl_cons, ih]

theorem landing_eq (p : Path) (cwd : Location) :
    p.landing cwd = p.steps.foldl Location.follow (FileTree.start cwd p) :=
  (foldl_follow_filter _ _).symm

/-- What is only a root leads there. -/
theorem landing_of_parents_eq_nil (hp : p.parents = []) (hne : p.text ≠ "") (cwd : Location) :
    p.landing cwd = [] := by
  have key : ∀ {root : List Char} {rev : List (List Char)}, parentsOf root rev = [] →
      root ≠ ['.'] ∧ ∀ piece ∈ rev, isIdle piece = true := by
    intro root rev h
    induction rev with
    | nil =>
      rw [parentsOf] at h
      split_ifs at h with hroot
      exact ⟨hroot, by simp⟩
    | cons piece before ih =>
      rw [parentsOf] at h
      split_ifs at h with hidle
      obtain ⟨hroot, hbefore⟩ := ih h
      exact ⟨hroot, List.forall_mem_cons.mpr ⟨hidle, hbefore⟩⟩
  rw [parents] at hp
  cases hsplit : splitRoot p.text.toList with
  | mk root body =>
    rw [hsplit] at hp
    obtain ⟨lead, hmade⟩ := isMadeOf_splitRoot hsplit
    obtain ⟨hroot, hidle⟩ := key hp
    have hcomponents : p.components = lead := by
      rw [hmade.components, namesOf_eq_nil_iff.mpr fun piece h => hidle piece (by simpa using h),
        List.append_nil]
    cases hmade.rooted with
    | absolute =>
      have habsolute : p.isAbsolute = true := isAbsolute_iff.mpr (by rw [hcomponents]; rfl)
      rw [landing_eq, steps_eq, hcomponents, FileTree.start, if_pos habsolute]
      rfl
    | dotted _ => exact absurd rfl hroot
    | relative hfirst =>
      obtain ⟨first, rest, hbody⟩ := List.exists_cons_of_ne_nil (List.splitOn_ne_nil '/' body)
      have hnone : body.splitOn '/' = [[]] :=
        hfirst first (by rw [hbody]; rfl) (hidle first (by rw [hbody]; simp))
      have htext : p.text.toList = [] := by
        rw [hmade.text, hnone]
        rfl
      exact absurd (String.toList_eq_nil_iff.mp htext) hne

end Path

namespace FileTree

variable {t t' t'' : FileTree} {cwd l l' : Location} {p q : Path}

/-- Names lead to a directory through directories. -/
theorem lookup_foldl_of_walk {names front : List String} (h : t.walk l names = .ok l')
    (hdir : t.lookup l' = some .directory) (hfront : front <+: names.filter (· ≠ ".")) :
    t.lookup (front.foldl Location.follow l) = some .directory := by
  induction names generalizing l front with
  | nil =>
    obtain rfl := List.prefix_nil.mp hfront
    obtain rfl := Except.ok.inj h
    exact hdir
  | cons name names ih =>
    have hstep : t.lookup l = some .directory ∧ t.walk (l.follow name) names = .ok l' := by
      rw [walk] at h
      split_ifs at h with hhere hdot hup hlong hsome
      · rw [Location.follow, if_pos hdot]
        exact ⟨not_not.mp hhere, h⟩
      · rw [Location.follow, if_neg hdot, if_pos hup]
        exact ⟨not_not.mp hhere, h⟩
      · rw [Location.follow, if_neg hdot, if_neg hup]
        exact ⟨not_not.mp hhere, h⟩
    obtain ⟨hhere, hwalk⟩ := hstep
    by_cases hdot : name = "."
    · subst hdot
      exact ih hwalk hfront
    · rw [List.filter_cons_of_pos (by simpa using hdot)] at hfront
      cases front with
      | nil => exact hhere
      | cons first front =>
        obtain ⟨rfl, hrest⟩ := List.cons_prefix_cons.mp hfront
        rw [List.foldl_cons]
        exact ih hwalk hrest

/-- Whatever is above a directory is a directory. -/
theorem lookup_of_mem_ancestors (h : t.view cwd p = .ok .directory) (hq : q ∈ p.ancestors) :
    t.lookup (q.landing cwd) = some .directory := by
  obtain ⟨hsteps, habsolute⟩ := p.climbs_ancestors.on_the_way q hq
  have hdir := lookup_of_view h
  rw [view_eq] at h
  obtain ⟨_, -, h⟩ := Traced.exists_of_bind h
  obtain ⟨l, hwalk, -⟩ := Traced.exists_of_bind h
  rw [Path.landing, ← eq_foldl_of_walk hwalk] at hdir
  have hstart : start cwd q = start cwd p := by rw [start, start, habsolute]
  rw [Path.landing_eq, hstart]
  exact lookup_foldl_of_walk hwalk hdir hsteps

/-! ### What is made -/

theorem view_of_isDirectory (h : t.isDirectory cwd p = true) : t.view cwd p = .ok .directory := by
  unfold isDirectory at h
  split at h
  · assumption
  · cases h

theorem view_ensure (h : (t.ensure cwd p).2 = .ok ()) :
    (t.ensure cwd p).1.view cwd p = .ok .directory := by
  unfold ensure at h ⊢
  cases hmake : t.makeDirectory cwd p with
  | ok t' => exact view_makeDirectory hmake
  | error e =>
    rw [hmake] at h
    dsimp only at h ⊢
    split_ifs at h with hthere
    exact view_of_isDirectory hthere.2

theorem view_makeChain {above : List Path} (h : (t.makeChain cwd (p :: above)).2 = .ok ()) :
    (t.makeChain cwd (p :: above)).1.view cwd p = .ok .directory := by
  by_cases hmissing : t.makeDirectory cwd p = .error .notFound
  · rw [makeChain_of_notFound hmissing] at h ⊢
    generalize t.makeChain cwd above = x at h ⊢
    obtain ⟨t', e | _⟩ := x
    · cases h
    · exact view_ensure h
  · rw [makeChain_of_ne_notFound hmissing] at h ⊢
    exact view_ensure h

/-- Nothing but missing ancestors is made, also when it fails. -/
theorem onlyMakes_makeDirectories (t : FileTree) (cwd : Location) (p : Path) :
    OnlyMakes ((p.ancestors.filter (·.text ≠ "")).map (·.landing cwd)) t
      (t.makeDirectories cwd p).1 := by
  refine (OnlyMakes.makeChain t cwd _).mono fun l hl => ?_
  obtain ⟨q, hq, rfl⟩ := List.mem_map.mp hl
  have hneeded := List.mem_takeWhile_imp hq
  have hmem : q ∈ p.ancestors := (List.takeWhile_sublist _).subset hq
  refine List.mem_map_of_mem (List.mem_filter.mpr ⟨hmem, ?_⟩)
  exact (Bool.and_eq_true_iff.mp hneeded).1

/-- When it succeeds, all ancestors are there. -/
theorem lookup_makeDirectories (h : (t.makeDirectories cwd p).2 = .ok ()) (hq : q ∈ p.ancestors)
    (hne : q.text ≠ "") :
    (t.makeDirectories cwd p).1.lookup (q.landing cwd) = some .directory := by
  by_cases hneeded : p.text ≠ "" ∧ p.parents ≠ []
  · have hchain : p.ancestors.takeWhile (fun a => a.text ≠ "" && a.parents ≠ []) =
        p :: p.parents.takeWhile (fun a => a.text ≠ "" && a.parents ≠ []) :=
      List.takeWhile_cons_of_pos (by simpa using hneeded)
    unfold makeDirectories at h ⊢
    rw [hchain] at h ⊢
    exact lookup_of_mem_ancestors (view_makeChain h) hq
  · -- the path is empty or only a root
    have hparents : p.parents = [] := by
      by_cases hempty : p.text = ""
      · rw [Path.parents, hempty]
        rfl
      · by_contra hparents
        exact hneeded ⟨hempty, hparents⟩
    rw [Path.ancestors, hparents] at hq
    obtain rfl := List.mem_singleton.mp hq
    rw [Path.landing_of_parents_eq_nil hparents hne]
    exact lookup_root _

/-- The directories are those of before and the ancestors that were missing. -/
theorem directory_iff_of_makeDirectories (h : (t.makeDirectories cwd p).2 = .ok ()) (l : Location) :
    (t.makeDirectories cwd p).1.lookup l = some .directory ↔
      t.lookup l = some .directory ∨
        t.lookup l = none ∧ ∃ q ∈ p.ancestors, q.text ≠ "" ∧ q.landing cwd = l := by
  rcases onlyMakes_makeDirectories t cwd p l with hsame | ⟨hl, hnone, hdir⟩
  · rw [hsame]
    refine ⟨.inl, ?_⟩
    rintro (hdir | ⟨-, q, hq, hne, rfl⟩)
    · exact hdir
    · rw [← hsame]
      exact lookup_makeDirectories h hq hne
  · obtain ⟨q, hq, rfl⟩ := List.mem_map.mp hl
    obtain ⟨hmem, hne⟩ := List.mem_filter.mp hq
    refine ⟨fun _ => .inr ⟨hnone, q, hmem, by simpa using hne, rfl⟩, fun _ => hdir⟩

end FileTree

end DeviceLibs
