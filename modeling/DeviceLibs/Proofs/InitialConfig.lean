import DeviceLibs.Proofs.ConfigSearch
import DeviceLibs.Proofs.Extraction
import DeviceLibs.Proofs.Independence
import Mathlib.Data.List.Infix

/-!
# The initial configuration

`init` puts a file where nothing was, and a tree shows the same files as before at every path that does not
lead there (`Gains.view_file_iff`). So a search comes to the same if the nearest file that it then meets is
another one (`Gains.findAndLoad_eq`), or if it did not look there before it came to a file
(`Gains.findAndLoad_eq_of_nearer`), and finds the new one if that is the nearest. Which file is nearer is
a matter of the texts of paths: the lexical ancestors of a location are the locations above it
(`Path.ancestors_path`), and without `..` the directories of a search lie above each other
(`Path.exists_landing_eq_append`). With `..` a search may look into a directory before it comes to one below
it, and then the new file is the nearest.
-/

namespace DeviceLibs

open FileTree (IsSegment)

/-! ### Directories of a search -/

namespace Path

variable {p q : Path} {l cwd : Location}

theorem isIdle_eq_false_of_isSegment {name : String} (h : IsSegment name) :
    isIdle name.toList = false := by
  rw [Bool.eq_false_iff, ne_eq, isIdle_iff, not_or]
  have hdot : ".".toList = ['.'] := rfl
  rw [← hdot, String.toList_inj]
  exact ⟨by simpa using h.nonempty, h.dots.1⟩

theorem toList_path_eq_cons (l : Location) :
    l.path.text.toList = '/' :: ['/'].intercalate (l.map String.toList).reverse := by
  rw [Location.path, String.toList_append, String.toList_intercalate, List.map_reverse]
  rfl

theorem parentsOf_segments (hnames : ∀ n ∈ l, IsSegment n) :
    parentsOf ['/'] (l.map String.toList) = l.tails.tail.map Location.path := by
  induction l with
  | nil => rfl
  | cons name l ih =>
    obtain ⟨hname, hl⟩ := List.forall_mem_cons.mp hnames
    have hidle : (l.map String.toList).dropWhile isIdle = l.map String.toList := by
      rw [List.dropWhile_eq_self_iff]
      intro hpos
      obtain ⟨n, hn, hpiece⟩ := List.mem_map.mp (List.getElem_mem hpos)
      rw [← hpiece, isIdle_eq_false_of_isSegment (hl n hn)]
      exact Bool.false_ne_true
    have hpath : Path.mk (.ofList (['/'] ++ ['/'].intercalate (l.map String.toList).reverse)) =
        Location.path l := by
      apply eq_of_toList
      rw [String.toList_ofList, toList_path_eq_cons]
      rfl
    rw [List.map_cons, parentsOf, if_neg (by rw [isIdle_eq_false_of_isSegment hname]; decide), hidle,
      hpath, ih hl]
    cases l <;> rfl

/-- Above a location are the locations of its directories. -/
theorem ancestors_path (hnames : ∀ n ∈ l, IsSegment n) :
    l.path.ancestors = l.tails.map Location.path := by
  have hparents : l.path.parents = l.tails.tail.map Location.path := by
    have hslash : ∀ piece ∈ (l.map String.toList).reverse, '/' ∉ piece := by
      intro piece hpiece
      obtain ⟨n, hn, rfl⟩ := List.mem_map.mp (List.mem_reverse.mp hpiece)
      exact (hnames n hn).slash
    rw [parents, toList_path_eq_cons]
    show parentsOf ['/'] ((['/'].intercalate (l.map String.toList).reverse).splitOn '/').reverse = _
    rw [splitOn_intercalate hslash]
    cases l with
    | nil => rfl
    | cons name l =>
      rw [if_neg (by simp), List.reverse_reverse, parentsOf_segments hnames]
  rw [ancestors, hparents]
  cases l <;> rfl

/-- Of two paths of a climb the later one is on the way of the other. -/
theorem Climbs.pairwise {ps : List Path} (h : Climbs p ps) :
    ps.Pairwise fun a b => b.steps <+: a.steps ∧ b.isAbsolute = a.isAbsolute := by
  induction h with
  | top _ => exact List.pairwise_singleton _ _
  | up h hq ih =>
    refine List.pairwise_cons.mpr ⟨fun r hr => ?_, ih⟩
    exact (Climbs.up h hq).on_the_way r (List.mem_cons_of_mem _ hr)

/-- Without `..`, a path leads to a place below those on its way. -/
theorem exists_landing_eq_append (hsteps : q.steps <+: p.steps)
    (habsolute : q.isAbsolute = p.isAbsolute) (hup : ".." ∉ p.steps) (cwd : Location) :
    ∃ front, p.landing cwd = front ++ q.landing cwd := by
  obtain ⟨more, hmore⟩ := hsteps
  have hdots : ∀ n ∈ p.steps, n ≠ "." ∧ n ≠ ".." := by
    intro n hn
    refine ⟨by simpa using List.of_mem_filter hn, ?_⟩
    rintro rfl
    exact hup hn
  have hdots' : ∀ n ∈ q.steps, n ≠ "." ∧ n ≠ ".." := fun n hn =>
    hdots n (hmore ▸ List.mem_append_left _ hn)
  refine ⟨more.reverse, ?_⟩
  rw [landing_eq, landing_eq, FileTree.foldl_follow hdots, FileTree.foldl_follow hdots', ← hmore,
    List.reverse_append, List.append_assoc, FileTree.start, FileTree.start, habsolute]

end Path

/-! ### A file where nothing was -/

/-- A file is put where nothing was. -/
structure Gains (t : FileTree) (new : Location) (data : ByteArray) (t' : FileTree) : Prop where
  none : t.lookup new = none
  put : ∀ l, t'.lookup l = if l = new then some (.file data) else t.lookup l

namespace Gains

variable {t t' : FileTree} {new l l' cwd : Location} {data : ByteArray} {p : Path}

theorem grows (h : Gains t new data t') : t.Grows t' := by
  refine .of_put (.inr ?_) h.put
  rw [h.none]
  simp

theorem lookup_new (h : Gains t new data t') : t'.lookup new = some (.file data) := by
  rw [h.put, if_pos rfl]

theorem lookup_of_ne (h : Gains t new data t') (hne : l ≠ new) : t'.lookup l = t.lookup l := by
  rw [h.put, if_neg hne]

theorem directory_of_directory (h : Gains t new data t') (hl : t'.lookup l = some .directory) :
    t.lookup l = some .directory := by
  rwa [h.lookup_of_ne] at hl
  rintro rfl
  rw [h.lookup_new] at hl
  cases hl

/-- Names lead on from no file, so those that lead past the new one did so before. -/
theorem walk_of_ne {names : List String} (h : Gains t new data t')
    (hwalk : t'.walk l names = .ok l') (hne : l' ≠ new) : t.walk l names = .ok l' := by
  induction names generalizing l with
  | nil => exact hwalk
  | cons name names ih =>
    rw [FileTree.walk] at hwalk ⊢
    split_ifs at hwalk with hdir hdot hup hlong hsome
    all_goals rw [if_neg (not_not.mpr (h.directory_of_directory (not_not.mp hdir)))]
    · rw [if_pos hdot]
      exact ih hwalk
    · rw [if_neg hdot, if_pos hup]
      exact ih hwalk
    · have hnew : name :: l ≠ new := by
        rintro rfl
        cases names with
        | nil => exact hne (Except.ok.inj hwalk).symm
        | cons next names =>
          rw [FileTree.walk, h.lookup_new, if_pos (by simp)] at hwalk
          cases hwalk
      rw [if_neg hdot, if_neg hup, if_neg hlong, if_pos (h.lookup_of_ne hnew ▸ hsome)]
      exact ih hwalk

/-- Files are shown where they were before. -/
theorem view_file (h : Gains t new data t') {d : ByteArray}
    (hview : t.view cwd p = .ok (.file d)) : t'.view cwd p = .ok (.file d) := by
  have hlookup := FileTree.lookup_of_view hview
  refine h.grows.view_file hview ?_
  rw [h.lookup_of_ne, hlookup]
  intro hnew
  rw [hnew, h.none] at hlookup
  cases hlookup

theorem view_file_iff (h : Gains t new data t') (hne : p.landing cwd ≠ new) {d : ByteArray} :
    t'.view cwd p = .ok (.file d) ↔ t.view cwd p = .ok (.file d) := by
  refine ⟨fun hview => ?_, h.view_file⟩
  rw [FileTree.view_eq] at hview ⊢
  obtain ⟨_, hcheck, hview⟩ := Traced.exists_of_bind hview
  obtain ⟨l, hwalk, hview⟩ := Traced.exists_of_bind hview
  have hl : l ≠ new := by
    rw [FileTree.eq_foldl_of_walk hwalk]
    exact hne
  rw [hcheck, h.walk_of_ne hwalk hl]
  simp only [bind, Except.bind]
  rwa [← h.lookup_of_ne hl]

/-! ### Searches before and after -/

open Config

variable {start path : Path} {nearer : List Path} {d : ByteArray} {here : Location}

/-- If the nearest file is not the new one, it was the nearest before. -/
theorem findAndLoad_eq (h : Gains t new data t')
    (hfirst : FirstFile (t'.view here) (candidates start) nearer path d)
    (hne : path.landing here ≠ new) :
    findAndLoad (t'.view here) start = findAndLoad (t.view here) start := by
  refine .symm (hfirst.findAndLoad_eq_of_same ⟨hfirst.append, fun p hp d hview => ?_, ?_⟩)
  · exact hfirst.nearer p hp d (h.view_file hview)
  · exact (h.view_file_iff hne).mp hfirst.file

/-- If the search did not look for a file at the new place before it came to one, that one is still the
nearest. -/
theorem findAndLoad_eq_of_nearer (h : Gains t new data t')
    (hfirst : FirstFile (t.view here) (candidates start) nearer path d)
    (hne : ∀ p ∈ nearer, p.landing here ≠ new) :
    findAndLoad (t'.view here) start = findAndLoad (t.view here) start := by
  refine hfirst.findAndLoad_eq_of_same ⟨hfirst.append, fun p hp d hview => ?_, h.view_file hfirst.file⟩
  exact hfirst.nearer p hp d ((h.view_file_iff (hne p hp)).mp hview)

end Gains

/-- A search that does not go up by `..` looks below a directory before it looks into it. -/
theorem Config.FirstFile.landing_ne_of_below {view : View} {start path : Path} {nearer : List Path}
    {d : ByteArray} {here cwd below : Location}
    (hfirst : FirstFile view (candidates start) nearer path d) (hup : ".." ∉ start.names)
    (hbelow : below ≠ []) (hpath : path.landing here = fileName :: (below ++ cwd)) :
    ∀ p ∈ nearer, p.landing here ≠ fileName :: cwd := by
  have hplain : IsPlainName fileName := by decide
  intro p hp
  obtain ⟨farther, hcandidates⟩ := hfirst.append
  obtain ⟨before, _, hdirs, rfl, hrest⟩ := List.map_eq_append_iff.mp hcandidates
  obtain ⟨last, after, rfl, rfl, -⟩ := List.map_eq_cons_iff.mp hrest
  obtain ⟨directory, hdirectory, rfl⟩ := List.mem_map.mp hp
  have hlast : last.landing here = below ++ cwd := by
    rw [Path.landing_join hplain] at hpath
    exact (List.cons_eq_cons.mp hpath).2
  have hclimbs := start.climbs_ancestors
  have hpairwise := hclimbs.pairwise
  rw [hdirs, List.pairwise_append] at hpairwise
  obtain ⟨hsteps, habsolute⟩ := hpairwise.2.2 directory hdirectory last List.mem_cons_self
  have hsteps' : ".." ∉ directory.steps := by
    obtain ⟨hbegins, -⟩ := hclimbs.on_the_way directory (hdirs ▸ List.mem_append_left _ hdirectory)
    intro hmem
    exact hup (List.mem_of_mem_filter (hbegins.subset hmem))
  obtain ⟨front, hfront⟩ := Path.exists_landing_eq_append hsteps habsolute hsteps' here
  rw [Path.landing_join hplain, hfront, hlast]
  intro heq
  have hlength := congrArg List.length heq
  have hpos := List.length_pos_iff.mpr hbelow
  simp only [List.length_cons, List.length_append] at hlength
  omega

/-! ### The new file as the nearest -/

theorem candidates_path {l : Location} (hnames : ∀ n ∈ l, IsSegment n) :
    Config.candidates l.path = l.tails.map fun m => Location.path (Config.fileName :: m) := by
  have hname : IsSegment Config.fileName := by decide
  rw [Config.candidates, Path.ancestors_path hnames, List.map_map]
  refine List.map_congr_left fun m hm => FileTree.join_path fun n hn => ?_
  rcases List.mem_cons.mp hn with rfl | hn
  · exact hname
  · exact hnames n ((List.mem_tails _ _).mp hm |>.subset hn)

/-- Above a place below a directory are the places up to the directory, then those from it on. -/
theorem exists_tails_append (below cwd : Location) : ∃ nearer farther,
    (below ++ cwd).tails = nearer ++ cwd :: farther ∧
      ∀ m ∈ nearer, ∃ l, l <:+ below ∧ l ≠ [] ∧ m = l ++ cwd := by
  induction below with
  | nil => cases cwd <;> exact ⟨[], _, rfl, nofun⟩
  | cons name below ih =>
    obtain ⟨nearer, farther, htails, hnearer⟩ := ih
    refine ⟨(name :: below ++ cwd) :: nearer, farther, ?_, fun m hm => ?_⟩
    · rw [List.cons_append, List.tails, htails]
      rfl
    · rcases List.mem_cons.mp hm with rfl | hm
      · exact ⟨name :: below, List.suffix_rfl, List.cons_ne_nil _ _, rfl⟩
      · obtain ⟨l, hl, hne, rfl⟩ := hnearer m hm
        exact ⟨l, hl.trans (List.suffix_cons _ _), hne, rfl⟩

/-- A search from below a directory comes to the file of that directory, unless a nearer one has its own. -/
theorem Config.exists_firstFile_of_below {t : FileTree} {below cwd here : Location} {data : ByteArray}
    (hcwd : ∀ n ∈ cwd, IsSegment n) (hbelow : ∀ n ∈ below, IsSegment n)
    (hnearer : ∀ l, l <:+ below → l ≠ [] → ∀ d, t.lookup (fileName :: (l ++ cwd)) ≠ some (.file d))
    (hview : t.view here (Location.path (fileName :: cwd)) = .ok (.file data)) :
    ∃ nearer, FirstFile (t.view here) (candidates (Location.path (below ++ cwd))) nearer
      (Location.path (fileName :: cwd)) data := by
  have hnames : ∀ l, l <:+ below → ∀ n ∈ l ++ cwd, IsSegment n := by
    intro l hl n hn
    rcases List.mem_append.mp hn with hn | hn
    · exact hbelow n (hl.subset hn)
    · exact hcwd n hn
  obtain ⟨nearer, farther, htails, hsuffix⟩ := exists_tails_append below cwd
  refine ⟨nearer.map fun m => Location.path (fileName :: m),
    ⟨farther.map fun m => Location.path (fileName :: m), ?_⟩, fun p hp d hp' => ?_, hview⟩
  · rw [candidates_path (hnames below List.suffix_rfl), htails, List.map_append, List.map_cons]
  · obtain ⟨m, hm, rfl⟩ := List.mem_map.mp hp
    obtain ⟨l, hl, hne, rfl⟩ := hsuffix m hm
    have hlookup := FileTree.lookup_of_view hp'
    rw [FileTree.landing_path (Request.isSegment_fileName (hnames l hl))] at hlookup
    exact hnearer l hl hne d hlookup

/-- What the template says. -/
def Config.initial : Config := ⟨some .openCL20, some "amdgcn-amd-amdhsa--gfx900", some ""⟩

theorem Config.parse?_template : parse? template = some initial := by decide +kernel

theorem Config.size_collect_initial :
    (initial.resolve none none none).collect.result.toOption.map DataSet.size = some 8 := by
  decide +kernel

theorem Config.fromUTF8?_toUTF8 (text : String) : String.fromUTF8? text.toUTF8 = some text := by
  have hvalid : text.toUTF8.IsValidUTF8 := text.isValidUTF8
  rw [String.fromUTF8?, dif_pos hvalid]
  rfl

/-- The template gives an action that eight libraries are collected for. -/
theorem Config.collect_initial : ∃ set,
    (initial.resolve none none none).collect.result = .ok set ∧ set.size = 8 := by
  have hok : ∀ (x : Except CommandError DataSet) (set : DataSet),
      x.toOption = some set → x = .ok set := by
    intro x set h
    cases x with
    | error e => cases h
    | ok set' => exact congrArg _ (Option.some.inj h)
  obtain ⟨set, hset, hsize⟩ := Option.map_eq_some_iff.mp size_collect_initial
  exact ⟨set, hok _ _ hset, hsize⟩

namespace Request

open Config

variable {r : Request} {t t' : FileTree} {cwd : Location}

/-- The tree of before with an initial configuration in the working directory. -/
structure Initialized (cwd : Location) (t t' : FileTree) : Prop where
  /-- Nothing else is changed. -/
  gains : Gains t (fileName :: cwd) template.toUTF8 t'
  /-- It is not written again. -/
  again : ∀ r : Request, r.command = .init → (r.run t' cwd).1 = t' ∧ (r.run t' cwd).2.exitCode = 1
  /-- Searches find it from the directory and from below, up to the first directory that has a file of
  its own. -/
  found : ∀ below here : Location, (∀ n ∈ below, IsSegment n) →
    (∀ l, l <:+ below → l ≠ [] → ∀ data, t'.lookup (fileName :: (l ++ cwd)) ≠ some (.file data)) →
    ∃ config set,
      findAndLoad (t'.view here) (Location.path (below ++ cwd)) =
        .ok (some (config, Location.path (fileName :: cwd))) ∧
      (config.resolve none none none).collect.result = .ok set ∧ set.size = 8
  /-- Searches that come to another file do not depend on it. -/
  passed : ∀ (here : Location) (start : Path) (nearer : List Path) (path : Path) (data : ByteArray),
    FirstFile (t'.view here) (candidates start) nearer path data →
    path.landing here ≠ fileName :: cwd →
    findAndLoad (t'.view here) start = findAndLoad (t.view here) start
  /-- Searches that came to a file below it still do, if they do not go up by `..`, or did not look for a
  file in its place before. -/
  kept : ∀ (here : Location) (start : Path) (nearer : List Path) (path : Path) (data : ByteArray),
    FirstFile (t.view here) (candidates start) nearer path data →
    (∃ below, below ≠ [] ∧ path.landing here = fileName :: (below ++ cwd)) →
    (".." ∉ start.names ∨ ∀ p ∈ nearer, p.landing here ≠ fileName :: cwd) →
    findAndLoad (t'.view here) start = findAndLoad (t.view here) start

/-- Whatever has the name of the configuration is seen, or nothing can be written there. -/
theorem hasConfig_of_isSome (hcwd : ∀ n ∈ cwd, IsSegment n)
    (h : (t.lookup (fileName :: cwd)).isSome) : HasConfig t cwd ∨ ¬ AllowsConfig t cwd := by
  refine or_iff_not_imp_right.mpr fun hallows => ?_
  obtain ⟨t', hwrite⟩ := not_not.mp hallows
  obtain ⟨hslash, -, name, parent, hlast, hshort⟩ := FileTree.exists_of_writeFile hwrite
  obtain ⟨e, he⟩ := Option.isSome_iff_exists.mp h
  rw [← configPlace_eq hcwd, configPlace, (FileTree.of_resolveLast hlast).2] at he
  have hview := (FileTree.Grows.refl t).view_of_resolveLast hlast hshort he
  rcases e with data | _
  · rw [FileTree.shown, if_neg (by rw [hslash]; exact Bool.false_ne_true)] at hview
    exact ⟨_, hview⟩
  · exact ⟨_, hview⟩

theorem not_hasConfig_of_eq_none (hcwd : ∀ n ∈ cwd, IsSegment n)
    (h : t.lookup (fileName :: cwd) = none) : ¬ HasConfig t cwd := by
  rintro ⟨e, he⟩
  have hlookup := FileTree.lookup_of_view he
  rw [← configPlace, configPlace_eq hcwd, h] at hlookup
  cases hlookup

theorem run_init_of_hasConfig (hcommand : r.command = .init)
    (h : HasConfig t cwd ∨ ¬ AllowsConfig t cwd) :
    (r.run t cwd).1 = t ∧ (r.run t cwd).2.exitCode = 1 := by
  rcases run_init hcommand t cwd with ⟨hno, hallows, -⟩ | ⟨-, hrun⟩
  · exact absurd h (not_or.mpr ⟨hno, not_not.mpr hallows⟩)
  · obtain ⟨htree, hcode, -⟩ := Prod.mk.inj hrun |>.imp_right Prod.mk.inj
    exact ⟨htree, hcode⟩

theorem initialized_of_writeFile (hcwd : ∀ n ∈ cwd, IsSegment n)
    (hnone : t.lookup (fileName :: cwd) = none)
    (hwrite : t.writeFile cwd (cwd.path.join fileName) template.toUTF8 = .ok t') :
    Initialized cwd t t' := by
  have hview := FileTree.view_writeFile hwrite
  have hgains : Gains t (fileName :: cwd) template.toUTF8 t' := by
    refine ⟨hnone, fun l => ?_⟩
    rw [FileTree.lookup_writeFile hwrite, ← configPlace, configPlace_eq hcwd]
  refine ⟨hgains, fun r hcommand => ?_, fun below here hbelow hnearer => ?_, ?_, ?_⟩
  · exact run_init_of_hasConfig hcommand (.inl ⟨_, hview⟩)
  · obtain ⟨set, hset, hsize⟩ := collect_initial
    refine ⟨initial, set, ?_, hset, hsize⟩
    have hhere : t'.view here (Location.path (fileName :: cwd)) = .ok (.file template.toUTF8) := by
      rw [FileTree.join_path (isSegment_fileName hcwd)] at hview
      rwa [FileTree.view_eq, FileTree.start_path, ← FileTree.start_path _ cwd, ← FileTree.view_eq]
    obtain ⟨nearer, hfirst⟩ := exists_firstFile_of_below hcwd hbelow hnearer hhere
    exact (Finds.config hfirst (fromUTF8?_toUTF8 _) parse?_template).findAndLoad_eq
  · exact fun here start nearer path data hfirst hne => hgains.findAndLoad_eq hfirst hne
  · rintro here start nearer path data hfirst ⟨below, hbelow, hpath⟩ hpasses
    refine hgains.findAndLoad_eq_of_nearer hfirst ?_
    rcases hpasses with hup | hnearer
    · exact hfirst.landing_ne_of_below hup hbelow hpath
    · exact hnearer

/-- Where anything has the name of the configuration, or nothing can be written, `init` fails and leaves the
tree as it is. Elsewhere it succeeds, and leaves an initialized tree. -/
theorem init_then_search (hcommand : r.command = .init) (t : FileTree)
    (hcwd : ∀ n ∈ cwd, IsSegment n) :
    ((t.lookup (fileName :: cwd)).isSome ∨ ¬ AllowsConfig t cwd →
      (r.run t cwd).1 = t ∧ (r.run t cwd).2.exitCode = 1) ∧
    (t.lookup (fileName :: cwd) = none → AllowsConfig t cwd →
      (r.run t cwd).2.exitCode = 0 ∧ Initialized cwd t (r.run t cwd).1) := by
  constructor
  · rintro (hsome | hallows)
    · exact run_init_of_hasConfig hcommand (hasConfig_of_isSome hcwd hsome)
    · exact run_init_of_hasConfig hcommand (.inr hallows)
  · rintro hnone ⟨t', hwrite⟩
    obtain ⟨htree, hcode, -⟩ :=
      run_init_of_writeFile hcommand (not_hasConfig_of_eq_none hcwd hnone) hwrite
    rw [htree]
    exact ⟨hcode, initialized_of_writeFile hcwd hnone hwrite⟩

/-- A directory with two directories in it. -/
def branched : FileTree :=
  ((FileTree.empty.put "home" [] .directory (FileTree.lookup_root _) (.inl rfl)).put
    "b" ["home"] .directory rfl (.inl rfl)).put "c" ["home"] .directory rfl (.inl rfl)

theorem lookup_branched : branched.lookup [fileName, "b", "home"] ≠ some .directory := by decide

/-- One of the two has a configuration of its own, which says nothing. -/
def nested : FileTree :=
  branched.put fileName ["b", "home"] (.file "".toUTF8) rfl (.inr lookup_branched)

/-- The same with a directory where the configuration would be. -/
def nestedTaken : FileTree := nested.put fileName ["home"] .directory rfl (.inl rfl)

theorem init_then_search_of_nested :
    (run ⟨.init, none, false⟩ nestedTaken ["home"]).1 = nestedTaken ∧
    (run ⟨.init, none, false⟩ nested ["home"]).2.exitCode = 0 ∧
    (∃ config, findAndLoad ((run ⟨.init, none, false⟩ nested ["home"]).1.view [])
      (Location.path ["d", "c", "home"]) = .ok (some (config, Location.path [fileName, "home"]))) ∧
    findAndLoad ((run ⟨.init, none, false⟩ nested ["home"]).1.view [])
        (Location.path ["d", "b", "home"]) =
      findAndLoad (nested.view []) (Location.path ["d", "b", "home"]) := by
  have hcommand : Request.command ⟨.init, none, false⟩ = .init := rfl
  have hcwd : ∀ n ∈ ["home"], IsSegment n := by decide
  have hallows : AllowsConfig nested ["home"] := ⟨_, rfl⟩
  obtain ⟨hcode, hinit⟩ := (init_then_search hcommand nested hcwd).2 (by decide +kernel) hallows
  have htaken := (init_then_search hcommand nestedTaken hcwd).1 (.inl (by decide +kernel))
  have hnearer : ∀ l, l <:+ ["d", "c"] → l ≠ [] → ∀ data,
      (run ⟨.init, none, false⟩ nested ["home"]).1.lookup (fileName :: (l ++ ["home"])) ≠
        some (.file data) := by
    intro l hl hne data
    have hnone : ∀ l ∈ ["d", "c"].tails, l ≠ [] →
        fileName :: (l ++ ["home"]) ≠ [fileName, "home"] ∧
          nested.lookup (fileName :: (l ++ ["home"])) = none := by decide +kernel
    obtain ⟨hother, hempty⟩ := hnone l ((List.mem_tails _ _).mpr hl) hne
    rw [hinit.gains.lookup_of_ne hother, hempty]
    simp
  obtain ⟨config, set, hfound, -⟩ := hinit.found ["d", "c"] [] (by decide) hnearer
  have hfirst : FirstFile (nested.view []) (candidates (Location.path ["d", "b", "home"]))
      [Location.path [fileName, "d", "b", "home"]] (Location.path [fileName, "b", "home"])
      "".toUTF8 := by
    refine ⟨⟨[Location.path [fileName, "home"], Location.path [fileName]], by decide +kernel⟩,
      fun p hp => ?_, rfl⟩
    obtain rfl := List.mem_singleton.mp hp
    exact isFile_eq_false_iff.mp (by decide +kernel)
  refine ⟨htaken.1, hcode, ⟨config, hfound⟩, ?_⟩
  exact hinit.kept [] _ _ _ _ hfirst ⟨["b"], List.cons_ne_nil _ _, by decide +kernel⟩
    (.inl (by decide +kernel))

/-- From `/home/b/..` a search looks into `/home` before it comes to the file of `/home/b`, which lies below.
That file is the nearest as long as `/home` has none, and not once it is initialized. -/
theorem passes_below_of_parent :
    (nested.lookup [fileName, "home"] = none ∧ AllowsConfig nested ["home"] ∧
      (run ⟨.init, none, false⟩ nested ["home"]).2.exitCode = 0) ∧
    FirstFile (nested.view []) (candidates ⟨"/home/b/.."⟩) [⟨"/home/b/../comgr.toml"⟩]
      ⟨"/home/b/comgr.toml"⟩ "".toUTF8 ∧
    (Path.mk "/home/b/comgr.toml").landing [] = fileName :: (["b"] ++ ["home"]) ∧
    findAndLoad (nested.view []) ⟨"/home/b/.."⟩ = .ok (some ({}, ⟨"/home/b/comgr.toml"⟩)) ∧
    findAndLoad ((run ⟨.init, none, false⟩ nested ["home"]).1.view []) ⟨"/home/b/.."⟩ =
      .ok (some (initial, ⟨"/home/b/../comgr.toml"⟩)) := by
  have hallows : AllowsConfig nested ["home"] := ⟨_, rfl⟩
  have hfirst : FirstFile (nested.view []) (candidates ⟨"/home/b/.."⟩) [⟨"/home/b/../comgr.toml"⟩]
      ⟨"/home/b/comgr.toml"⟩ "".toUTF8 := by
    refine ⟨⟨[⟨"/home/comgr.toml"⟩, ⟨"/comgr.toml"⟩], by decide +kernel⟩, fun p hp => ?_, rfl⟩
    obtain rfl := List.mem_singleton.mp hp
    exact isFile_eq_false_iff.mp (by decide +kernel)
  refine ⟨⟨by decide +kernel, hallows, by decide +kernel⟩, hfirst, by decide +kernel, ?_, ?_⟩
  · exact (Finds.config hfirst (fromUTF8?_toUTF8 _) (by decide +kernel)).findAndLoad_eq
  · have hnew : FirstFile ((run ⟨.init, none, false⟩ nested ["home"]).1.view [])
        (candidates ⟨"/home/b/.."⟩) [] ⟨"/home/b/../comgr.toml"⟩ template.toUTF8 := by
      refine ⟨⟨[⟨"/home/b/comgr.toml"⟩, ⟨"/home/comgr.toml"⟩, ⟨"/comgr.toml"⟩], by decide +kernel⟩,
        nofun, rfl⟩
    exact (Finds.config hnew (fromUTF8?_toUTF8 _) parse?_template).findAndLoad_eq

end Request

end DeviceLibs
