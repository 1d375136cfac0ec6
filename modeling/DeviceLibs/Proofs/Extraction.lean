import DeviceLibs.Command.Basic
import DeviceLibs.Proofs.Directories
import DeviceLibs.Proofs.History

/-!
# Extraction

The objects of a set are written one after the other, each to its name in a directory. A name may come
again: what is written later stays (`lastNamed?`). How the tree is related to that of before does not
depend on where the writes end, at the last object or at one that is refused (`IsExtraction`).

* `Path.landing_join`: a plain name in a directory leads to the entry of that name, and nowhere else.
* `Written.cons`: what one more write in front does.
* `performAll_writes`: the writes go on up to the end or to the first that is refused.
* `performAll_extraction`: the directory, then the writes.
-/

namespace DeviceLibs

/-- A name of something in a directory, on its own. -/
structure IsPlainName (name : String) : Prop where
  nonempty : name ≠ ""
  slash : '/' ∉ name.toList
  nul : '\x00' ∉ name.toList
  dots : name ≠ "." ∧ name ≠ ".."

instance : DecidablePred IsPlainName := fun name =>
  decidable_of_iff
    (name ≠ "" ∧ '/' ∉ name.toList ∧ '\x00' ∉ name.toList ∧ name ≠ "." ∧ name ≠ "..")
    ⟨fun ⟨hne, hslash, hnul, hdots⟩ => ⟨hne, hslash, hnul, hdots⟩,
      fun h => ⟨h.nonempty, h.slash, h.nul, h.dots⟩⟩

namespace Path

variable {p : Path} {name : String}

/-! ### A name in a directory -/

theorem names_append_slash (front back : String) :
    (Path.mk (front ++ "/" ++ back)).names = (Path.mk front).names ++ (Path.mk back).names := by
  have hslash : "/".toList = ['/'] := rfl
  rw [names, String.toList_append, String.toList_append, hslash, List.append_assoc,
    List.singleton_append, List.splitOn_append_cons_self, List.filter_append, List.map_append]
  rfl

theorem exists_of_endsInSlash (h : p.endsInSlash = true) : ∃ front, p = ⟨front ++ "/"⟩ := by
  obtain ⟨cs, hcs⟩ := List.getLast?_eq_some_iff.mp (of_decide_eq_true h)
  refine ⟨.ofList cs, eq_of_toList ?_⟩
  rw [hcs, String.toList_append, String.toList_ofList]
  rfl

section

variable (hname : IsPlainName name)
include hname

theorem names_of_isPlainName : (Path.mk name).names = [name] := by
  have hpieces : ∀ piece ∈ [name.toList], '/' ∉ piece := by
    intro piece hpiece
    rw [List.mem_singleton.mp hpiece]
    exact hname.slash
  have hsplit : name.toList.splitOn '/' = [name.toList] := by
    have h := splitOn_intercalate hpieces
    rwa [if_neg (List.cons_ne_nil _ _), List.intercalate_singleton] at h
  have hchars : name.toList ≠ [] := by simpa using hname.nonempty
  rw [names, hsplit, List.filter_cons_of_pos (by simpa using hchars)]
  simp

theorem not_isAbsolute_of_isPlainName : (Path.mk name).isAbsolute = false :=
  decide_eq_false fun h => hname.slash (List.mem_of_mem_head? h)

theorem names_join (p : Path) : (p.join name).names = p.names ++ [name] := by
  have hends : ∀ front : String, (Path.mk (front ++ "/" ++ name)).names =
      (Path.mk front).names ++ [name] := by
    intro front
    rw [names_append_slash, names_of_isPlainName hname]
  rw [join, not_isAbsolute_of_isPlainName hname, if_neg Bool.false_ne_true]
  by_cases hempty : p.text = ""
  · have hnone : p.names = [] := by
      rw [names, hempty]
      rfl
    rw [if_pos (by simp [hempty]), hempty, String.empty_append, names_of_isPlainName hname, hnone]
    rfl
  · by_cases hslash : p.endsInSlash = true
    · obtain ⟨front, rfl⟩ := exists_of_endsInSlash hslash
      have hfront : (Path.mk (front ++ "/")).names = (Path.mk front).names := by
        have h := names_append_slash front ""
        rwa [String.append_empty, show (Path.mk "").names = [] from rfl, List.append_nil] at h
      rw [if_pos (by simp [hslash]), hends, hfront]
    · rw [if_neg (by simp [hempty, hslash]), hends]

theorem isAbsolute_join (p : Path) : (p.join name).isAbsolute = p.isAbsolute := by
  have hrelative := not_isAbsolute_of_isPlainName hname
  rw [join, hrelative, if_neg Bool.false_ne_true]
  by_cases hempty : p.text = ""
  · rw [if_pos (by simp [hempty]), hempty, String.empty_append, hrelative, isAbsolute, hempty]
    rfl
  · have hchars : p.text.toList ≠ [] := by simpa using hempty
    have hhead : ∀ back : String, (Path.mk (p.text ++ back)).isAbsolute = p.isAbsolute := by
      intro back
      rw [isAbsolute, isAbsolute, String.toList_append, List.head?_append_of_ne_nil _ hchars]
    by_cases hslash : p.endsInSlash = true
    · rw [if_pos (by simp [hslash]), hhead]
    · rw [if_neg (by simp [hempty, hslash]), String.append_assoc, hhead]

theorem landing_join (p : Path) (cwd : Location) :
    (p.join name).landing cwd = name :: p.landing cwd := by
  rw [landing, names_join hname, FileTree.start, isAbsolute_join hname, List.foldl_append]
  exact (if_neg hname.dots.1).trans (if_neg hname.dots.2)

end

end Path

/-! ### The last object of a name -/

/-- The last object of that name. -/
def lastNamed? (objects : List DataObject) (name : String) : Option DataObject :=
  objects.reverse.find? (·.name = name)

section

variable {o o' : DataObject} {objects : List DataObject} {name : String}

theorem lastNamed?_cons : lastNamed? (o :: objects) name =
    (lastNamed? objects name).or (if o.name = name then some o else none) := by
  rw [lastNamed?, List.reverse_cons, List.find?_append, List.find?_singleton]
  simp only [decide_eq_true_eq]
  rfl

theorem exists_lastNamed? (h : o ∈ objects) : ∃ o', lastNamed? objects o.name = some o' :=
  Option.isSome_iff_exists.mp
    (List.find?_isSome.mpr ⟨o, List.mem_reverse.mpr h, decide_eq_true rfl⟩)

/-- When names are distinct, it is the first one too. -/
theorem lastNamed?_eq_find? (h : (objects.map (·.name)).Nodup) (name : String) :
    lastNamed? objects name = objects.find? (·.name = name) := by
  induction objects with
  | nil => rfl
  | cons o objects ih =>
    obtain ⟨hfresh, hrest⟩ := List.nodup_cons.mp h
    rw [lastNamed?_cons, ih hrest]
    by_cases hname : o.name = name
    · have hnone : objects.find? (·.name = name) = none := by
        refine List.find?_eq_none.mpr fun o' ho' heq => hfresh ?_
        have hmem : o'.name ∈ objects.map (·.name) := List.mem_map_of_mem ho'
        rwa [of_decide_eq_true heq, ← hname] at hmem
      rw [hnone, if_pos hname, List.find?_cons_of_pos (by simpa using hname)]
      rfl
    · rw [if_neg hname, List.find?_cons_of_neg (by simpa using hname), Option.or_none]

end

/-! ### Writes to a directory -/

section

variable {t t' t'' : FileTree} {cwd : Location} {dir : Path} {o : DataObject}
  {objects : List DataObject}

/-- The objects have been written to the directory, in order. -/
structure Written (cwd : Location) (dir : Path) (t t' : FileTree) (objects : List DataObject) :
    Prop where
  grows : t.Grows t'
  shows : ∀ name o, lastNamed? objects name = some o →
    t'.view cwd (dir.join name) = .ok (.file o.data)
  others : ∀ l, (∀ o ∈ objects, l ≠ (dir.join o.name).landing cwd) → t'.lookup l = t.lookup l

namespace Written

theorem nil (t : FileTree) : Written cwd dir t t [] where
  grows := .refl t
  shows _ _ h := nomatch h
  others _ _ := rfl

/-- What is written first stays unless its name comes again. -/
theorem cons (hplain : ∀ o' ∈ o :: objects, IsPlainName o'.name)
    (hfirst : t.writeFile cwd (dir.join o.name) o.data = .ok t')
    (hrest : Written cwd dir t' t'' objects) : Written cwd dir t t'' (o :: objects) where
  grows := (FileTree.Grows.writeFile hfirst).trans hrest.grows
  shows := by
    intro name last hlast
    rw [lastNamed?_cons] at hlast
    cases hlater : lastNamed? objects name with
    | some o' =>
      rw [hlater] at hlast
      obtain rfl : o' = last := Option.some.inj hlast
      exact hrest.shows name o' hlater
    | none =>
      rw [hlater, Option.none_or] at hlast
      split_ifs at hlast with hname
      obtain rfl := Option.some.inj hlast
      subst hname
      have hview := FileTree.view_writeFile hfirst
      have hkept : t''.lookup ((dir.join o.name).landing cwd) = some (.file o.data) := by
        rw [hrest.others _ ?_, FileTree.lookup_of_view hview]
        intro o' ho' heq
        rw [Path.landing_join (hplain o List.mem_cons_self),
          Path.landing_join (hplain o' (List.mem_cons_of_mem _ ho'))] at heq
        obtain ⟨o'', ho''⟩ := exists_lastNamed? ho'
        rw [← (List.cons_eq_cons.mp heq).1, hlater] at ho''
        cases ho''
      exact hrest.grows.view_file hview hkept
  others := by
    intro l hl
    rw [hrest.others l fun o' ho' => hl o' (List.mem_cons_of_mem _ ho'),
      FileTree.lookup_writeFile hfirst, if_neg (hl o List.mem_cons_self)]

/-- Only files are written. -/
theorem directory_iff (h : Written cwd dir t t' objects) (l : Location) :
    t'.lookup l = some .directory ↔ t.lookup l = some .directory := by
  refine ⟨fun hdir => ?_, h.grows.directory l⟩
  by_cases hl : ∀ o ∈ objects, l ≠ (dir.join o.name).landing cwd
  · rwa [h.others l hl] at hdir
  · push Not at hl
    obtain ⟨o, ho, rfl⟩ := hl
    obtain ⟨last, hlast⟩ := exists_lastNamed? ho
    rw [FileTree.lookup_of_view (h.shows o.name last hlast)] at hdir
    cases hdir

end Written

/-- What is told of objects that are written. -/
def toldOf (dir : Path) (objects : List DataObject) : List Event :=
  objects.map fun o => .wroteFile (dir.join o.name).text o.data.size

/-- The objects are written up to the end, or up to one that is refused. -/
inductive WritesUpTo (cwd : Location) (dir : Path) (t : FileTree) (objects : List DataObject) :
    FileTree × Traced FileEffect.Failure Unit → Prop where
  | all {t' : FileTree} (h : Written cwd dir t t' objects) :
    WritesUpTo cwd dir t objects (t', ⟨toldOf dir objects, .ok ()⟩)
  | refused {t' : FileTree} {k : Nat} {o : DataObject} {e : FileError} (hk : objects[k]? = some o)
    (h : Written cwd dir t t' (objects.take k))
    (he : t'.writeFile cwd (dir.join o.name) o.data = .error e) :
    WritesUpTo cwd dir t objects
      (t', ⟨toldOf dir (objects.take k), .error ⟨.write (dir.join o.name) o.data, e⟩⟩)

theorem performAll_writes (hplain : ∀ o ∈ objects, IsPlainName o.name) (t : FileTree)
    (cwd : Location) (dir : Path) :
    WritesUpTo cwd dir t objects
      (FileEffect.performAll t cwd (objects.map fun o => .write (dir.join o.name) o.data)) := by
  induction objects generalizing t with
  | nil => exact .all (.nil t)
  | cons o objects ih =>
    rw [List.map_cons, FileEffect.performAll, FileEffect.perform]
    cases hwrite : t.writeFile cwd (dir.join o.name) o.data with
    | error e => exact .refused (k := 0) rfl (.nil t) hwrite
    | ok t₁ =>
      dsimp only
      have hrest := ih (fun o' ho' => hplain o' (List.mem_cons_of_mem _ ho')) t₁
      generalize FileEffect.performAll t₁ cwd
        (objects.map fun o => .write (dir.join o.name) o.data) = run at hrest ⊢
      cases hrest with
      | all h => exact .all (h.cons hplain hwrite)
      | @refused t' k o' e hk h he =>
        have hplain' : ∀ o' ∈ o :: objects.take k, IsPlainName o'.name := fun o' ho' =>
          hplain o' ((List.take_sublist (k + 1) (o :: objects)).subset ho')
        exact .refused (k := k + 1) hk (h.cons hplain' hwrite) he

end

/-! ### Extraction of a set -/

/-- The objects have been written to a directory made for them, and nothing else has been done. -/
structure IsExtraction (cwd : Location) (out : Path) (t t' : FileTree)
    (objects : List DataObject) : Prop where
  written : ∀ name o, lastNamed? objects name = some o →
    t'.view cwd (out.join name) = .ok (.file o.data)
  /-- Every other file has its old bytes, and there is no new one. -/
  files : ∀ l, (∀ o ∈ objects, l ≠ (out.join o.name).landing cwd) →
    ∀ data, t'.lookup l = some (.file data) ↔ t.lookup l = some (.file data)
  /-- What is new is missing among the directory and its lexical prefixes. -/
  directories : ∀ l, t'.lookup l = some .directory ↔
    t.lookup l = some .directory ∨
      t.lookup l = none ∧ ∃ q ∈ out.ancestors, q.text ≠ "" ∧ q.landing cwd = l

/-- How extraction ends: with every object written, without the directory and with no file created or
changed, or before an object whose file is refused, with those in front of it written. -/
inductive Extracts (cwd : Location) (out : Path) (t : FileTree) (s : DataSet) :
    FileTree × Traced FileEffect.Failure Unit → Prop where
  | done {t' : FileTree} (h : IsExtraction cwd out t t' s.objects) :
    Extracts cwd out t s (t', ⟨toldOf out s.objects, .ok ()⟩)
  | directoryRefused {t' : FileTree} {e : FileError}
    (h : ∀ l data, t'.lookup l = some (.file data) ↔ t.lookup l = some (.file data))
    (he : t.makeDirectories cwd out = (t', .error e)) :
    Extracts cwd out t s (t', ⟨[], .error ⟨.makeDirectories out, e⟩⟩)
  | objectRefused {t' : FileTree} {k : Nat} {o : DataObject} {e : FileError}
    (hk : s.get? k = some o) (h : IsExtraction cwd out t t' (s.objects.take k))
    (he : t'.writeFile cwd (out.join o.name) o.data = .error e) :
    Extracts cwd out t s
      (t', ⟨toldOf out (s.objects.take k), .error ⟨.write (out.join o.name) o.data, e⟩⟩)

section

variable {t t' : FileTree} {cwd : Location} {out : Path} {s : DataSet} {objects : List DataObject}

theorem Written.isExtraction (hmade : (t.makeDirectories cwd out).2 = .ok ())
    (h : Written cwd out (t.makeDirectories cwd out).1 t' objects) :
    IsExtraction cwd out t t' objects where
  written := h.shows
  files := by
    intro l hl data
    rw [h.others l hl]
    exact (FileTree.onlyMakes_makeDirectories t cwd out).file_iff l data
  directories := by
    intro l
    rw [h.directory_iff, FileTree.directory_iff_of_makeDirectories hmade]

theorem Extracts.of_ok {run : FileTree × Traced FileEffect.Failure Unit}
    (h : Extracts cwd out t s run) (hok : run.2.result = .ok ()) :
    IsExtraction cwd out t run.1 s.objects := by
  cases h with
  | done h => exact h
  | directoryRefused h he => cases hok
  | objectRefused hk h he => cases hok

/-- The names of the table are plain, and requests bring no others. -/
theorem isPlainName_of_requests {limit : Option Nat} {memory : Nat} {steps : List Step}
    (h : ∀ step ∈ steps, step.isInsertion = false) :
    ∀ name ∈ (Step.finalSet (.start limit memory) steps).names, IsPlainName name := by
  have htable : ∀ b ∈ Blob.table, IsPlainName b.name := by decide +kernel
  intro name hname
  obtain ⟨o, ho, rfl⟩ := List.mem_map.mp hname
  rw [Step.objects_finalSet_blocks h, DataSet.objects_start, List.nil_append] at ho
  obtain ⟨block, -, hblock⟩ := List.mem_flatMap.mp ho
  obtain ⟨blob, hblob, -⟩ := Block.isFromTable_of_mem_objects hblock
  rw [← Blob.name_of_find? hblob]
  exact htable blob (List.mem_of_find?_eq_some hblob)

/-- What extraction writes is what the set holds, whatever the tree. -/
theorem performAll_extraction (t : FileTree) (cwd : Location) (out : Path) (s : DataSet)
    (hplain : ∀ name ∈ s.names, IsPlainName name) :
    Extracts cwd out t s (FileEffect.performAll t cwd (s.extraction out)) ∧
      (s.names.Nodup → ∀ name, lastNamed? s.objects name = s.find? name) ∧
      ∀ limit memory steps, (∀ step ∈ steps, step.isInsertion = false) →
        ∀ name ∈ (Step.finalSet (.start limit memory) steps).names, IsPlainName name := by
  refine ⟨?_, fun h name => lastNamed?_eq_find? h name, fun _ _ _ => isPlainName_of_requests⟩
  have hplain' : ∀ o ∈ s.objects, IsPlainName o.name := fun o ho =>
    hplain o.name (List.mem_map_of_mem ho)
  rw [DataSet.extraction, FileEffect.performAll, FileEffect.perform]
  cases hmade : t.makeDirectories cwd out with
  | mk t₁ made =>
    have hfirst : (t.makeDirectories cwd out).1 = t₁ := by rw [hmade]
    cases made with
    | error e =>
      refine .directoryRefused (fun l data => ?_) hmade
      rw [← hfirst]
      exact (FileTree.onlyMakes_makeDirectories t cwd out).file_iff l data
    | ok _ =>
      have hok : (t.makeDirectories cwd out).2 = .ok () := by rw [hmade]
      have hwrites := performAll_writes hplain' t₁ cwd out
      dsimp only
      generalize FileEffect.performAll t₁ cwd _ = run at hwrites ⊢
      cases hwrites with
      | all h => exact .done (Written.isExtraction hok (hfirst ▸ h))
      | refused hk h he => exact .objectRefused hk (Written.isExtraction hok (hfirst ▸ h)) he

end

/-- Three objects, two of them of one name. -/
def repeated : DataSet where
  objects := [⟨.bc, "a.bc", "1".toUTF8⟩, ⟨.log, "b.log", "2".toUTF8⟩, ⟨.bc, "a.bc", "3".toUTF8⟩]

/-- Two objects, the second with the name of a directory of `littered`. -/
def clashing : DataSet where
  objects := [⟨.bc, "a.bc", "1".toUTF8⟩, ⟨.log, "work", "2".toUTF8⟩]

/-- A file in a directory. -/
def littered : FileTree :=
  (FileTree.empty.put "work" [] .directory (FileTree.lookup_root _) (.inl rfl)).put "a.bc" ["work"]
    (.file "0".toUTF8) rfl (.inr (by decide))

/-- The first path goes up from a directory that is missing, and a name comes twice. At the second a
directory is in the way of the second object. -/
theorem performAll_extraction_of_repeated :
    (∀ name ∈ repeated.names, IsPlainName name) ∧
    IsExtraction ["work"] ⟨"new/../lib"⟩ littered
      (FileEffect.performAll littered ["work"] (repeated.extraction ⟨"new/../lib"⟩)).1
      repeated.objects ∧
    (FileEffect.performAll littered ["work"] (repeated.extraction ⟨"new/../lib"⟩)).1.view ["work"]
      ⟨"new/../lib/a.bc"⟩ = .ok (.file "3".toUTF8) ∧
    (FileEffect.performAll littered ["work"] (repeated.extraction ⟨"new/../lib"⟩)).1.lookup
      ["a.bc", "work"] = some (.file "0".toUTF8) ∧
    (FileEffect.performAll littered ["work"] (repeated.extraction ⟨"new/../lib"⟩)).1.lookup
      ["new", "work"] = some .directory ∧
    (∀ name ∈ clashing.names, IsPlainName name) ∧
    (FileEffect.performAll littered [] (clashing.extraction ⟨"/"⟩)).2.result =
      .error ⟨.write ⟨"/work"⟩ "2".toUTF8, .isADirectory⟩ ∧
    Extracts [] ⟨"/"⟩ littered clashing
      (FileEffect.performAll littered [] (clashing.extraction ⟨"/"⟩)) ∧
    clashing.names.Nodup ∧ lastNamed? clashing.objects "work" = clashing.find? "work" ∧
    ∀ name ∈ (Step.finalSet (.start none (2 ^ 20)) [.addHeader .openCL20]).names, IsPlainName name := by
  have hplain : ∀ name ∈ repeated.names, IsPlainName name := by decide +kernel
  have hok : (FileEffect.performAll littered ["work"]
      (repeated.extraction ⟨"new/../lib"⟩)).2.result = .ok () := by rfl
  have hout := (performAll_extraction littered ["work"] ⟨"new/../lib"⟩ repeated hplain).1.of_ok hok
  have hplain' : ∀ name ∈ clashing.names, IsPlainName name := by decide +kernel
  have hnodup : clashing.names.Nodup := by decide +kernel
  obtain ⟨hrefused, hfirst, hrequests⟩ := performAll_extraction littered [] ⟨"/"⟩ clashing hplain'
  refine ⟨hplain, hout, ?_, ?_, ?_, hplain', by rfl, hrefused, hnodup, hfirst hnodup _, ?_⟩
  · have hlast : lastNamed? repeated.objects "a.bc" = some ⟨.bc, "a.bc", "3".toUTF8⟩ := by
      decide +kernel
    have hpath : (Path.mk "new/../lib").join "a.bc" = ⟨"new/../lib/a.bc"⟩ := by decide +kernel
    rw [← hpath]
    exact hout.written _ _ hlast
  · exact (hout.files ["a.bc", "work"] (by decide +kernel) _).mpr rfl
  · exact (hout.directories ["new", "work"]).mpr (.inr ⟨rfl, ⟨"new"⟩, by decide +kernel⟩)
  · exact hrequests none (2 ^ 20) [.addHeader .openCL20] (by decide)

end DeviceLibs
