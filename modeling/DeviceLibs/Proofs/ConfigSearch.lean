import DeviceLibs.Config
import DeviceLibs.Proofs.LexicalParent

/-!
# The search for a configuration

A configuration is looked for in a directory, in its lexical parent, in the parent of that, and so on. The
first regular file decides, whether it can be read or not: `Finds` says what a search comes to, and
`findAndLoad_nearest` that `findAndLoad` comes to the same, in every file tree and from every path. What
lies behind the first file has no say in it.
-/

namespace DeviceLibs.Config

variable {view view' : View} {start path : Path} {paths nearer : List Path} {data : ByteArray}
  {r : Except ConfigError (Option (Config × Path))}

/-- Of the paths it is the first that leads to a regular file. -/
structure FirstFile (view : View) (paths nearer : List Path) (path : Path) (data : ByteArray) :
    Prop where
  append : ∃ farther, paths = nearer ++ path :: farther
  nearer : ∀ p ∈ nearer, ∀ data, view p ≠ .ok (.file data)
  file : view path = .ok (.file data)

/-- What a search through some paths comes to. -/
inductive Finds (view : View) (paths : List Path) :
    Except ConfigError (Option (Config × Path)) → Prop where
  | nothing (h : ∀ p ∈ paths, ∀ data, view p ≠ .ok (.file data)) : Finds view paths (.ok none)
  | config {nearer : List Path} {path : Path} {data : ByteArray} {text : String} {config : Config}
    (h : FirstFile view paths nearer path data) (htext : String.fromUTF8? data = some text)
    (hconfig : parse? text = some config) : Finds view paths (.ok (some (config, path)))
  | unreadable {nearer : List Path} {path : Path} {data : ByteArray}
    (h : FirstFile view paths nearer path data) (htext : String.fromUTF8? data = none) :
    Finds view paths (.error (.reading path .invalidUtf8))
  | unparsable {nearer : List Path} {path : Path} {data : ByteArray} {text : String}
    (h : FirstFile view paths nearer path data) (htext : String.fromUTF8? data = some text)
    (hconfig : parse? text = none) : Finds view paths (.error (.parsing path))

theorem isFile_eq_true_iff : isFile view path = true ↔ ∃ data, view path = .ok (.file data) := by
  unfold isFile
  rcases view path with e | ⟨data⟩ | _ <;> simp

theorem isFile_eq_false_iff :
    isFile view path = false ↔ ∀ data, view path ≠ .ok (.file data) := by
  rw [← Bool.not_eq_true, isFile_eq_true_iff, not_exists]

theorem find?_eq_none_iff : find? view start = none ↔
    ∀ p ∈ candidates start, ∀ data, view p ≠ .ok (.file data) := by
  simp only [find?, List.find?_eq_none, Bool.not_eq_true, isFile_eq_false_iff]

theorem find?_eq_some_iff : find? view start = some path ↔
    ∃ nearer data, FirstFile view (candidates start) nearer path data := by
  rw [find?, List.find?_eq_some_iff_append, isFile_eq_true_iff]
  constructor
  · rintro ⟨⟨data, hfile⟩, nearer, farther, hpaths, hnearer⟩
    refine ⟨nearer, data, ⟨farther, hpaths⟩, fun p hp => ?_, hfile⟩
    exact isFile_eq_false_iff.mp (by simpa using hnearer p hp)
  · rintro ⟨nearer, data, ⟨farther, hpaths⟩, hnearer, hfile⟩
    refine ⟨⟨data, hfile⟩, nearer, farther, hpaths, fun p hp => ?_⟩
    rw [isFile_eq_false_iff.mpr (hnearer p hp)]
    rfl

theorem FirstFile.findAndLoad_eq (h : FirstFile view (candidates start) nearer path data) :
    findAndLoad view start = (load view path).map fun config => some (config, path) := by
  rw [findAndLoad, find?_eq_some_iff.mpr ⟨nearer, data, h⟩]

theorem Finds.findAndLoad_eq (h : Finds view (candidates start) r) : findAndLoad view start = r := by
  cases h with
  | nothing h => rw [findAndLoad, find?_eq_none_iff.mpr h]
  | config h htext hconfig =>
    rw [h.findAndLoad_eq]
    simp only [load, h.file, htext, hconfig]
    rfl
  | unreadable h htext =>
    rw [h.findAndLoad_eq]
    simp only [load, h.file, htext]
    rfl
  | unparsable h htext hconfig =>
    rw [h.findAndLoad_eq]
    simp only [load, h.file, htext, hconfig]
    rfl

theorem exists_finds (view : View) (start : Path) : ∃ r, Finds view (candidates start) r := by
  cases hfind : find? view start with
  | none => exact ⟨_, .nothing (find?_eq_none_iff.mp hfind)⟩
  | some path =>
    obtain ⟨nearer, data, h⟩ := find?_eq_some_iff.mp hfind
    cases htext : String.fromUTF8? data with
    | none => exact ⟨_, .unreadable h htext⟩
    | some text =>
      cases hconfig : parse? text with
      | none => exact ⟨_, .unparsable h htext hconfig⟩
      | some config => exact ⟨_, .config h htext hconfig⟩

theorem findAndLoad_eq_iff : findAndLoad view start = r ↔ Finds view (candidates start) r := by
  refine ⟨fun h => ?_, Finds.findAndLoad_eq⟩
  obtain ⟨r', hr'⟩ := exists_finds view start
  rwa [← h, hr'.findAndLoad_eq]

/-- What is found depends on the first file and its path alone. -/
theorem FirstFile.findAndLoad_eq_of_same (h : FirstFile view (candidates start) nearer path data)
    (h' : FirstFile view' (candidates start) nearer path data) :
    findAndLoad view' start = findAndLoad view start := by
  rw [h.findAndLoad_eq, h'.findAndLoad_eq]
  simp only [load, h.file, h'.file]

/-- Paths up to the first file decide on what is found. -/
theorem FirstFile.findAndLoad_congr (h : FirstFile view (candidates start) nearer path data)
    (hsame : ∀ p ∈ nearer ++ [path], view' p = view p) :
    findAndLoad view' start = findAndLoad view start := by
  refine h.findAndLoad_eq_of_same ⟨h.append, fun p hp => ?_, ?_⟩
  · rw [hsame p (List.mem_append_left _ hp)]
    exact h.nearer p hp
  · exact (hsame path (by simp)).trans h.file

/-- The directories of a search are the path that it starts from, its parent, and so on to the last, by
their texts alone. Of the files `comgr.toml` in them the nearest one is loaded, or is the reason why
nothing is; nothing is found exactly if there is none. Trees that show the same up to the nearest file come
to the same. -/
theorem findAndLoad_nearest (start : Path) :
    ∃ directories, start.Climbs directories ∧
      (∀ others, start.Climbs others → others = directories) ∧
      ∀ (t : FileTree) (cwd : Location),
        (∀ r, findAndLoad (t.view cwd) start = r ↔
          Finds (t.view cwd) (directories.map (·.join "comgr.toml")) r) ∧
        ∀ nearer path data,
          FirstFile (t.view cwd) (directories.map (·.join "comgr.toml")) nearer path data →
          ∀ (t' : FileTree) (cwd' : Location),
            (∀ p ∈ nearer ++ [path], t'.view cwd' p = t.view cwd p) →
            findAndLoad (t'.view cwd') start = findAndLoad (t.view cwd) start := by
  refine ⟨start.ancestors, start.climbs_ancestors, fun others h => h.unique start.climbs_ancestors,
    fun t cwd => ⟨fun r => findAndLoad_eq_iff, ?_⟩⟩
  intro nearer path data h t' cwd' hsame
  exact h.findAndLoad_congr hsame

/-- A tree with a text that is no configuration in the directory `a`. -/
def blocked : FileTree :=
  (FileTree.empty.put "a" [] .directory rfl (.inl rfl)).put fileName ["a"] (.file "=".toUTF8) rfl
    (.inr (by decide))

/-- The same with a configuration in the root. -/
def blockedTemplate : FileTree :=
  blocked.put fileName [] (.file template.toUTF8) rfl (.inr (by decide))

/-- A search from a directory that is missing fails at a text that is no configuration, and comes to the
same with a configuration behind that. -/
theorem findAndLoad_nearest_of_blocked :
    ∃ directories, Path.Climbs ⟨"/a/b/.."⟩ directories ∧
      directories = [⟨"/a/b/.."⟩, ⟨"/a/b"⟩, ⟨"/a"⟩, ⟨"/"⟩] ∧
      Finds (blocked.view []) (directories.map (·.join "comgr.toml"))
        (.error (.parsing ⟨"/a/comgr.toml"⟩)) ∧
      findAndLoad (blockedTemplate.view []) ⟨"/a/b/.."⟩ = findAndLoad (blocked.view []) ⟨"/a/b/.."⟩ := by
  obtain ⟨directories, hclimbs, hunique, hfinds⟩ := findAndLoad_nearest ⟨"/a/b/.."⟩
  obtain rfl := hunique _ (Path.climbs_ancestors _)
  have hfirst : FirstFile (blocked.view [])
      ((Path.ancestors ⟨"/a/b/.."⟩).map (·.join "comgr.toml"))
      [⟨"/a/b/../comgr.toml"⟩, ⟨"/a/b/comgr.toml"⟩] ⟨"/a/comgr.toml"⟩ "=".toUTF8 := by
    refine ⟨⟨[⟨"/comgr.toml"⟩], by decide +kernel⟩, fun p hp => ?_, rfl⟩
    have hnone : ∀ p ∈ [Path.mk "/a/b/../comgr.toml", ⟨"/a/b/comgr.toml"⟩],
        isFile (blocked.view []) p = false := by decide +kernel
    exact isFile_eq_false_iff.mp (hnone p hp)
  refine ⟨_, hclimbs, by decide +kernel, ((hfinds blocked []).1 _).mp (by rfl), ?_⟩
  exact (hfinds blocked []).2 _ _ _ hfirst blockedTemplate [] (by decide +kernel)

end DeviceLibs.Config
