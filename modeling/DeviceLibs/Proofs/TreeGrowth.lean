import DeviceLibs.Proofs.LocationPath

/-!
# Trees that grow

Making directories and writing files takes nothing away from a tree: what is a directory stays one, and
what is there stays there (`FileTree.Grows`). So paths lead where they led before (`Grows.walk`): a
directory that was made is found (`view_makeDirectory`), a file that was written has the data
(`view_writeFile`), and its path shows what is written there later (`Grows.view_file`).
-/

namespace DeviceLibs.FileTree

variable {t t' t'' : FileTree} {cwd l l' : Location} {p : Path} {e : FileEntry}

/-- What is a directory stays one, and what is there stays there. -/
structure Grows (t t' : FileTree) : Prop where
  directory : ∀ l, t.lookup l = some .directory → t'.lookup l = some .directory
  isSome : ∀ l, (t.lookup l).isSome → (t'.lookup l).isSome

/-! ### What success of an operation says -/

theorem exists_of_makeDirectory (h : t.makeDirectory cwd p = .ok t') :
    ∃ name parent, t.resolveLast cwd p = .ok (parent, some name) ∧
      name.utf8ByteSize ≤ nameBound := by
  obtain ⟨⟨parent, last⟩, hlast, h⟩ := Traced.exists_of_bind h
  cases last with
  | none => cases h
  | some name =>
    dsimp only at h
    split_ifs at h with hlong
    exact ⟨name, parent, hlast, Nat.not_lt.mp hlong⟩

theorem exists_of_writeFile {data : ByteArray} (h : t.writeFile cwd p data = .ok t') :
    p.endsInSlash = false ∧ t.lookup (p.landing cwd) ≠ some .directory ∧
      ∃ name parent, t.resolveLast cwd p = .ok (parent, some name) ∧
        name.utf8ByteSize ≤ nameBound := by
  obtain ⟨⟨parent, last⟩, hlast, h⟩ := Traced.exists_of_bind h
  cases last with
  | none => cases h
  | some name =>
    obtain ⟨-, hlanding⟩ := of_resolveLast hlast
    dsimp only at h
    split_ifs at h with hslash hlong hdir
    rw [hlanding]
    exact ⟨Bool.eq_false_iff.mpr hslash, hdir, name, parent, hlast, Nat.not_lt.mp hlong⟩

/-- What a path shows is at its location. -/
theorem lookup_of_view (h : t.view cwd p = .ok e) : t.lookup (p.landing cwd) = some e := by
  rw [view_eq] at h
  obtain ⟨-, -, h⟩ := Traced.exists_of_bind h
  obtain ⟨l, hwalk, h⟩ := Traced.exists_of_bind h
  rw [Path.landing, ← eq_foldl_of_walk hwalk]
  rcases hl : t.lookup l with _ | ⟨data⟩ | _
  · rw [hl] at h
    cases h
  · rw [hl, shown] at h
    split_ifs at h
    cases h
    rfl
  · rw [hl] at h
    cases h
    rfl

/-! ### Growth -/

namespace Grows

theorem refl (t : FileTree) : t.Grows t := ⟨fun _ h => h, fun _ h => h⟩

theorem trans (h : t.Grows t') (h' : t'.Grows t'') : t.Grows t'' where
  directory l hl := h'.directory l (h.directory l hl)
  isSome l hl := h'.isSome l (h.isSome l hl)

/-- A tree grows when an entry is put into it, but not a file in place of a directory. -/
theorem of_put {new : Location} (hnew : e = .directory ∨ t.lookup new ≠ some .directory)
    (hput : ∀ l, t'.lookup l = if l = new then some e else t.lookup l) : t.Grows t' where
  directory := by
    intro l hl
    rw [hput]
    split_ifs with heq
    · rcases hnew with rfl | hnew
      · rfl
      · exact absurd (heq ▸ hl) hnew
    · exact hl
  isSome := by
    intro l hl
    rw [hput]
    split_ifs
    · rfl
    · exact hl

theorem makeDirectory (h : t.makeDirectory cwd p = .ok t') : t.Grows t' :=
  of_put (.inl rfl) (lookup_makeDirectory h).2

theorem writeFile {data : ByteArray} (h : t.writeFile cwd p data = .ok t') : t.Grows t' :=
  of_put (.inr (exists_of_writeFile h).2.1) (lookup_writeFile h)

/-- Names lead where they led before. -/
theorem walk {names : List String} (h : t.Grows t') (hwalk : t.walk l names = .ok l') :
    t'.walk l names = .ok l' := by
  induction names generalizing l with
  | nil => exact hwalk
  | cons name names ih =>
    rw [FileTree.walk] at hwalk ⊢
    split_ifs at hwalk with hdir hdot hup hlong hsome
    all_goals rw [if_neg (not_not.mpr (h.directory l (not_not.mp hdir)))]
    · rw [if_pos hdot]
      exact ih hwalk
    · rw [if_neg hdot, if_pos hup]
      exact ih hwalk
    · rw [if_neg hdot, if_neg hup, if_neg hlong, if_pos (h.isSome _ hsome)]
      exact ih hwalk

/-- What is put where a path leads is what the path shows. -/
theorem view_of_resolveLast {name : String} (h : t.Grows t')
    (hlast : t.resolveLast cwd p = .ok (l, some name)) (hshort : name.utf8ByteSize ≤ nameBound)
    (he : t'.lookup (name :: l) = some e) : t'.view cwd p = shown p (some e) := by
  obtain ⟨hcheck, ⟨front, hnames, hwalk⟩, hdir, hdot, hup⟩ := exists_of_resolveLast hlast
  have hlong : ¬ nameBound < name.utf8ByteSize := Nat.not_lt.mpr hshort
  have hstep : t'.walk l [name] = .ok (name :: l) := by
    rw [FileTree.walk, if_neg (not_not.mpr (h.directory l hdir)), if_neg hdot, if_neg hup,
      if_neg hlong, if_pos (by rw [he]; rfl)]
    rfl
  rw [view_eq, hcheck, hnames, walk_append, h.walk hwalk]
  simp only [bind, Except.bind]
  rw [hstep, ← he]

/-- The path of a file shows what the file has become. -/
theorem view_file {data data' : ByteArray} (h : t.Grows t')
    (hview : t.view cwd p = .ok (.file data))
    (hl : t'.lookup (p.landing cwd) = some (.file data')) :
    t'.view cwd p = .ok (.file data') := by
  have hold := lookup_of_view hview
  rw [view_eq] at hview ⊢
  obtain ⟨_, hcheck, hview⟩ := Traced.exists_of_bind hview
  obtain ⟨l, hwalk, hview⟩ := Traced.exists_of_bind hview
  obtain rfl : p.landing cwd = l := (eq_foldl_of_walk hwalk).symm
  have hslash : ¬ p.endsInSlash = true := by
    intro hslash
    rw [hold, shown, if_pos hslash] at hview
    cases hview
  rw [hcheck, h.walk hwalk]
  simp only [bind, Except.bind]
  rw [hl, shown, if_neg hslash]

end Grows

/-- A directory that was made is found. -/
theorem view_makeDirectory (h : t.makeDirectory cwd p = .ok t') :
    t'.view cwd p = .ok .directory := by
  obtain ⟨name, parent, hlast, hshort⟩ := exists_of_makeDirectory h
  have hthere : t'.lookup (name :: parent) = some .directory := by
    rw [(lookup_makeDirectory h).2, (of_resolveLast hlast).2, if_pos rfl]
  exact (Grows.makeDirectory h).view_of_resolveLast hlast hshort hthere

/-- A file that was written has the data. -/
theorem view_writeFile {data : ByteArray} (h : t.writeFile cwd p data = .ok t') :
    t'.view cwd p = .ok (.file data) := by
  obtain ⟨hslash, -, name, parent, hlast, hshort⟩ := exists_of_writeFile h
  have hthere : t'.lookup (name :: parent) = some (.file data) := by
    rw [lookup_writeFile h, (of_resolveLast hlast).2, if_pos rfl]
  have hview := (Grows.writeFile h).view_of_resolveLast hlast hshort hthere
  rwa [shown, if_neg (by rw [hslash]; exact Bool.false_ne_true)] at hview

end DeviceLibs.FileTree
