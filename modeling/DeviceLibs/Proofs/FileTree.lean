import DeviceLibs.Files.Effect
import Mathlib.Data.List.Basic
import Mathlib.Tactic.SplitIfs

/-!
# What effects on files depend on

Where an effect takes place is a matter of the path alone (`Path.landing`): a directory is made, or a
file written, there and nowhere else (`lookup_makeDirectory`, `lookup_writeFile`). Whether it succeeds is a
matter of what exists and what of that is a directory. Hence the content of a file decides nothing: in
trees that are the same but for one file all effects go the same way, and leave such trees
(`FileEffect.performAll_sameBut`). Making directories fills places where nothing was
(`FileTree.OnlyMakes.makeChain`), and a file that no effect writes keeps its content
(`FileEffect.lookup_performAll`).
-/

namespace DeviceLibs

/-- Goes on by one name. -/
def Location.follow (l : Location) (name : String) : Location :=
  if name = "." then l else if name = ".." then l.tail else name :: l

/-- The location that the text of a path means, whether anything is there or not. -/
def Path.landing (p : Path) (cwd : Location) : Location :=
  p.names.foldl Location.follow (FileTree.start cwd p)

def FileEntry.isDirectory : FileEntry → Bool
  | file _ => false
  | directory => true

namespace FileTree

variable {t t' : FileTree} {cwd l l' : Location} {p : Path}

theorem lookup_root (t : FileTree) : t.lookup [] = some .directory := rfl

/-! ### Where a path leads -/

theorem eq_foldl_of_walk {names : List String} (h : t.walk l names = .ok l') :
    l' = names.foldl Location.follow l := by
  induction names generalizing l with
  | nil => exact (Except.ok.inj h).symm
  | cons name names ih =>
    rw [walk] at h
    split_ifs at h with hdir hdot hup hlong hsome
    · rw [List.foldl_cons, Location.follow, if_pos hdot]
      exact ih h
    · rw [List.foldl_cons, Location.follow, if_neg hdot, if_pos hup]
      exact ih h
    · rw [List.foldl_cons, Location.follow, if_neg hdot, if_neg hup]
      exact ih h

theorem exists_of_resolveLast {name : String} (h : t.resolveLast cwd p = .ok (l, some name)) :
    checkPath p = .ok () ∧ (∃ front, p.names = front ++ [name] ∧ t.walk (start cwd p) front = .ok l) ∧
      t.lookup l = some .directory ∧ name ≠ "." ∧ name ≠ ".." := by
  obtain ⟨_, hcheck, h⟩ := Traced.exists_of_bind h
  cases hlast : p.names.getLast? with
  | none =>
    rw [hlast] at h
    cases h
  | some last =>
    rw [hlast] at h
    obtain ⟨l', hwalk, h⟩ := Traced.exists_of_bind h
    split_ifs at h with hdir hdots
    · cases h
    · obtain ⟨rfl, rfl⟩ : l' = l ∧ last = name := by simpa using Except.ok.inj h
      have hnames : p.names = p.names.dropLast ++ [last] :=
        (List.dropLast_append_getLast? last hlast).symm
      exact ⟨hcheck, ⟨_, hnames, hwalk⟩, not_not.mp hdir, not_or.mp hdots⟩

theorem of_resolveLast {name : String} (h : t.resolveLast cwd p = .ok (l, some name)) :
    t.lookup l = some .directory ∧ p.landing cwd = name :: l := by
  obtain ⟨-, ⟨front, hnames, hwalk⟩, hdir, hdot, hup⟩ := exists_of_resolveLast h
  refine ⟨hdir, ?_⟩
  rw [Path.landing, hnames, List.foldl_append, ← eq_foldl_of_walk hwalk]
  simp only [List.foldl_cons, List.foldl_nil, Location.follow, if_neg hdot, if_neg hup]

/-- A directory is made where nothing was, and nothing else changes. -/
theorem lookup_makeDirectory (h : t.makeDirectory cwd p = .ok t') :
    t.lookup (p.landing cwd) = none ∧
      ∀ l, t'.lookup l = if l = p.landing cwd then some .directory else t.lookup l := by
  obtain ⟨⟨l, last⟩, hlast, h⟩ := Traced.exists_of_bind h
  cases last with
  | none => cases h
  | some name =>
    obtain ⟨-, hlanding⟩ := of_resolveLast hlast
    dsimp only at h
    split_ifs at h with hlong hsome hdir
    obtain rfl := Except.ok.inj h
    rw [hlanding]
    exact ⟨by simpa using hsome, lookup_put hdir (.inl rfl)⟩

/-- A file is written where no directory was, and nothing else changes. -/
theorem lookup_writeFile {data : ByteArray} (h : t.writeFile cwd p data = .ok t') (l : Location) :
    t'.lookup l = if l = p.landing cwd then some (.file data) else t.lookup l := by
  obtain ⟨⟨parent, last⟩, hlast, h⟩ := Traced.exists_of_bind h
  cases last with
  | none => cases h
  | some name =>
    obtain ⟨-, hlanding⟩ := of_resolveLast hlast
    dsimp only at h
    split_ifs at h with hslash hlong hdir hparent
    obtain rfl := Except.ok.inj h
    rw [hlanding]
    exact lookup_put hparent (.inr hdir) l

/-- What a path shows of the entry that it leads to. -/
def shown (p : Path) : Option FileEntry → Except FileError FileEntry
  | none => .error .notFound
  | some .directory => .ok .directory
  | some (.file data) => if p.endsInSlash then .error .notADirectory else .ok (.file data)

theorem view_eq (t : FileTree) (cwd : Location) (p : Path) :
    t.view cwd p = (do
      checkPath p
      let l ← t.walk (start cwd p) p.names
      shown p (t.lookup l)) := by
  unfold view resolve
  cases checkPath p with
  | error e => rfl
  | ok _ =>
    cases t.walk (start cwd p) p.names with
    | error e => rfl
    | ok l =>
      simp only [bind, Except.bind]
      rcases t.lookup l with _ | _ | _
      · rfl
      · unfold shown
        split_ifs <;> rfl
      · rfl

theorem map_isDirectory_shown {o₁ o₂ : Option FileEntry}
    (h : o₁.map FileEntry.isDirectory = o₂.map FileEntry.isDirectory) (p : Path) :
    (shown p o₁).map FileEntry.isDirectory = (shown p o₂).map FileEntry.isDirectory := by
  rcases o₁ with _ | ⟨d₁⟩ | _ <;> rcases o₂ with _ | ⟨d₂⟩ | _ <;> try cases h
  · rfl
  · unfold shown
    split_ifs <;> rfl
  · rfl

/-- Makes a directory, or finds it there. -/
def ensure (t : FileTree) (cwd : Location) (p : Path) : FileTree × Except FileError Unit :=
  match t.makeDirectory cwd p with
  | .ok t' => (t', .ok ())
  | .error e => (t, if e = .alreadyExists ∧ t.isDirectory cwd p then .ok () else .error e)

theorem makeChain_of_notFound (h : t.makeDirectory cwd p = .error .notFound) (above : List Path) :
    t.makeChain cwd (p :: above) =
      match t.makeChain cwd above with
      | (t', .error e) => (t', .error e)
      | (t', .ok ()) => t'.ensure cwd p := by
  simp only [makeChain, h, ensure]
  rcases t.makeChain cwd above with ⟨t', e | _⟩
  · rfl
  · dsimp only
    cases t'.makeDirectory cwd p with
    | ok t'' => rfl
    | error e =>
      dsimp only
      split_ifs <;> rfl

theorem makeChain_of_ne_notFound (h : t.makeDirectory cwd p ≠ .error .notFound)
    (above : List Path) : t.makeChain cwd (p :: above) = t.ensure cwd p := by
  unfold makeChain ensure
  split
  next ht => rw [ht]
  next ht => exact absurd ht h
  next e _ ht =>
    rw [ht]
    dsimp only
    split_ifs <;> rfl

/-! ### Trees that are the same but for one file -/

/-- At `place` both trees have a file, and everywhere else they have the same. -/
structure SameBut (place : Location) (t₁ t₂ : FileTree) : Prop where
  same : ∀ l ≠ place, t₁.lookup l = t₂.lookup l
  files : (∃ d, t₁.lookup place = some (.file d)) ∧ ∃ d, t₂.lookup place = some (.file d)

/-- The same error, or trees that are still the same but for one file. -/
inductive SameOutcome (place : Location) :
    Except FileError FileTree → Except FileError FileTree → Prop where
  | error (e : FileError) : SameOutcome place (.error e) (.error e)
  | ok {t₁ t₂ : FileTree} (h : t₁.SameBut place t₂) : SameOutcome place (.ok t₁) (.ok t₂)

namespace SameOutcome

variable {place : Location} {c₁ c₂ : Prop} [Decidable c₁] [Decidable c₂]

/-- The same question is answered the same way. -/
theorem ite {x₁ x₂ y₁ y₂ : Except FileError FileTree} (hc : c₁ ↔ c₂)
    (hx : c₂ → SameOutcome place x₁ x₂) (hy : ¬ c₂ → SameOutcome place y₁ y₂) :
    SameOutcome place (if c₁ then x₁ else y₁) (if c₂ then x₂ else y₂) := by
  by_cases h : c₂
  · rw [if_pos h, if_pos (hc.mpr h)]
    exact hx h
  · rw [if_neg h, if_neg (hc.not.mpr h)]
    exact hy h

theorem dite {x₁ : c₁ → Except FileError FileTree} {x₂ : c₂ → Except FileError FileTree}
    {y₁ : ¬ c₁ → Except FileError FileTree} {y₂ : ¬ c₂ → Except FileError FileTree} (hc : c₁ ↔ c₂)
    (hx : ∀ h₁ h₂, SameOutcome place (x₁ h₁) (x₂ h₂))
    (hy : ∀ h₁ h₂, SameOutcome place (y₁ h₁) (y₂ h₂)) :
    SameOutcome place (if h : c₁ then x₁ h else y₁ h) (if h : c₂ then x₂ h else y₂ h) := by
  by_cases h : c₂
  · rw [dif_pos h, dif_pos (hc.mpr h)]
    exact hx _ _
  · rw [dif_neg h, dif_neg (hc.not.mpr h)]
    exact hy _ _

end SameOutcome

namespace SameBut

variable {place : Location} {t₁ t₂ t₁' t₂' : FileTree}

/-- What exists, and what of it is a directory, is the same. -/
theorem map_isDirectory (h : t₁.SameBut place t₂) (l : Location) :
    (t₁.lookup l).map FileEntry.isDirectory = (t₂.lookup l).map FileEntry.isDirectory := by
  by_cases hl : l = place
  · obtain ⟨⟨d₁, h₁⟩, d₂, h₂⟩ := h.files
    rw [hl, h₁, h₂]
    rfl
  · rw [h.same l hl]

theorem isSome_eq (h : t₁.SameBut place t₂) (l : Location) :
    (t₁.lookup l).isSome = (t₂.lookup l).isSome := by
  rw [← Option.isSome_map, h.map_isDirectory l, Option.isSome_map]

theorem directory_iff (h : t₁.SameBut place t₂) (l : Location) :
    t₁.lookup l = some .directory ↔ t₂.lookup l = some .directory := by
  have key : ∀ o : Option FileEntry,
      o = some .directory ↔ o.map FileEntry.isDirectory = some true := by
    rintro (_ | _ | _) <;> simp [FileEntry.isDirectory]
  rw [key, key, h.map_isDirectory l]

theorem walk_eq (h : t₁.SameBut place t₂) (l : Location) (names : List String) :
    t₁.walk l names = t₂.walk l names := by
  induction names generalizing l with
  | nil => rfl
  | cons name names ih => simp only [walk, ne_eq, h.directory_iff, h.isSome_eq, ih]

theorem map_isDirectory_view (h : t₁.SameBut place t₂) (cwd : Location) (p : Path) :
    (t₁.view cwd p).map FileEntry.isDirectory = (t₂.view cwd p).map FileEntry.isDirectory := by
  rw [view_eq, view_eq, h.walk_eq]
  cases checkPath p with
  | error e => rfl
  | ok _ =>
    cases t₂.walk (start cwd p) p.names with
    | error e => rfl
    | ok l => exact map_isDirectory_shown (h.map_isDirectory l) p

theorem resolveLast_eq (h : t₁.SameBut place t₂) (cwd : Location) (p : Path) :
    t₁.resolveLast cwd p = t₂.resolveLast cwd p := by
  simp only [resolveLast, h.walk_eq, ne_eq, h.directory_iff]

/-- The same entry is put at the same location of both trees. -/
theorem of_put {new : Location} {e : FileEntry} (h : t₁.SameBut place t₂)
    (hnew : new = place → ∃ d, e = .file d)
    (h₁ : ∀ l, t₁'.lookup l = if l = new then some e else t₁.lookup l)
    (h₂ : ∀ l, t₂'.lookup l = if l = new then some e else t₂.lookup l) : t₁'.SameBut place t₂' where
  same := by
    intro l hl
    rw [h₁, h₂, h.same l hl]
  files := by
    rw [h₁, h₂]
    split_ifs with hplace
    · obtain ⟨d, rfl⟩ := hnew hplace.symm
      exact ⟨⟨d, rfl⟩, d, rfl⟩
    · exact h.files

theorem makeDirectory (h : t₁.SameBut place t₂) (cwd : Location) (p : Path) :
    SameOutcome place (t₁.makeDirectory cwd p) (t₂.makeDirectory cwd p) := by
  unfold FileTree.makeDirectory
  rw [h.resolveLast_eq]
  rcases t₂.resolveLast cwd p with e | ⟨l, _ | name⟩
  · exact .error e
  · exact .error _
  · refine .ite Iff.rfl (fun _ => .error _) fun _ => ?_
    refine .ite (by rw [h.isSome_eq]) (fun _ => .error _) fun hsome => ?_
    refine .dite (h.directory_iff l) (fun hdir₁ hdir₂ => .ok ?_) fun _ _ => .error _
    refine h.of_put ?_ (lookup_put _ _) (lookup_put _ _)
    -- nothing was there, but at `place` there was a file
    rintro rfl
    obtain ⟨-, d, hd⟩ := h.files
    rw [hd] at hsome
    exact absurd rfl hsome

theorem writeFile (h : t₁.SameBut place t₂) (cwd : Location) (p : Path) (data : ByteArray) :
    SameOutcome place (t₁.writeFile cwd p data) (t₂.writeFile cwd p data) := by
  unfold FileTree.writeFile
  rw [h.resolveLast_eq]
  rcases t₂.resolveLast cwd p with e | ⟨l, _ | name⟩
  · exact .error e
  · exact .error _
  · refine .ite Iff.rfl (fun _ => .error _) fun _ => ?_
    refine .ite Iff.rfl (fun _ => .error _) fun _ => ?_
    refine .dite (h.directory_iff (name :: l)) (fun _ _ => .error _) fun hfile₁ hfile₂ => ?_
    refine .dite (h.directory_iff l) (fun hdir₁ hdir₂ => .ok ?_) fun _ _ => .error _
    exact h.of_put (fun _ => ⟨data, rfl⟩) (lookup_put _ _) (lookup_put _ _)

theorem isDirectory_eq (h : t₁.SameBut place t₂) (cwd : Location) (p : Path) :
    t₁.isDirectory cwd p = t₂.isDirectory cwd p := by
  have key : ∀ t : FileTree, t.isDirectory cwd p =
      match (t.view cwd p).map FileEntry.isDirectory with
      | .ok b => b
      | .error _ => false := by
    intro t
    unfold FileTree.isDirectory
    rcases t.view cwd p with _ | _ | _ <;> rfl
  rw [key, key, h.map_isDirectory_view]

theorem ensure (h : t₁.SameBut place t₂) (cwd : Location) (p : Path) :
    (t₁.ensure cwd p).2 = (t₂.ensure cwd p).2 ∧
      (t₁.ensure cwd p).1.SameBut place (t₂.ensure cwd p).1 := by
  have hmake := h.makeDirectory cwd p
  unfold FileTree.ensure
  rw [h.isDirectory_eq]
  generalize t₁.makeDirectory cwd p = x₁ at hmake ⊢
  generalize t₂.makeDirectory cwd p = x₂ at hmake ⊢
  cases hmake with
  | error e => exact ⟨rfl, h⟩
  | ok h' => exact ⟨rfl, h'⟩

theorem makeDirectory_eq_error_iff (h : t₁.SameBut place t₂) (cwd : Location) (p : Path)
    (e : FileError) : t₁.makeDirectory cwd p = .error e ↔ t₂.makeDirectory cwd p = .error e := by
  have hmake := h.makeDirectory cwd p
  generalize t₁.makeDirectory cwd p = x₁ at hmake ⊢
  generalize t₂.makeDirectory cwd p = x₂ at hmake ⊢
  cases hmake with
  | error e' => exact Iff.rfl
  | ok h' => exact ⟨fun h => (nomatch h), fun h => (nomatch h)⟩

theorem makeChain (h : t₁.SameBut place t₂) (cwd : Location) (ps : List Path) :
    (t₁.makeChain cwd ps).2 = (t₂.makeChain cwd ps).2 ∧
      (t₁.makeChain cwd ps).1.SameBut place (t₂.makeChain cwd ps).1 := by
  induction ps with
  | nil => exact ⟨rfl, h⟩
  | cons p above ih =>
    by_cases hmissing : t₂.makeDirectory cwd p = .error .notFound
    · rw [makeChain_of_notFound hmissing,
        makeChain_of_notFound ((h.makeDirectory_eq_error_iff cwd p _).mpr hmissing)]
      obtain ⟨hresult, htrees⟩ := ih
      generalize t₁.makeChain cwd above = x₁ at hresult htrees ⊢
      generalize t₂.makeChain cwd above = x₂ at hresult htrees ⊢
      obtain ⟨t₁', r⟩ := x₁
      obtain ⟨t₂', r'⟩ := x₂
      obtain rfl : r = r' := hresult
      cases r with
      | error e => exact ⟨rfl, htrees⟩
      | ok _ => exact htrees.ensure cwd p
    · rw [makeChain_of_ne_notFound hmissing,
        makeChain_of_ne_notFound (hmissing ∘ (h.makeDirectory_eq_error_iff cwd p _).mp)]
      exact h.ensure cwd p

end SameBut

/-! ### Directories that are made -/

section

variable {t'' : FileTree} {places places' : List Location}

/-- Directories are made at some of the places, where nothing was. -/
def OnlyMakes (places : List Location) (t t' : FileTree) : Prop :=
  ∀ l, t'.lookup l = t.lookup l ∨
    l ∈ places ∧ t.lookup l = none ∧ t'.lookup l = some .directory

namespace OnlyMakes

theorem refl (places : List Location) (t : FileTree) : OnlyMakes places t t := fun _ => .inl rfl

theorem mono (h : OnlyMakes places t t') (hsub : ∀ l ∈ places, l ∈ places') :
    OnlyMakes places' t t' := by
  intro l
  rcases h l with hsame | ⟨hl, hnone, hdir⟩
  · exact .inl hsame
  · exact .inr ⟨hsub l hl, hnone, hdir⟩

theorem trans (h : OnlyMakes places t t') (h' : OnlyMakes places t' t'') :
    OnlyMakes places t t'' := by
  intro l
  rcases h l with hsame | ⟨hl, hnone, hdir⟩
  · rcases h' l with hsame' | ⟨hl', hnone', hdir'⟩
    · exact .inl (hsame'.trans hsame)
    · exact .inr ⟨hl', hsame ▸ hnone', hdir'⟩
  · rcases h' l with hsame' | ⟨-, hnone', -⟩
    · exact .inr ⟨hl, hnone, hsame'.trans hdir⟩
    · rw [hdir] at hnone'
      cases hnone'

theorem lookup_of_some {e : FileEntry} (h : OnlyMakes places t t') (hl : t.lookup l = some e) :
    t'.lookup l = some e := by
  rcases h l with hsame | ⟨-, hnone, -⟩
  · rw [hsame, hl]
  · rw [hl] at hnone
    cases hnone

/-- No file is made or changed. -/
theorem file_iff (h : OnlyMakes places t t') (l : Location) (data : ByteArray) :
    t'.lookup l = some (.file data) ↔ t.lookup l = some (.file data) := by
  rcases h l with hsame | ⟨-, hnone, hdir⟩
  · rw [hsame]
  · rw [hnone, hdir]
    simp

theorem makeDirectory (h : t.makeDirectory cwd p = .ok t') : OnlyMakes [p.landing cwd] t t' := by
  intro l
  obtain ⟨hnone, hput⟩ := lookup_makeDirectory h
  by_cases hl : l = p.landing cwd
  · subst hl
    exact .inr ⟨List.mem_singleton_self _, hnone, by rw [hput, if_pos rfl]⟩
  · exact .inl (by rw [hput, if_neg hl])

theorem ensure (t : FileTree) (cwd : Location) (p : Path) :
    OnlyMakes [p.landing cwd] t (t.ensure cwd p).1 := by
  unfold FileTree.ensure
  cases hmake : t.makeDirectory cwd p with
  | ok t' => exact makeDirectory hmake
  | error e => exact refl _ t

theorem makeChain (t : FileTree) (cwd : Location) (chain : List Path) :
    OnlyMakes (chain.map (·.landing cwd)) t (t.makeChain cwd chain).1 := by
  induction chain with
  | nil => exact refl _ t
  | cons p above ih =>
    have hfirst : ∀ t : FileTree,
        OnlyMakes ((p :: above).map (·.landing cwd)) t (t.ensure cwd p).1 := fun t =>
      (ensure t cwd p).mono (by simp)
    by_cases hmissing : t.makeDirectory cwd p = .error .notFound
    · have habove : OnlyMakes ((p :: above).map (·.landing cwd)) t (t.makeChain cwd above).1 :=
        ih.mono fun l hl => List.mem_cons_of_mem _ hl
      rw [makeChain_of_notFound hmissing]
      generalize t.makeChain cwd above = x at habove ⊢
      obtain ⟨t', e | _⟩ := x
      · exact habove
      · exact habove.trans (hfirst t')
    · rw [makeChain_of_ne_notFound hmissing]
      exact hfirst t

end OnlyMakes

end

/-- Whatever exists stays as it is when directories are made. -/
theorem lookup_makeChain {e : FileEntry} (h : t.lookup l = some e) (cwd : Location)
    (ps : List Path) : (t.makeChain cwd ps).1.lookup l = some e :=
  (OnlyMakes.makeChain t cwd ps).lookup_of_some h

end FileTree

namespace FileEffect

variable {place : Location} {t t₁ t₂ : FileTree} {cwd : Location}

/-- Whether the effect writes a file, and to this location. -/
def Writes (cwd place : Location) : FileEffect → Prop
  | makeDirectories _ => False
  | write path _ => path.landing cwd = place

instance (effect : FileEffect) : Decidable (effect.Writes cwd place) :=
  match effect with
  | makeDirectories _ => .isFalse id
  | write path _ => decEq (path.landing cwd) place

theorem perform_sameBut (h : t₁.SameBut place t₂) (cwd : Location) (effect : FileEffect) :
    (effect.perform t₁ cwd).2 = (effect.perform t₂ cwd).2 ∧
      (effect.perform t₁ cwd).1.SameBut place (effect.perform t₂ cwd).1 := by
  cases effect with
  | makeDirectories path => exact h.makeChain cwd _
  | write path data =>
    have hwrite := h.writeFile cwd path data
    simp only [perform]
    generalize t₁.writeFile cwd path data = x₁ at hwrite ⊢
    generalize t₂.writeFile cwd path data = x₂ at hwrite ⊢
    cases hwrite with
    | error e => exact ⟨rfl, h⟩
    | ok h' => exact ⟨rfl, h'⟩

/-- The content of a file decides nothing about effects, whether they write it or not. -/
theorem performAll_sameBut (h : t₁.SameBut place t₂) (cwd : Location) (effects : List FileEffect) :
    (performAll t₁ cwd effects).2 = (performAll t₂ cwd effects).2 ∧
      (performAll t₁ cwd effects).1.SameBut place (performAll t₂ cwd effects).1 := by
  induction effects generalizing t₁ t₂ with
  | nil => exact ⟨rfl, h⟩
  | cons effect effects ih =>
    obtain ⟨hresult, htrees⟩ := perform_sameBut h cwd effect
    unfold performAll
    generalize effect.perform t₁ cwd = x₁ at hresult htrees ⊢
    generalize effect.perform t₂ cwd = x₂ at hresult htrees ⊢
    obtain ⟨t₁', r⟩ := x₁
    obtain ⟨t₂', r'⟩ := x₂
    obtain rfl : r = r' := hresult
    cases r with
    | error e => exact ⟨rfl, htrees⟩
    | ok _ =>
      obtain ⟨hrest, htrees'⟩ := ih htrees
      exact ⟨by dsimp only; rw [hrest], htrees'⟩

theorem lookup_perform {e : FileEntry} (h : t.lookup place = some e) {effect : FileEffect}
    (hwrites : ¬ effect.Writes cwd place) : (effect.perform t cwd).1.lookup place = some e := by
  cases effect with
  | makeDirectories path => exact FileTree.lookup_makeChain h cwd _
  | write path data =>
    simp only [perform]
    cases hwrite : t.writeFile cwd path data with
    | error _ => exact h
    | ok t' =>
      show t'.lookup place = some e
      rw [FileTree.lookup_writeFile hwrite, if_neg (Ne.symm hwrites), h]

/-- What exists stays as it is unless an effect writes it. -/
theorem lookup_performAll {e : FileEntry} (h : t.lookup place = some e) {effects : List FileEffect}
    (hwrites : ∀ effect ∈ effects, ¬ effect.Writes cwd place) :
    (performAll t cwd effects).1.lookup place = some e := by
  induction effects generalizing t with
  | nil => exact h
  | cons effect effects ih =>
    have hfirst := lookup_perform h (hwrites effect List.mem_cons_self)
    unfold performAll
    generalize effect.perform t cwd = x at hfirst ⊢
    obtain ⟨t', e | _⟩ := x
    · exact hfirst
    · exact ih hfirst fun effect he => hwrites effect (List.mem_cons_of_mem _ he)

end FileEffect

end DeviceLibs
