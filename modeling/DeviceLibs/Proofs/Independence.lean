import DeviceLibs.Proofs.CommandLine
import DeviceLibs.Proofs.Commands
import DeviceLibs.Proofs.LocationPath

/-!
# What a run does not depend on

Two runs that differ in what a command does not look at show the same and leave the same:

* `Request.visible_run_verbose`: the log goes beside everything else.
* `Request.visible_run_isaList`, `Request.run_init`: `isa list` looks at nothing, and `init` at one place
  in the working directory. Where that directory is there, the one look-up is all that matters
  (`Request.initsAlike_of_isSome_eq`).
* `Request.LoadsBoth.runsAlike`: of two configurations in one place the commands that list objects take
  no more than the plan is made of. The rest of the file tree is the same for both runs, and an effect
  does not look into files (`FileEffect.performAll_sameBut`).
-/

namespace DeviceLibs

/-- What a run shows besides its log, and the tree that it leaves. -/
def visible (x : FileTree × Report) : FileTree × UInt8 × String := (x.1, x.2.exitCode, x.2.output)

/-! ### The configuration -/

namespace FileTree.SameBut

variable {place : Location} {t₁ t₂ : FileTree}

/-- Where there are files is the same, so the same configuration is found. -/
theorem isFile_view (h : t₁.SameBut place t₂) (cwd : Location) :
    Config.isFile (t₁.view cwd) = Config.isFile (t₂.view cwd) := by
  have key : ∀ (t : FileTree) (p : Path), Config.isFile (t.view cwd) p =
      match (t.view cwd p).map FileEntry.isDirectory with
      | .ok b => !b
      | .error _ => false := by
    intro t p
    unfold Config.isFile
    rcases t.view cwd p with _ | _ | _ <;> rfl
  funext p
  rw [key, key, h.map_isDirectory_view]

theorem find?_view (h : t₁.SameBut place t₂) (cwd : Location) (directory : Path) :
    Config.find? (t₁.view cwd) directory = Config.find? (t₂.view cwd) directory := by
  rw [Config.find?, Config.find?, h.isFile_view]

end FileTree.SameBut

namespace Request

variable {r : Request} {view : Config.View} {dir : Path} {cwd place : Location}
  {t t₁ t₂ : FileTree} {c c₁ c₂ : Config} {language : Option Language}
  {isa options format : Option String} {out : Option Path}

/-- A configuration that is loaded is told of by its path, if it was looked for. -/
theorem events_loadConfig (h : (r.loadConfig view dir).result = .ok c) :
    (r.loadConfig view dir).events =
      match r.config, Config.find? view dir with
      | none, some path => [.loadedConfig path.text]
      | _, _ => [] := by
  unfold loadConfig at h ⊢
  cases hconfig : r.config with
  | some path => rfl
  | none =>
    rw [hconfig] at h
    unfold Config.findAndLoad at h ⊢
    cases hfind : Config.find? view dir with
    | none => rfl
    | some path =>
      rw [hfind] at h
      dsimp only at h ⊢
      cases hload : Config.load view path with
      | error e =>
        rw [hload] at h
        cases h
      | ok config => rfl

/-- What is left to plan once the action of `devlibs` is settled. -/
def planLibraries (a : Action) (out : Option Path) (format : Option String) :
    Traced CommandError Plan := do
  let format ← .ofExcept (ListingFormat.parse format)
  let set ← a.collect
  return .libraries a set out format

/-- What is left to plan once the language of `pch` is settled. -/
def planHeader (l : Language) (out : Option Path) (format : Option String) :
    Traced CommandError Plan := do
  let format ← .ofExcept (ListingFormat.parse format)
  let set ← l.collectHeader
  return .header set out format

theorem plan_devlibs (hcommand : r.command = .devlibs isa options language out format) :
    r.plan view dir = r.loadConfig view dir >>= fun config =>
      planLibraries (config.resolve language isa options) out format := by
  rw [plan, hcommand]
  rfl

theorem plan_pch (hcommand : r.command = .pch language out format) :
    r.plan view dir = r.loadConfig view dir >>= fun config =>
      planHeader ((language.or config.language).getD .openCL20) out format := by
  rw [plan, hcommand]
  rfl

/-- The plan overwrites what is at `place`. -/
def Overwrites (r : Request) (t : FileTree) (cwd place : Location) : Prop :=
  ∃ p, (r.plan (t.view cwd) cwd.path).result = .ok p ∧ ∃ effect ∈ p.effects, effect.Writes cwd place

instance : Decidable (r.Overwrites t cwd place) :=
  match h : (r.plan (t.view cwd) cwd.path).result with
  | .error _ => .isFalse fun ⟨_, hp, _⟩ => nomatch h.symm.trans hp
  | .ok p => decidable_of_iff (∃ effect ∈ p.effects, effect.Writes cwd place)
      ⟨fun hw => ⟨p, h, hw⟩, fun ⟨_, hp, hw⟩ => Except.ok.inj (h.symm.trans hp) ▸ hw⟩

theorem lookup_run {e : FileEntry} (h : t.lookup place = some e)
    (hwrites : ¬ r.Overwrites t cwd place) : (r.run t cwd).1.lookup place = some e := by
  unfold run
  dsimp only
  cases hplan : (r.plan (t.view cwd) cwd.path).result with
  | error _ => exact h
  | ok p =>
    exact FileEffect.lookup_performAll h fun effect he hw => hwrites ⟨p, hplan, effect, he, hw⟩

/-- The same plan goes the same way. -/
theorem run_eq_of_plan (h : t₁.SameBut place t₂)
    (hplan : r.plan (t₁.view cwd) cwd.path = r.plan (t₂.view cwd) cwd.path) :
    (r.run t₁ cwd).2 = (r.run t₂ cwd).2 ∧ (r.run t₁ cwd).1.SameBut place (r.run t₂ cwd).1 := by
  unfold run
  rw [hplan]
  dsimp only
  cases (r.plan (t₂.view cwd) cwd.path).result with
  | error _ => exact ⟨rfl, h⟩
  | ok p =>
    obtain ⟨hdone, htrees⟩ := FileEffect.performAll_sameBut h cwd p.effects
    exact ⟨by dsimp only; rw [hdone], htrees⟩

/-- The trees are the same but for one file, the request loads a configuration in each of them, and
it does not write that file. -/
structure LoadsBoth (r : Request) (cwd place : Location) (t₁ t₂ : FileTree) (c₁ c₂ : Config) :
    Prop where
  trees : t₁.SameBut place t₂
  first : r.Configures (t₁.view cwd) cwd.path (.ok c₁)
  second : r.Configures (t₂.view cwd) cwd.path (.ok c₂)
  kept : ¬ r.Overwrites t₁ cwd place

/-- The runs say the same, and their trees are still the same but for one file, which is as it was. -/
structure RunsAlike (place : Location) (t₁ t₂ : FileTree) (x₁ x₂ : FileTree × Report) : Prop where
  report : x₁.2 = x₂.2
  trees : x₁.1.SameBut place x₂.1
  kept : x₁.1.lookup place = t₁.lookup place ∧ x₂.1.lookup place = t₂.lookup place

/-- A plan that takes the same from both configurations is the same. -/
theorem LoadsBoth.runsAlike (h : r.LoadsBoth cwd place t₁ t₂ c₁ c₂)
    {rest : Config → Traced CommandError Plan}
    (hplan : ∀ view : Config.View, r.plan view cwd.path = r.loadConfig view cwd.path >>= rest)
    (hrest : rest c₁ = rest c₂) : RunsAlike place t₁ t₂ (r.run t₁ cwd) (r.run t₂ cwd) := by
  have h₁ := h.first.result_loadConfig
  have h₂ := h.second.result_loadConfig
  have hevents : (r.loadConfig (t₁.view cwd) cwd.path).events =
      (r.loadConfig (t₂.view cwd) cwd.path).events := by
    rw [events_loadConfig h₁, events_loadConfig h₂, h.trees.find?_view]
  have hsame : r.plan (t₁.view cwd) cwd.path = r.plan (t₂.view cwd) cwd.path := by
    rw [hplan, hplan, Traced.bind_of_ok h₁, Traced.bind_of_ok h₂, hevents, hrest]
  obtain ⟨hreport, htrees⟩ := run_eq_of_plan h.trees hsame
  have hkept₂ : ¬ r.Overwrites t₂ cwd place := by
    rintro ⟨p, hp, hwrites⟩
    exact h.kept ⟨p, by rw [hsame, hp], hwrites⟩
  obtain ⟨⟨d₁, hd₁⟩, d₂, hd₂⟩ := h.trees.files
  exact ⟨hreport, htrees, by rw [lookup_run hd₁ h.kept, hd₁], by rw [lookup_run hd₂ hkept₂, hd₂]⟩

/-! ### The switch for the log, and commands that read no configuration -/

theorem visible_run_verbose (r : Request) (t : FileTree) (cwd : Location) :
    visible ({ r with verbose := true }.run t cwd) = visible (r.run t cwd) := by
  have hplan : { r with verbose := true }.plan (t.view cwd) cwd.path =
      r.plan (t.view cwd) cwd.path := rfl
  unfold run
  rw [hplan]
  dsimp only
  cases (r.plan (t.view cwd) cwd.path).result with
  | error e => rfl
  | ok p => rfl

theorem visible_run_isaList (hcommand : r.command = .isaList) (t : FileTree) (cwd : Location) :
    visible (r.run t cwd) = (t, 0, Plan.isaList.opening) := by
  have hplan : r.plan (t.view cwd) cwd.path = pure .isaList := by
    rw [plan, hcommand]
  simp only [run, hplan]
  show (t, (0 : UInt8), Plan.isaList.opening ++ "") = _
  rw [String.append_empty]

/-- Something is at the place of the configuration in the working directory. -/
def HasConfig (t : FileTree) (cwd : Location) : Prop :=
  ∃ e, t.view cwd (cwd.path.join Config.fileName) = .ok e

/-- A configuration can be written to the working directory. -/
def AllowsConfig (t : FileTree) (cwd : Location) : Prop :=
  ∃ t', t.writeFile cwd (cwd.path.join Config.fileName) Config.template.toUTF8 = .ok t'

/-- Where `init` writes. -/
def configPlace (cwd : Location) : Location := (cwd.path.join Config.fileName).landing cwd

theorem isSegment_fileName (hcwd : ∀ n ∈ cwd, FileTree.IsSegment n) :
    ∀ n ∈ Config.fileName :: cwd, FileTree.IsSegment n := by
  have hname : FileTree.IsSegment Config.fileName := by decide
  intro n hn
  rcases List.mem_cons.mp hn with rfl | hn
  · exact hname
  · exact hcwd n hn

theorem configPlace_eq (hcwd : ∀ n ∈ cwd, FileTree.IsSegment n) :
    configPlace cwd = Config.fileName :: cwd := by
  have hnames := isSegment_fileName hcwd
  rw [configPlace, FileTree.join_path hnames, FileTree.landing_path hnames]

section

variable (hcwd : ∀ n ∈ cwd, FileTree.IsEntryName n)
include hcwd

theorem isEntryName_fileName : ∀ n ∈ Config.fileName :: cwd, FileTree.IsEntryName n := by
  intro n hn
  rcases List.mem_cons.mp hn with rfl | hn
  · exact ⟨by decide, by decide, by decide, by decide⟩
  · exact hcwd n hn

theorem join_fileName : cwd.path.join Config.fileName = Location.path (Config.fileName :: cwd) :=
  FileTree.join_path (isSegment_fileName fun n hn => (hcwd n hn).isSegment)

theorem hasConfig_iff
    (hcheck : FileTree.checkPath (Location.path (Config.fileName :: cwd)) = .ok ()) (t : FileTree) :
    HasConfig t cwd ↔ (t.lookup (Config.fileName :: cwd)).isSome := by
  rw [HasConfig, join_fileName hcwd]
  exact FileTree.exists_view_path_iff (isEntryName_fileName hcwd) hcheck t cwd

theorem allowsConfig_iff
    (hcheck : FileTree.checkPath (Location.path (Config.fileName :: cwd)) = .ok ()) (t : FileTree) :
    AllowsConfig t cwd ↔ t.lookup cwd = some .directory ∧
      t.lookup (Config.fileName :: cwd) ≠ some .directory := by
  rw [AllowsConfig, join_fileName hcwd]
  exact FileTree.exists_writeFile_path_iff (isEntryName_fileName hcwd) hcheck t cwd _

end

theorem plan_init_of_hasConfig (hcommand : r.command = .init) (h : HasConfig t cwd) :
    (r.plan (t.view cwd) cwd.path).result =
      .error (.alreadyExists (cwd.path.join Config.fileName)) := by
  obtain ⟨e, he⟩ := h
  simp only [plan, hcommand, he, Traced.result_ofExcept]

theorem plan_init_of_not_hasConfig (hcommand : r.command = .init) (h : ¬ HasConfig t cwd) :
    (r.plan (t.view cwd) cwd.path).result =
      .ok (.initialConfig (cwd.path.join Config.fileName)) := by
  simp only [plan, hcommand]
  cases hview : t.view cwd (cwd.path.join Config.fileName) with
  | ok e => exact absurd ⟨e, hview⟩ h
  | error e => rfl

theorem run_init_of_writeFile {t' : FileTree} (hcommand : r.command = .init)
    (hno : ¬ HasConfig t cwd)
    (hwrite : t.writeFile cwd (cwd.path.join Config.fileName) Config.template.toUTF8 = .ok t') :
    (r.run t cwd).1 = t' ∧ (r.run t cwd).2.exitCode = 0 ∧
      (r.run t cwd).2.output = s!"Created {(cwd.path.join Config.fileName).text}\n" := by
  simp only [run, plan_init_of_not_hasConfig hcommand hno, Plan.initialConfig,
    FileEffect.performAll, FileEffect.perform, hwrite]
  exact ⟨trivial, rfl, String.empty_append⟩

/-- What `init` comes to: it writes the template, unless something is there or nothing can be written. -/
theorem run_init (hcommand : r.command = .init) (t : FileTree) (cwd : Location) :
    (¬ HasConfig t cwd ∧ AllowsConfig t cwd ∧
      (r.run t cwd).2.exitCode = 0 ∧
      (r.run t cwd).2.output = s!"Created {(cwd.path.join Config.fileName).text}\n" ∧
      ∀ l, (r.run t cwd).1.lookup l =
        if l = configPlace cwd then some (.file Config.template.toUTF8) else t.lookup l) ∨
    ((HasConfig t cwd ∨ ¬ AllowsConfig t cwd) ∧ visible (r.run t cwd) = (t, 1, "")) := by
  by_cases hhas : HasConfig t cwd
  · refine .inr ⟨.inl hhas, ?_⟩
    simp only [run, plan_init_of_hasConfig hcommand hhas]
    rfl
  · cases hwrite : t.writeFile cwd (cwd.path.join Config.fileName) Config.template.toUTF8 with
    | ok t' =>
      obtain ⟨htree, hcode, houtput⟩ := run_init_of_writeFile hcommand hhas hwrite
      refine .inl ⟨hhas, ⟨t', hwrite⟩, hcode, houtput, ?_⟩
      rw [htree]
      exact FileTree.lookup_writeFile hwrite
    | error e =>
      have hallows : ¬ AllowsConfig t cwd := by
        rintro ⟨t', ht'⟩
        cases hwrite.symm.trans ht'
      refine .inr ⟨.inr hallows, ?_⟩
      simp only [run, plan_init_of_not_hasConfig hcommand hhas, Plan.initialConfig,
        FileEffect.performAll, FileEffect.perform, hwrite]
      rfl

/-- Two runs of `init` say the same, and both leave their trees as they were or both write the
template to the same place. -/
structure InitsAlike (cwd : Location) (t₁ t₂ : FileTree) (x₁ x₂ : FileTree × Report) : Prop where
  exitCode : x₁.2.exitCode = x₂.2.exitCode
  output : x₁.2.output = x₂.2.output
  trees : (x₁.1 = t₁ ∧ x₂.1 = t₂) ∨ ∀ l,
    (x₁.1.lookup l = if l = configPlace cwd then some (.file Config.template.toUTF8) else t₁.lookup l) ∧
    (x₂.1.lookup l = if l = configPlace cwd then some (.file Config.template.toUTF8) else t₂.lookup l)

theorem initsAlike {r₁ r₂ : Request} (h₁ : r₁.command = .init) (h₂ : r₂.command = .init)
    (hhas : HasConfig t₁ cwd ↔ HasConfig t₂ cwd)
    (hallows : ¬ HasConfig t₁ cwd → (AllowsConfig t₁ cwd ↔ AllowsConfig t₂ cwd)) :
    InitsAlike cwd t₁ t₂ (r₁.run t₁ cwd) (r₂.run t₂ cwd) := by
  rcases run_init h₁ t₁ cwd with ⟨hno₁, hcan₁, hcode₁, hout₁, htree₁⟩ | ⟨hstop₁, hrun₁⟩
  · rcases run_init h₂ t₂ cwd with ⟨-, -, hcode₂, hout₂, htree₂⟩ | ⟨hstop₂, -⟩
    · exact ⟨hcode₁.trans hcode₂.symm, hout₁.trans hout₂.symm,
        .inr fun l => ⟨htree₁ l, htree₂ l⟩⟩
    · rw [← hhas, ← hallows hno₁] at hstop₂
      exact absurd hcan₁ (hstop₂.resolve_left hno₁)
  · rcases run_init h₂ t₂ cwd with ⟨hno₂, hcan₂, -⟩ | ⟨-, hrun₂⟩
    · rw [← hhas] at hno₂
      exact absurd ((hallows hno₂).mpr hcan₂) (hstop₁.resolve_left hno₂)
    · obtain ⟨htree₁, hcode₁, hout₁⟩ := Prod.mk.inj hrun₁ |>.imp_right Prod.mk.inj
      obtain ⟨htree₂, hcode₂, hout₂⟩ := Prod.mk.inj hrun₂ |>.imp_right Prod.mk.inj
      exact ⟨hcode₁.trans hcode₂.symm, hout₁.trans hout₂.symm, .inl ⟨htree₁, htree₂⟩⟩

/-- In a working directory that is there, whether it has the entry already is all that matters. -/
theorem initsAlike_of_isSome_eq {r₁ r₂ : Request} (h₁ : r₁.command = .init) (h₂ : r₂.command = .init)
    (hcwd : ∀ n ∈ cwd, FileTree.IsEntryName n)
    (hcheck : FileTree.checkPath (Location.path (Config.fileName :: cwd)) = .ok ())
    (hdir₁ : t₁.lookup cwd = some .directory) (hdir₂ : t₂.lookup cwd = some .directory)
    (hsome : (t₁.lookup (Config.fileName :: cwd)).isSome =
      (t₂.lookup (Config.fileName :: cwd)).isSome) :
    InitsAlike cwd t₁ t₂ (r₁.run t₁ cwd) (r₂.run t₂ cwd) := by
  have hhas : HasConfig t₁ cwd ↔ HasConfig t₂ cwd := by
    rw [hasConfig_iff hcwd hcheck, hasConfig_iff hcwd hcheck, hsome]
  refine initsAlike h₁ h₂ hhas fun hno => ?_
  have hnone₁ : t₁.lookup (Config.fileName :: cwd) = none := by
    rw [hasConfig_iff hcwd hcheck] at hno
    simpa using hno
  have hnone₂ : t₂.lookup (Config.fileName :: cwd) = none := by
    rw [hnone₁] at hsome
    simpa using hsome.symm
  rw [allowsConfig_iff hcwd hcheck, allowsConfig_iff hcwd hcheck, hdir₁, hdir₂, hnone₁, hnone₂]

end Request

namespace CommandLine

/-- What the runs of a command line do not depend on. -/
theorem run_noninterference (cwd : Location) :
    -- whether a log is asked for, which is always possible
    (∀ before after r r', parse (before ++ after) = .ok r →
      parse (before ++ "-v" :: after) = .ok r' →
      ∀ t, visible (run (before ++ "-v" :: after) t cwd) = visible (run (before ++ after) t cwd)) ∧
    (∀ arguments r, parse arguments = .ok r → r.verbose = false →
      ∃ r', parse ("-v" :: arguments) = .ok r') ∧
    -- the files and the configuration, for `isa list`
    (∀ arguments r, parse arguments = .ok r → r.command = .isaList →
      ∀ t, visible (run arguments t cwd) = (t, 0, Plan.isaList.opening)) ∧
    -- all but two facts about one place, for `init`
    (∀ arguments₁ arguments₂ r₁ r₂, parse arguments₁ = .ok r₁ → parse arguments₂ = .ok r₂ →
      r₁.command = .init → r₂.command = .init → ∀ t₁ t₂,
      (Request.HasConfig t₁ cwd ↔ Request.HasConfig t₂ cwd) →
      (¬ Request.HasConfig t₁ cwd →
        (Request.AllowsConfig t₁ cwd ↔ Request.AllowsConfig t₂ cwd)) →
      Request.InitsAlike cwd t₁ t₂ (run arguments₁ t₁ cwd) (run arguments₂ t₂ cwd)) ∧
    -- all but whether one entry is there, for `init` in a directory with a path that can be followed
    (∀ arguments₁ arguments₂ r₁ r₂, parse arguments₁ = .ok r₁ → parse arguments₂ = .ok r₂ →
      r₁.command = .init → r₂.command = .init → (∀ n ∈ cwd, FileTree.IsEntryName n) →
      FileTree.checkPath (Location.path (Config.fileName :: cwd)) = .ok () → ∀ t₁ t₂,
      t₁.lookup cwd = some .directory → t₂.lookup cwd = some .directory →
      (t₁.lookup (Config.fileName :: cwd)).isSome = (t₂.lookup (Config.fileName :: cwd)).isSome →
      Request.InitsAlike cwd t₁ t₂ (run arguments₁ t₁ cwd) (run arguments₂ t₂ cwd)) ∧
    -- all of the configuration but its language, for `pch`
    (∀ arguments r language out format, parse arguments = .ok r →
      r.command = .pch language out format → ∀ place t₁ t₂ c₁ c₂,
      r.LoadsBoth cwd place t₁ t₂ c₁ c₂ → c₁.language = c₂.language →
      Request.RunsAlike place t₁ t₂ (run arguments t₁ cwd) (run arguments t₂ cwd)) ∧
    -- all of the configuration, for `devlibs` with everything given
    ∀ arguments r isa options language out format, parse arguments = .ok r →
      r.command = .devlibs (some isa) (some options) (some language) out format →
      ∀ place t₁ t₂ c₁ c₂, r.LoadsBoth cwd place t₁ t₂ c₁ c₂ →
      Request.RunsAlike place t₁ t₂ (run arguments t₁ cwd) (run arguments t₂ cwd) := by
  have hrun : ∀ {arguments r}, parse arguments = .ok r → ∀ t, run arguments t cwd = r.run t cwd := by
    intro arguments r h t
    rw [run, h]
  refine ⟨?_, ?_, ?_, ?_, ?_, ?_, ?_⟩
  · intro before after r r' h h' t
    rw [hrun h, hrun h', parse_insert_verbose h h', Request.visible_run_verbose]
  · intro arguments r h hquiet
    exact ⟨_, parse_cons_verbose h hquiet⟩
  · intro arguments r h hcommand t
    rw [hrun h, Request.visible_run_isaList hcommand]
  · intro arguments₁ arguments₂ r₁ r₂ h₁ h₂ hinit₁ hinit₂ t₁ t₂ hhas hallows
    rw [hrun h₁, hrun h₂]
    exact Request.initsAlike hinit₁ hinit₂ hhas hallows
  · intro arguments₁ arguments₂ r₁ r₂ h₁ h₂ hinit₁ hinit₂ hcwd hcheck t₁ t₂ hdir₁ hdir₂ hsome
    rw [hrun h₁, hrun h₂]
    exact Request.initsAlike_of_isSome_eq hinit₁ hinit₂ hcwd hcheck hdir₁ hdir₂ hsome
  · intro arguments r language out format h hcommand place t₁ t₂ c₁ c₂ hloads hlanguage
    rw [hrun h, hrun h]
    exact hloads.runsAlike (fun view => Request.plan_pch hcommand) (by rw [hlanguage])
  · intro arguments r isa options language out format h hcommand place t₁ t₂ c₁ c₂ hloads
    rw [hrun h, hrun h]
    exact hloads.runsAlike (fun view => Request.plan_devlibs hcommand) rfl

/-- A tree of nothing but a configuration in its root. -/
def configured (text : String) : FileTree :=
  FileTree.empty.put Config.fileName [] (.file text.toUTF8) (FileTree.lookup_root _)
    (.inr (by decide))

/-- Two configurations with the same language, the first with an ISA and the second with options. -/
def rivals : String × String :=
  ("[action]\nlanguage = \"opencl-1.2\"\nisa = \"amdgcn-amd-amdhsa--gfx906\"\n",
    "[action]\noptions = \"daz_opt\"\nlanguage = \"opencl-1.2\"\n")

theorem candidates_root :
    Config.candidates (Location.path []) = [] ++ ⟨"/comgr.toml"⟩ :: [] := by decide +kernel

theorem loadsBoth_rivals {r : Request} (hconfig : r.config = none)
    (hkept : ¬ r.Overwrites (configured rivals.1) [] [Config.fileName]) :
    r.LoadsBoth [] [Config.fileName] (configured rivals.1) (configured rivals.2)
      { language := some .openCL12, isa := some "amdgcn-amd-amdhsa--gfx906" }
      { language := some .openCL12, options := some "daz_opt" } where
  trees := {
    same := by
      intro l hl
      rw [configured, configured, FileTree.lookup_put_of_ne _ _ hl, FileTree.lookup_put_of_ne _ _ hl]
    files := ⟨⟨_, rfl⟩, _, rfl⟩ }
  first := .nearest hconfig candidates_root (by simp) (by decide +kernel) (by decide +kernel)
  second := .nearest hconfig candidates_root (by simp) (by decide +kernel) (by decide +kernel)
  kept := hkept

/-- A tree with a file that is no configuration. -/
def unconfigured : FileTree :=
  FileTree.empty.put "a.bc" [] (.file "1".toUTF8) (FileTree.lookup_root _) (.inr (by decide))

/-- A command line of each kind: the log, the list, `init` in two trees with a configuration and in two
without one, and the two configurations. -/
theorem run_noninterference_of_rivals :
    visible (run (["pch"] ++ "-v" :: ["--out=lib"]) (configured rivals.1) []) =
      visible (run (["pch"] ++ ["--out=lib"]) (configured rivals.1) []) ∧
    (∃ r, parse ["-v", "init"] = .ok r) ∧
    visible (run ["isa", "list", "--config=none"] .empty []) = (.empty, 0, Plan.isaList.opening) ∧
    Request.InitsAlike [] (configured rivals.1) (configured rivals.2)
      (run ["init"] (configured rivals.1) []) (run ["-v", "init"] (configured rivals.2) []) ∧
    Request.InitsAlike [] .empty unconfigured (run ["init"] .empty []) (run ["init"] unconfigured []) ∧
    Request.RunsAlike [Config.fileName] (configured rivals.1) (configured rivals.2)
      (run ["pch", "--out=lib"] (configured rivals.1) [])
      (run ["pch", "--out=lib"] (configured rivals.2) []) ∧
    Request.RunsAlike [Config.fileName] (configured rivals.1) (configured rivals.2)
      (run ["devlibs", "--isa=amdgcn-amd-amdhsa--gfx900", "--options=", "--language=opencl-2.0",
        "--out=lib"] (configured rivals.1) [])
      (run ["devlibs", "--isa=amdgcn-amd-amdhsa--gfx900", "--options=", "--language=opencl-2.0",
        "--out=lib"] (configured rivals.2) []) := by
  obtain ⟨hverbose, haccepted, hlist, hinit, hlookup, hpch, hdevlibs⟩ := run_noninterference []
  have hthere : ∀ text, Request.HasConfig (configured text) [] := fun text => ⟨_, rfl⟩
  refine ⟨?_, ?_, ?_, ?_, ?_, ?_, ?_⟩
  · exact hverbose ["pch"] ["--out=lib"] _ _ rfl rfl _
  · exact haccepted ["init"] _ rfl rfl
  · exact hlist ["isa", "list", "--config=none"] _ rfl rfl _
  · exact hinit ["init"] ["-v", "init"] _ _ rfl rfl rfl rfl _ _
      ⟨fun _ => hthere _, fun _ => hthere _⟩ fun hno => absurd (hthere _) hno
  · exact hlookup ["init"] ["init"] _ _ rfl rfl rfl rfl nofun rfl _ _ rfl rfl (by decide +kernel)
  · exact hpch ["pch", "--out=lib"] _ _ _ _ rfl rfl _ _ _ _ _
      (loadsBoth_rivals rfl (by decide +kernel)) rfl
  · exact hdevlibs _ _ _ _ _ _ _ rfl rfl _ _ _ _ _ (loadsBoth_rivals rfl (by decide +kernel))

end CommandLine

end DeviceLibs
