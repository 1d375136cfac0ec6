import DeviceLibs.Command.Run
import DeviceLibs.Proofs.Listing

/-!
# Commands that list objects

`devlibs` and `pch` go through the same stages: the configuration, the format, the selection, the
extraction. `Request.Collects` says what the stages before the extraction come to: a collection, or the
error of the first of them that fails. Every request comes to one of the two
(`Request.exists_collects`), and its plan to the same one (`Request.Collects.result_plan_of_error`,
`Request.Collects.result_plan_of_ok`). `CommandLine.run_inStages` says what a run returns, prints and
leaves behind in each case.
-/

namespace DeviceLibs

open Json

/-- The directory and the name of the format, for a command that lists objects. -/
def Command.listing? : Command → Option (Option Path × Option String)
  | devlibs _ _ _ out format | pch _ out format => some (out, format)
  | init | isaList => none

/-- The name that stands for a format, if there is one. -/
inductive ListingFormat.Named : Option String → ListingFormat → Prop where
  | absent : Named none .human
  | human : Named (some "human") .human
  | json : Named (some "json") .json

/-- What has been collected when the objects are to be shown, and how they are. -/
structure Collection where
  set : DataSet
  format : ListingFormat
  /-- The directory to which the objects are to be written. -/
  out : Option Path
  /-- Stands above the objects. -/
  heading : String

namespace Collection

def listing (c : Collection) : String := c.heading ++ c.set.printed c.format

/-- Writes the objects, if a directory is given. -/
def extract (c : Collection) (t : FileTree) (cwd : Location) :
    FileTree × Except FileEffect.Failure Unit :=
  match c.out with
  | none => (t, .ok ())
  | some directory =>
    let (t', done) := FileEffect.performAll t cwd (c.set.extraction directory)
    (t', done.result)

/-- The plan shows the collection. Nothing is printed beside JSON. -/
structure IsShownBy (c : Collection) (p : Plan) : Prop where
  opening : p.opening = c.listing
  effects : p.effects = (c.out.map c.set.extraction).getD []
  closing : c.format = .json → p.closing = ""

end Collection

namespace Request

variable {r : Request} {view : Config.View} {cwd : Path}

/-- What loading the configuration comes to: of the one that is named, or else of the nearest regular
file, or else of none at all. -/
inductive Configures (r : Request) (view : Config.View) (cwd : Path) :
    Except ConfigError Config → Prop where
  | named {path : Path} {loaded : Except ConfigError Config} (h : r.config = some path)
      (hload : Config.load view path = loaded) : Configures r view cwd loaded
  | nearest {nearer farther : List Path} {path : Path} {loaded : Except ConfigError Config}
      (h : r.config = none) (hpath : Config.candidates cwd = nearer ++ path :: farther)
      (hnearer : ∀ p ∈ nearer, Config.isFile view p = false) (hfile : Config.isFile view path = true)
      (hload : Config.load view path = loaded) : Configures r view cwd loaded
  | absent (h : r.config = none) (hnone : ∀ p ∈ Config.candidates cwd, Config.isFile view p = false) :
      Configures r view cwd (.ok {})

/-- The configuration is loaded and the name stands for a format. -/
structure Ready (r : Request) (view : Config.View) (cwd : Path) (name : Option String)
    (config : Config) (format : ListingFormat) : Prop where
  config : r.Configures view cwd (.ok config)
  format : ListingFormat.Named name format

/-- What the stages before the extraction come to: each is reached through those before it. -/
inductive Collects (r : Request) (view : Config.View) (cwd : Path) :
    Except CommandError Collection → Prop where
  | config {out name e} (hcommand : r.command.listing? = some (out, name))
      (hconfig : r.Configures view cwd (.error e)) : Collects r view cwd (.error (.config e))
  | format {out name config} (hcommand : r.command.listing? = some (out, some name))
      (hconfig : r.Configures view cwd (.ok config)) (hname : name ≠ "human" ∧ name ≠ "json") :
      Collects r view cwd (.error (.unknownFormat name))
  | noIsa {isa options language out name config format}
      (hcommand : r.command = .devlibs isa options language out name)
      (hready : r.Ready view cwd name config format)
      (hisa : (isa.or config.isa).getD "" = "") :
      Collects r view cwd (.error .noIsa)
  | librariesRefused {isa options language out name config format action e}
      (hcommand : r.command = .devlibs isa options language out name)
      (hready : r.Ready view cwd name config format)
      (hisa : (isa.or config.isa).getD "" ≠ "")
      (haction : action = config.resolve language isa options)
      (hlibraries : (action.addDeviceLibraries .empty).result = .error e) :
      Collects r view cwd (.error (.selectingLibraries action e))
  | libraries {isa options language out name config format action}
      (hcommand : r.command = .devlibs isa options language out name)
      (hready : r.Ready view cwd name config format)
      (hisa : (isa.or config.isa).getD "" ≠ "")
      (haction : action = config.resolve language isa options)
      (hlibraries : (action.addDeviceLibraries .empty).result = .ok ()) :
      Collects r view cwd (.ok {
        set := (action.addDeviceLibraries .empty).set, format, out
        heading := if format = .human then
          s!"Device libraries for {action.isaName} ({action.language.name}):\n" else "" })
  | headerRefused {language out name config format chosen e}
      (hcommand : r.command = .pch language out name)
      (hready : r.Ready view cwd name config format)
      (hlanguage : chosen = (language.or config.language).getD .openCL20)
      (hheader : (Edit.addHeader chosen .empty).result = .error e) :
      Collects r view cwd (.error (.selectingHeader chosen e))
  | header {language out name config format chosen}
      (hcommand : r.command = .pch language out name)
      (hready : r.Ready view cwd name config format)
      (hlanguage : chosen = (language.or config.language).getD .openCL20)
      (hheader : (Edit.addHeader chosen .empty).result = .ok ()) :
      Collects r view cwd (.ok {
        set := (Edit.addHeader chosen .empty).set, format, out, heading := "" })

/-! ### The configuration and the format -/

theorem exists_configures (r : Request) (view : Config.View) (cwd : Path) :
    ∃ loaded, r.Configures view cwd loaded := by
  cases hconfig : r.config with
  | some path => exact ⟨_, .named hconfig rfl⟩
  | none =>
    cases hfind : (Config.candidates cwd).find? (Config.isFile view) with
    | none => exact ⟨_, .absent hconfig (by simpa using hfind)⟩
    | some path =>
      obtain ⟨hfile, nearer, farther, hpath, hnearer⟩ := List.find?_eq_some_iff_append.mp hfind
      exact ⟨_, .nearest hconfig hpath (by simpa using hnearer) hfile rfl⟩

theorem Configures.result_loadConfig {loaded : Except ConfigError Config}
    (h : r.Configures view cwd loaded) :
    (r.loadConfig view cwd).result = loaded.mapError .config := by
  cases h with
  | named h hload => rw [loadConfig, h, ← hload, Traced.result_ofExcept]
  | @nearest _ _ path _ h hpath hnearer hfile hload =>
    have hfind : Config.find? view cwd = some path := by
      rw [Config.find?, hpath]
      exact List.find?_eq_some_iff_append.mpr ⟨hfile, _, _, rfl, by simpa using hnearer⟩
    rw [loadConfig, h]
    simp only [Config.findAndLoad, hfind, hload]
    cases loaded <;> rfl
  | absent h hnone =>
    have hfind : Config.find? view cwd = none := by
      rw [Config.find?, List.find?_eq_none]
      simpa using hnone
    rw [loadConfig, h]
    simp only [Config.findAndLoad, hfind]
    rfl

theorem named_or_unknown (name : Option String) :
    (∃ format, ListingFormat.Named name format) ∨ ∃ s, name = some s ∧ s ≠ "human" ∧ s ≠ "json" := by
  cases name with
  | none => exact .inl ⟨_, .absent⟩
  | some s =>
    by_cases hhuman : s = "human"
    · subst hhuman
      exact .inl ⟨_, .human⟩
    by_cases hjson : s = "json"
    · subst hjson
      exact .inl ⟨_, .json⟩
    exact .inr ⟨s, rfl, hhuman, hjson⟩

theorem parse_of_named {name : Option String} {format : ListingFormat}
    (h : ListingFormat.Named name format) : ListingFormat.parse name = .ok format := by
  cases h <;> rfl

theorem eq_json_of_named {name : Option String} {format : ListingFormat}
    (h : ListingFormat.Named name format) (hname : name = some "json") : format = .json := by
  cases h with
  | absent => cases hname
  | human => exact absurd hname (by decide)
  | json => rfl

theorem parse_of_unknown {name : String} (h : name ≠ "human" ∧ name ≠ "json") :
    ListingFormat.parse (some name) = .error (.unknownFormat name) := by
  rw [ListingFormat.parse, ListingFormat.ofName?, if_neg h.1, if_neg h.2]
  rfl

/-! ### The stages before the extraction -/

section Stages

variable {isa options name : Option String} {language : Option Language} {out : Option Path}
  {config : Config} {format : ListingFormat}

theorem result_plan_devlibs (hcommand : r.command = .devlibs isa options language out name) :
    (r.plan view cwd).result = do
      let config ← (r.loadConfig view cwd).result
      let format ← ListingFormat.parse name
      let set ← (config.resolve language isa options).collect.result
      return .libraries (config.resolve language isa options) set out format := by
  simp only [plan, hcommand, Traced.result_bind, Traced.result_ofExcept, Traced.result_pure]
  rfl

theorem result_plan_pch (hcommand : r.command = .pch language out name) :
    (r.plan view cwd).result = do
      let config ← (r.loadConfig view cwd).result
      let format ← ListingFormat.parse name
      let set ← ((language.or config.language).getD .openCL20).collectHeader.result
      return .header set out format := by
  simp only [plan, hcommand, Traced.result_bind, Traced.result_ofExcept, Traced.result_pure]
  rfl

/-- The configuration and the format come first, whatever is listed. -/
theorem result_plan_of_listing (hcommand : r.command.listing? = some (out, name)) :
    ∃ rest : Config → ListingFormat → Except CommandError Plan,
      (r.plan view cwd).result = ((r.loadConfig view cwd).result >>= fun config =>
        ListingFormat.parse name >>= rest config) := by
  cases hr : r.command with
  | devlibs =>
    rw [hr] at hcommand
    cases hcommand
    exact ⟨_, result_plan_devlibs hr⟩
  | pch =>
    rw [hr] at hcommand
    cases hcommand
    exact ⟨_, result_plan_pch hr⟩
  | init => rw [hr] at hcommand; cases hcommand
  | isaList => rw [hr] at hcommand; cases hcommand

/-- What is left to do for libraries once everything is ready. -/
theorem Ready.result_plan_devlibs (h : r.Ready view cwd name config format)
    (hcommand : r.command = .devlibs isa options language out name) :
    (r.plan view cwd).result = (config.resolve language isa options).collect.result.map fun set =>
      .libraries (config.resolve language isa options) set out format := by
  rw [Request.result_plan_devlibs hcommand, h.config.result_loadConfig, parse_of_named h.format]
  show ((config.resolve language isa options).collect.result >>= _) = _
  cases (config.resolve language isa options).collect.result <;> rfl

theorem Ready.result_plan_pch (h : r.Ready view cwd name config format)
    (hcommand : r.command = .pch language out name) :
    (r.plan view cwd).result =
      ((language.or config.language).getD .openCL20).collectHeader.result.map fun set =>
        .header set out format := by
  rw [Request.result_plan_pch hcommand, h.config.result_loadConfig, parse_of_named h.format]
  show ((Language.collectHeader _).result >>= _) = _
  cases ((language.or config.language).getD .openCL20).collectHeader.result <;> rfl

theorem result_collect_of_empty {a : Action} (h : a.isaName = "") :
    a.collect.result = .error .noIsa := by
  rw [Action.collect, if_pos h]
  rfl

theorem result_collect {a : Action} (h : a.isaName ≠ "") :
    a.collect.result = ((a.addDeviceLibraries .empty).result.map fun _ =>
      (a.addDeviceLibraries .empty).set).mapError (.selectingLibraries a) := by
  rw [Action.collect, if_neg h]
  rfl

theorem result_collectHeader (l : Language) :
    l.collectHeader.result = ((Edit.addHeader l .empty).result.map fun _ =>
      (Edit.addHeader l .empty).set).mapError (.selectingHeader l) := rfl

theorem Collects.result_plan_of_error {e : CommandError} (h : r.Collects view cwd (.error e)) :
    (r.plan view cwd).result = .error e := by
  cases h with
  -- up to the format it does not matter which of the two commands it is
  | config hcommand hconfig =>
    obtain ⟨rest, hplan⟩ := result_plan_of_listing hcommand
    rw [hplan, hconfig.result_loadConfig]
    rfl
  | format hcommand hconfig hname =>
    obtain ⟨rest, hplan⟩ := result_plan_of_listing hcommand
    rw [hplan, hconfig.result_loadConfig, parse_of_unknown hname]
    rfl
  | @noIsa isa options language _ _ config _ hcommand hready hisa =>
    rw [hready.result_plan_devlibs hcommand,
      result_collect_of_empty (a := config.resolve language isa options) hisa]
    rfl
  | librariesRefused hcommand hready hisa haction hlibraries =>
    subst haction
    rw [hready.result_plan_devlibs hcommand, result_collect hisa, hlibraries]
    rfl
  | headerRefused hcommand hready hlanguage hheader =>
    subst hlanguage
    rw [hready.result_plan_pch hcommand, result_collectHeader, hheader]
    rfl

theorem Collects.result_plan_of_ok {c : Collection} (h : r.Collects view cwd (.ok c)) :
    ∃ p, (r.plan view cwd).result = .ok p ∧ c.IsShownBy p := by
  cases h with
  | libraries hcommand hready hisa haction hlibraries =>
    subst haction
    rw [hready.result_plan_devlibs hcommand, result_collect hisa, hlibraries]
    refine ⟨_, rfl, rfl, rfl, ?_⟩
    rintro ⟨⟩
    cases ‹Option Path› <;> rfl
  | header hcommand hready hlanguage hheader =>
    subst hlanguage
    rw [hready.result_plan_pch hcommand, result_collectHeader, hheader]
    exact ⟨_, rfl, String.empty_append.symm, rfl, fun _ => rfl⟩

/-- Every command that lists objects comes to a collection or an error. -/
theorem exists_collects (view : Config.View) (cwd : Path)
    (hcommand : r.command.listing? = some (out, name)) :
    ∃ outcome, r.Collects view cwd outcome := by
  -- one case split for each stage, in the order in which they are reached
  obtain ⟨loaded, hconfig⟩ := exists_configures r view cwd
  cases loaded with
  | error e => exact ⟨_, .config hcommand hconfig⟩
  | ok config =>
    rcases named_or_unknown name with ⟨format, hname⟩ | ⟨s, rfl, hs⟩
    · cases hr : r.command with
      | devlibs isa options language out name =>
        rw [hr] at hcommand
        cases hcommand
        by_cases hisa : (isa.or config.isa).getD "" = ""
        · exact ⟨_, .noIsa hr ⟨hconfig, hname⟩ hisa⟩
        · cases hlibraries :
            ((config.resolve language isa options).addDeviceLibraries .empty).result with
          | error e => exact ⟨_, .librariesRefused hr ⟨hconfig, hname⟩ hisa rfl hlibraries⟩
          | ok _ => exact ⟨_, .libraries hr ⟨hconfig, hname⟩ hisa rfl hlibraries⟩
      | pch language out name =>
        rw [hr] at hcommand
        cases hcommand
        cases hheader :
          (Edit.addHeader ((language.or config.language).getD .openCL20) .empty).result with
        | error e => exact ⟨_, .headerRefused hr ⟨hconfig, hname⟩ rfl hheader⟩
        | ok _ => exact ⟨_, .header hr ⟨hconfig, hname⟩ rfl hheader⟩
      | init => rw [hr] at hcommand; cases hcommand
      | isaList => rw [hr] at hcommand; cases hcommand
    · exact ⟨_, .format hcommand hconfig hs⟩

theorem Collects.named {c : Collection} (h : r.Collects view cwd (.ok c))
    (hcommand : r.command.listing? = some (out, name)) :
    c.out = out ∧ ListingFormat.Named name c.format := by
  cases h with
  | libraries hr hready hisa haction hlibraries =>
    rw [hr] at hcommand
    cases hcommand
    exact ⟨rfl, hready.format⟩
  | header hr hready hlanguage hheader =>
    rw [hr] at hcommand
    cases hcommand
    exact ⟨rfl, hready.format⟩

/-- Nothing stands above the objects in JSON. -/
theorem Collects.heading_of_json {c : Collection} (h : r.Collects view cwd (.ok c))
    (hformat : c.format = .json) : c.heading = "" := by
  cases h with
  | libraries =>
    cases hformat
    rfl
  | header => rfl

end Stages

end Request

/-! ### Runs -/

namespace Collection

theorem IsShownBy.performAll {c : Collection} {p : Plan} (h : c.IsShownBy p) (t : FileTree)
    (cwd : Location) :
    ((FileEffect.performAll t cwd p.effects).1, (FileEffect.performAll t cwd p.effects).2.result) =
      c.extract t cwd := by
  rw [h.effects, extract]
  cases c.out <;> rfl

theorem extract_of_none {c : Collection} (h : c.out = none) (t : FileTree) (cwd : Location) :
    c.extract t cwd = (t, .ok ()) := by
  rw [extract, h]

end Collection

namespace Request

variable {r : Request} {t : FileTree} {cwd : Location}

/-- The first stage that fails fails with this error; the extraction is the last one. -/
inductive FailsFirst (r : Request) (t : FileTree) (cwd : Location) : CommandError → Prop where
  | before {e} (h : r.Collects (t.view cwd) cwd.path (.error e)) : FailsFirst r t cwd e
  | extraction {c failure} (h : r.Collects (t.view cwd) cwd.path (.ok c))
      (hfailure : (c.extract t cwd).2 = .error failure) : FailsFirst r t cwd (.effect failure)

/-- What a run that lists objects returns, prints and leaves behind. -/
structure RunsInStages (r : Request) (out : Option Path) (name : Option String) (t : FileTree)
    (cwd : Location) (t' : FileTree) (report : Report) : Prop where
  succeeds : report.exitCode = 0 ↔
    ∃ c, r.Collects (t.view cwd) cwd.path (.ok c) ∧ (c.extract t cwd).2 = .ok ()
  /-- The first error is reported, behind the log. -/
  fails : ∀ e, r.FailsFirst t cwd e →
    report.exitCode = 1 ∧ ∃ events, report.errors = r.log events ++ s!"error: {e.message}\n"
  /-- A run that does not succeed has a first stage that fails. -/
  settled : report.exitCode = 0 ∨ ∃ e, r.FailsFirst t cwd e
  /-- Nothing is printed or written before the objects are collected. -/
  untouched : ∀ e, r.Collects (t.view cwd) cwd.path (.error e) → report.output = "" ∧ t' = t
  /-- The listing is complete when the extraction fails. -/
  extraction : ∀ c, r.Collects (t.view cwd) cwd.path (.ok c) → t' = (c.extract t cwd).1 ∧
    ∀ failure, (c.extract t cwd).2 = .error failure → report.output = c.listing
  /-- Without a directory nothing is ever written. -/
  readOnly : out = none → t' = t
  /-- In JSON there is nothing beside the objects. -/
  json : name = some "json" → ∀ c, r.Collects (t.view cwd) cwd.path (.ok c) →
    (c.extract t cwd).2 = .ok () → ∃ text, report.output = text ++ "\n" ∧
      decode (Decoder.list DataSet.Entry.decoder) text = .ok c.set.entries

theorem Collects.run_of_error {e : CommandError} (h : r.Collects (t.view cwd) cwd.path (.error e)) :
    ∃ events, r.run t cwd = (t, (Report.ofError e).withLog (r.log events)) := by
  refine ⟨(r.plan (t.view cwd) cwd.path).events, ?_⟩
  simp only [run, h.result_plan_of_error]

theorem Collects.run_of_ok {c : Collection} (h : r.Collects (t.view cwd) cwd.path (.ok c)) :
    ∃ p events, c.IsShownBy p ∧ r.run t cwd =
      ((c.extract t cwd).1, (Report.ofPlan p (c.extract t cwd).2).withLog (r.log events)) := by
  obtain ⟨p, hplan, hshown⟩ := h.result_plan_of_ok
  refine ⟨p, (r.plan (t.view cwd) cwd.path).events ++
    if p.logsEffects then (FileEffect.performAll t cwd p.effects).2.events else [], hshown, ?_⟩
  rw [← hshown.performAll t cwd]
  simp only [run, hplan]
  rfl

theorem FailsFirst.run {e : CommandError} (h : r.FailsFirst t cwd e) :
    (r.run t cwd).2.exitCode = 1 ∧
      ∃ events, (r.run t cwd).2.errors = r.log events ++ s!"error: {e.message}\n" := by
  cases h with
  | before h =>
    obtain ⟨events, hrun⟩ := h.run_of_error
    rw [hrun]
    exact ⟨rfl, events, rfl⟩
  | extraction h hfailure =>
    obtain ⟨p, events, -, hrun⟩ := h.run_of_ok
    rw [hrun, hfailure]
    exact ⟨rfl, events, rfl⟩

theorem Collects.exitCode_of_extracted {c : Collection} (h : r.Collects (t.view cwd) cwd.path (.ok c))
    (hextract : (c.extract t cwd).2 = .ok ()) : (r.run t cwd).2.exitCode = 0 := by
  obtain ⟨p, events, -, hrun⟩ := h.run_of_ok
  rw [hrun, hextract]
  rfl

/-- Either the first stage that fails is known, or all of them succeed. -/
theorem failsFirst_or_succeeds {out : Option Path} {name : Option String}
    (hcommand : r.command.listing? = some (out, name)) (t : FileTree) (cwd : Location) :
    (∃ e, r.FailsFirst t cwd e) ∨
      ∃ c, r.Collects (t.view cwd) cwd.path (.ok c) ∧ (c.extract t cwd).2 = .ok () := by
  obtain ⟨outcome, h⟩ := exists_collects (t.view cwd) cwd.path hcommand
  cases outcome with
  | error e => exact .inl ⟨e, .before h⟩
  | ok c =>
    cases hextract : (c.extract t cwd).2 with
    | error failure => exact .inl ⟨_, .extraction h hextract⟩
    | ok _ => exact .inr ⟨c, h, hextract⟩

theorem Collects.output_of_json {c : Collection} (h : r.Collects (t.view cwd) cwd.path (.ok c))
    {out : Option Path} (hcommand : r.command.listing? = some (out, some "json"))
    (hextract : (c.extract t cwd).2 = .ok ()) :
    (r.run t cwd).2.output = c.set.renderJson ++ "\n" := by
  have hformat : c.format = .json := eq_json_of_named (h.named hcommand).2 rfl
  obtain ⟨p, events, hshown, hrun⟩ := h.run_of_ok
  rw [hrun, hextract]
  show p.opening ++ p.closing = _
  rw [hshown.opening, hshown.closing hformat, Collection.listing, h.heading_of_json hformat, hformat]
  simp [DataSet.printed, DataSet.render]

end Request

/-- A run that lists objects goes by its stages. -/
theorem CommandLine.run_inStages {arguments : List String} {r : Request} {out : Option Path}
    {name : Option String} (hparse : parse arguments = .ok r)
    (hcommand : r.command.listing? = some (out, name)) (t : FileTree) (cwd : Location) :
    r.RunsInStages out name t cwd (run arguments t cwd).1 (run arguments t cwd).2 := by
  have hrun : run arguments t cwd = r.run t cwd := by rw [run, hparse]
  rw [hrun]
  exact {
    succeeds := by
      refine ⟨fun hcode => ?_, fun ⟨c, h, hextract⟩ => h.exitCode_of_extracted hextract⟩
      rcases Request.failsFirst_or_succeeds hcommand t cwd with ⟨e, he⟩ | hsucceeds
      · rw [he.run.1] at hcode
        cases hcode
      · exact hsucceeds
    fails := fun e he => he.run
    settled := by
      rcases Request.failsFirst_or_succeeds hcommand t cwd with hfails | ⟨c, h, hextract⟩
      · exact .inr hfails
      · exact .inl (h.exitCode_of_extracted hextract)
    untouched := fun e h => by
      obtain ⟨events, hrun⟩ := h.run_of_error
      rw [hrun]
      exact ⟨rfl, rfl⟩
    extraction := fun c h => by
      obtain ⟨p, events, hshown, hrun⟩ := h.run_of_ok
      rw [hrun]
      refine ⟨rfl, fun failure hfailure => ?_⟩
      rw [hfailure]
      exact hshown.opening
    readOnly := by
      rintro rfl
      obtain ⟨outcome, h⟩ := Request.exists_collects (t.view cwd) cwd.path hcommand
      cases outcome with
      | error e =>
        obtain ⟨events, hrun⟩ := h.run_of_error
        rw [hrun]
      | ok c =>
        obtain ⟨p, events, -, hrun⟩ := h.run_of_ok
        rw [hrun, Collection.extract_of_none (h.named hcommand).1]
    json := by
      rintro rfl c h hextract
      exact ⟨_, h.output_of_json hcommand hextract, c.set.decode_renderJson⟩ }

/-- The header of OpenCL 2.0, to be written to a directory of an empty tree. -/
theorem CommandLine.run_inStages_of_pch :
    ∃ r, parse ["pch", "--out=lib"] = .ok r ∧
      r.command.listing? = some (some ⟨"lib"⟩, none) ∧
      r.RunsInStages (some ⟨"lib"⟩) none .empty [] (run ["pch", "--out=lib"] .empty []).1
        (run ["pch", "--out=lib"] .empty []).2 :=
  have hparse : parse ["pch", "--out=lib"] = .ok { command := .pch none (some ⟨"lib"⟩) none } := by
    decide
  ⟨_, hparse, rfl, run_inStages hparse rfl .empty []⟩

end DeviceLibs
