import DeviceLibs.Proofs.Session
import Mathlib.Algebra.Ring.Nat

/-!
# The event log

The events of a request for device libraries tell how it ends (`requestLog`): the selection is told if
the request is in order, the commitment only if there is room as well, and the options are told as far
as they are accepted. Hence the log of a session tells how many objects the set holds at its end
(`Step.size_finalSet`): every step adds as many as it says it commits, and an insertion, which says
nothing, adds one (`Step.size_run`).
-/

namespace DeviceLibs

namespace Event

def isSelection : Event → Bool
  | selectedLibraries .. => true
  | _ => false

/-- Whether the event is told of the reading of a request, before anything is selected. -/
def isPreparation : Event → Bool
  | parsedTarget .. | optionEnabled .. => true
  | _ => false

/-- How many objects the event says are committed. -/
def committed? : Event → Option Nat
  | committedObjects count _ => some count
  | _ => none

def enabledOption? : Event → Option String
  | optionEnabled token => some token
  | _ => none

/-- The event is that of staging the library of that name, with its size in the table. -/
def StagesLibrary (name : String) (e : Event) : Prop :=
  ∃ b, Blob.find? name = some b ∧ e = .stagedBlob name b.size .bc

/-- A preparation is told before anything is selected or committed. -/
theorem of_isPreparation {e : Event} (h : e.isPreparation = true) :
    e.isSelection = false ∧ e.committed? = none := by
  cases e with
  | parsedTarget _ _ _ => exact ⟨rfl, rfl⟩
  | optionEnabled _ => exact ⟨rfl, rfl⟩
  | _ => cases h

end Event

/-- How the log of a request ends: with what is committed, if anything is. -/
def Edited.closing (x : Edited Unit) : List Event :=
  match x.result with
  | .ok () => [.committedObjects 8 x.set.size]
  | .error _ => []

/-- What is told of the staging of a bundle. -/
def bundleStaged (v : ArchVersion) (flags : OptionFlags) : List Event :=
  (Block.libraries v flags).blobs.map fun b => .stagedBlob b.name b.size .bc

section Request

variable {isaName options : String} {language : Language} {v : ArchVersion} {flags : OptionFlags}
  {t : TargetIdentifier} {e : SelectionError}

theorem forall₂_bundleStaged (hs : v ∈ ArchVersion.supported) (flags : OptionFlags) :
    List.Forall₂ Event.StagesLibrary (Blob.bundleNames v flags) (bundleStaged v flags) := by
  have hnames : (Block.libraries v flags).blobs.map Blob.name = Blob.bundleNames v flags :=
    Block.map_name_blobs (b := .libraries v flags) hs
  rw [← hnames, bundleStaged, List.forall₂_map_left_iff, List.forall₂_map_right_iff]
  refine List.forall₂_same.mpr fun b hb => ⟨b, ?_, rfl⟩
  obtain ⟨name, -, hname⟩ := List.mem_filterMap.mp hb
  rw [Blob.name_of_find? hname, hname]

/-! ### Reading a request -/

theorem isPreparation_of_mem_read (options : String) :
    ∀ e ∈ (OptionFlags.read options).events, e.isPreparation = true := by
  obtain ⟨fs, -, -, -, hevents, -, -⟩ := OptionFlags.exists_accepted options
  intro e he
  rw [hevents] at he
  obtain ⟨f, -, rfl⟩ := List.mem_map.mp he
  rfl

theorem events_stage_of_target (hl : language.isOpenCL = true)
    (ht : TargetIdentifier.parse isaName = .ok t) :
    (Blob.stageDeviceLibraries isaName options language).events =
      .parsedTarget isaName t.processor t.features :: match t.archVersion with
        | .error _ => []
        | .ok v =>
          if v ∈ ArchVersion.supported then
            (OptionFlags.read options).events ++
              match OptionFlags.parse options with
              | .ok flags => .selectedLibraries isaName v flags :: bundleStaged v flags
              | .error _ => []
          else [] := by
  simp only [Blob.stageDeviceLibraries, hl, Bool.not_true, Bool.false_eq_true, if_false,
    Traced.events_bind, Traced.events_mapError, Traced.result_mapError,
    TargetIdentifier.events_read ht, TargetIdentifier.result_read, ht, Traced.events_ofExcept,
    Traced.result_ofExcept, Except.mapError, List.nil_append]
  cases t.archVersion with
  | error e => rfl
  | ok v =>
    by_cases hs : v ∈ ArchVersion.supported
    · obtain ⟨b, -, hb⟩ := Blob.isaVersionBlob_of_mem hs
      have hparse : OptionFlags.parse options = (OptionFlags.read options).result := rfl
      simp only [hb, if_pos hs, hparse]
      cases (OptionFlags.read options).result with
      | error e => rfl
      | ok flags =>
        simp only [Blob.selectDeviceLibraries_of_mem hl hs, Traced.result_emit, Traced.events_emit,
          Blob.events_stage, List.singleton_append]
        rfl
    · simp only [Blob.isaVersionBlob_of_not_mem hs, if_neg hs]
      rfl

theorem events_stage_of_version (options : String) (hl : language.isOpenCL = true)
    (hv : NamesVersion isaName v) :
    ∃ t, TargetIdentifier.parse isaName = .ok t ∧
      (Blob.stageDeviceLibraries isaName options language).events =
        .parsedTarget isaName t.processor t.features :: if v ∈ ArchVersion.supported then
          (OptionFlags.read options).events ++
            match OptionFlags.parse options with
            | .ok flags => .selectedLibraries isaName v flags :: bundleStaged v flags
            | .error _ => []
        else [] := by
  obtain ⟨t, ht, hv⟩ := hv
  refine ⟨t, ht, ?_⟩
  rw [events_stage_of_target hl ht, hv]

/-- A request that is in order is told up to the last of its libraries. -/
theorem Selects.events_stage (h : Selects isaName options language v flags) :
    ∃ before, (∀ e ∈ before, e.isPreparation = true) ∧
      (Blob.stageDeviceLibraries isaName options language).events =
        before ++ .selectedLibraries isaName v flags :: bundleStaged v flags := by
  obtain ⟨t, -, hevents⟩ := events_stage_of_version options h.language h.version
  refine ⟨.parsedTarget isaName t.processor t.features :: (OptionFlags.read options).events, ?_, ?_⟩
  · intro e he
    rcases List.mem_cons.mp he with rfl | he
    · rfl
    · exact isPreparation_of_mem_read options e he
  · rw [hevents, if_pos h.supported, h.options]
    rfl

/-- Of a request that is refused nothing is told but how far it was read. -/
theorem Refuses.events_stage (h : Refuses isaName options language e) :
    ∀ e ∈ (Blob.stageDeviceLibraries isaName options language).events, e.isPreparation = true := by
  have hparsed : ∀ t : TargetIdentifier, ∀ e ∈ [Event.parsedTarget isaName t.processor t.features],
      e.isPreparation = true := by simp [Event.isPreparation]
  cases h with
  | language hl =>
    simp only [Blob.stageDeviceLibraries, hl]
    intro e he
    cases he
  | identifier hl he =>
    have hread : (TargetIdentifier.read isaName).result = .error _ :=
      (TargetIdentifier.result_read isaName).trans he
    simp only [Blob.stageDeviceLibraries, hl, Bool.not_true, Bool.false_eq_true, if_false,
      Traced.events_bind, Traced.events_mapError, Traced.result_mapError, hread, Except.mapError,
      TargetIdentifier.events_read_of_error he]
    intro e he
    cases he
  | processor hl ht he =>
    have hv : TargetIdentifier.archVersion _ = .error _ := he
    rw [events_stage_of_target hl ht, hv]
    exact hparsed _
  | version hl hv hs =>
    obtain ⟨t, -, hevents⟩ := events_stage_of_version options hl hv
    rw [hevents, if_neg hs]
    exact hparsed t
  | options hl hv hs he =>
    obtain ⟨t, -, hevents⟩ := events_stage_of_version options hl hv
    rw [hevents, if_pos hs, he, List.append_nil]
    intro e he
    rcases List.mem_cons.mp he with rfl | he
    · rfl
    · exact isPreparation_of_mem_read options e he

/-! ### The log of a request -/

theorem Refuses.status (h : Refuses isaName options language e) : e.status = .invalidArgument := by
  cases h with
  | options hl hv hs he =>
    obtain ⟨token, -, rfl | rfl⟩ := OptionFlags.eq_of_parse he
    · rfl
    · rfl
  | _ => rfl

/-- Behind what is told of the staging stands what is committed, if anything is. -/
theorem events_add (isaName options : String) (language : Language) (s : DataSet) :
    (Edit.addDeviceLibraries isaName options language s).events =
      (Blob.stageDeviceLibraries isaName options language).events ++
        (Edit.addDeviceLibraries isaName options language s).closing := by
  rcases selects_or_refuses isaName options language with ⟨v, flags, hsel⟩ | ⟨e, href⟩
  · have hlength := length_objects_libraries hsel.supported flags
    rw [hsel.add_eq]
    by_cases hr : s.HasRoom 8
    · rw [← hlength, ← DataSet.room_eq_ok_iff] at hr
      rw [Edit.commit_of_ok hr, hlength]
      simp only [Edited.closing, DataSet.size_append, hlength]
    · obtain ⟨fault, hroom⟩ := DataSet.exists_fault_of_not_hasRoom hr
      rw [← hlength] at hroom
      rw [Edit.commit_of_error hroom]
      rfl
  · rw [href.add_eq]
    exact (List.append_nil _).symm

/-- A request that is in order tells of its selection, and ends well or for want of room. -/
theorem Selects.events_add (h : Selects isaName options language v flags) (s : DataSet) :
    (∃ before, (∀ e ∈ before, e.isPreparation = true) ∧
      (Edit.addDeviceLibraries isaName options language s).events =
        before ++ .selectedLibraries isaName v flags :: (bundleStaged v flags ++
          (Edit.addDeviceLibraries isaName options language s).closing)) ∧
    ((Edit.addDeviceLibraries isaName options language s).result = .ok () ∨
      ∃ fault, (Edit.addDeviceLibraries isaName options language s).result =
        .error (.outOfResources fault)) := by
  constructor
  · obtain ⟨before, hbefore, hevents⟩ := h.events_stage
    refine ⟨before, hbefore, ?_⟩
    rw [DeviceLibs.events_add, hevents, List.append_assoc, List.cons_append]
  · by_cases hr : s.HasRoom 8
    · exact .inl (h.add_of_hasRoom hr).1
    · obtain ⟨fault, -, hresult, -⟩ := h.add_of_not_hasRoom hr
      exact .inr ⟨fault, hresult⟩

theorem Refuses.events_add (h : Refuses isaName options language e) (s : DataSet) :
    (∀ e ∈ (Edit.addDeviceLibraries isaName options language s).events, e.isPreparation = true) ∧
      (Edit.addDeviceLibraries isaName options language s).result = .error e := by
  rw [h.add_eq]
  exact ⟨h.events_stage, rfl⟩

/-- What is told of a request, beside what it leaves. -/
structure RequestLog (isaName options : String) (language : Language) (x : Edited Unit) : Prop where
  /-- A selection is told if the request is in order, be there room or not, ... -/
  selection : (∃ e ∈ x.events, e.isSelection = true) ↔
    x.result = .ok () ∨ ∃ fault, x.result = .error (.outOfResources fault)
  /-- ... and then once, ... -/
  once : x.events.countP Event.isSelection ≤ 1
  /-- ... behind all that is read and in front of the eight libraries, which nothing follows but the
  commitment. -/
  staging : ∀ e ∈ x.events, e.isSelection = true → ∃ v flags before staged,
    Selects isaName options language v flags ∧ e = .selectedLibraries isaName v flags ∧
    x.events = before ++ e :: (staged ++ x.closing) ∧
    (∀ p ∈ before, p.isPreparation = true) ∧ staged.length = 8 ∧
    List.Forall₂ Event.StagesLibrary (Blob.bundleNames v flags) staged
  /-- If nothing is selected, nothing is told but what is read. -/
  reading : (∀ e ∈ x.events, e.isSelection = false) → ∀ e ∈ x.events, e.isPreparation = true
  /-- A commitment is told exactly if the request succeeds, ... -/
  commitment : (∃ e ∈ x.events, e.committed?.isSome = true) ↔ x.result = .ok ()
  /-- ... and then once and last, with the size of the set after it. -/
  last : x.result = .ok () → ∃ before, x.events = before ++ [.committedObjects 8 x.set.size] ∧
    ∀ e ∈ before, e.committed? = none
  /-- If the options are read, the tokens up to the first that names no flag, or one that was named
  before, are told. -/
  enabled : ∀ v ∈ ArchVersion.supported, language.isOpenCL = true → NamesVersion isaName v →
    ∃ accepted rest, OptionFlags.tokens options = accepted ++ rest ∧ accepted.Nodup ∧
      (∀ t ∈ accepted, (OptionFlag.ofToken? t).isSome = true) ∧
      (∀ t ∈ rest.head?, OptionFlag.ofToken? t = none ∨ t ∈ accepted) ∧
      x.events.filterMap Event.enabledOption? = accepted
  /-- If the request succeeds, they are the tokens of its flags, in some order. -/
  parsed : x.result = .ok () → ∃ flags, OptionFlags.parse options = .ok flags ∧
    (x.events.filterMap Event.enabledOption?).Perm (flags.enabled.map OptionFlag.token)

theorem of_mem_bundleStaged {e : Event} (h : e ∈ bundleStaged v flags) :
    e.isSelection = false ∧ e.committed? = none ∧ e.enabledOption? = none := by
  obtain ⟨b, -, rfl⟩ := List.mem_map.mp h
  exact ⟨rfl, rfl, rfl⟩

theorem closing_of_ok {x : Edited Unit} (h : x.result = .ok ()) :
    x.closing = [.committedObjects 8 x.set.size] := by
  rw [Edited.closing, h]

theorem of_mem_closing {x : Edited Unit} {e : Event} (h : e ∈ x.closing) :
    x.result = .ok () ∧ e = .committedObjects 8 x.set.size := by
  unfold Edited.closing at h
  split at h
  next hr => exact ⟨hr, List.mem_singleton.mp h⟩
  next => cases h

/-- Neither the selection nor what follows it tells of options. -/
theorem filterMap_events_add (hl : language.isOpenCL = true) (hv : NamesVersion isaName v)
    (hs : v ∈ ArchVersion.supported) (s : DataSet) :
    (Edit.addDeviceLibraries isaName options language s).events.filterMap Event.enabledOption? =
      (OptionFlags.read options).events.filterMap Event.enabledOption? := by
  obtain ⟨t, -, hevents⟩ := events_stage_of_version options hl hv
  have hclosing : ∀ x : Edited Unit, x.closing.filterMap Event.enabledOption? = [] := by
    intro x
    refine List.filterMap_eq_nil_iff.mpr fun e he => ?_
    rw [(of_mem_closing he).2]
    rfl
  have hstaged : ∀ flags, (bundleStaged v flags).filterMap Event.enabledOption? = [] := fun flags =>
    List.filterMap_eq_nil_iff.mpr fun e he => (of_mem_bundleStaged he).2.2
  rw [events_add, hevents, if_pos hs, List.filterMap_append, hclosing, List.append_nil,
    List.filterMap_cons_none rfl, List.filterMap_append]
  cases OptionFlags.parse options with
  | error e => exact List.append_nil _
  | ok flags =>
    show _ ++ (_ :: bundleStaged v flags).filterMap _ = _
    rw [List.filterMap_cons_none rfl, hstaged, List.append_nil]

theorem filterMap_optionEnabled (fs : List OptionFlag) :
    (fs.map (Event.optionEnabled ·.token)).filterMap Event.enabledOption? =
      fs.map OptionFlag.token := by
  rw [List.filterMap_map]
  exact congrFun List.filterMap_eq_map fs

theorem exists_accepted_of_log (hl : language.isOpenCL = true) (hv : NamesVersion isaName v)
    (hs : v ∈ ArchVersion.supported) (s : DataSet) :
    ∃ accepted rest, OptionFlags.tokens options = accepted ++ rest ∧ accepted.Nodup ∧
      (∀ t ∈ accepted, (OptionFlag.ofToken? t).isSome = true) ∧
      (∀ t ∈ rest.head?, OptionFlag.ofToken? t = none ∨ t ∈ accepted) ∧
      (Edit.addDeviceLibraries isaName options language s).events.filterMap Event.enabledOption? =
        accepted := by
  obtain ⟨fs, rest, htokens, hnodup, hevents, -, hrest⟩ := OptionFlags.exists_accepted options
  refine ⟨fs.map OptionFlag.token, rest, htokens, hnodup.map fun _ _ => OptionFlag.token_injective, fun t ht => ?_, hrest, ?_⟩
  · obtain ⟨f, -, rfl⟩ := List.mem_map.mp ht
    rw [OptionFlag.ofToken?_token]
    rfl
  · rw [filterMap_events_add hl hv hs, hevents, filterMap_optionEnabled]

theorem Selects.requestLog (h : Selects isaName options language v flags) (s : DataSet) :
    RequestLog isaName options language (Edit.addDeviceLibraries isaName options language s) := by
  obtain ⟨⟨before, hbefore, hevents⟩, hresult⟩ := h.events_add s
  generalize hx : Edit.addDeviceLibraries isaName options language s = x at hevents hresult ⊢
  have hselected : Event.selectedLibraries isaName v flags ∈ x.events := by simp [hevents]
  have hparts : ∀ e ∈ x.events, e ∈ before ∨ e = .selectedLibraries isaName v flags ∨
      e ∈ bundleStaged v flags ∨ e ∈ x.closing := by
    intro e he
    rw [hevents] at he
    simpa using he
  constructor
  case selection => exact ⟨fun _ => hresult, fun _ => ⟨_, hselected, rfl⟩⟩
  case once =>
    have h₁ : before.countP Event.isSelection = 0 :=
      List.countP_eq_zero.mpr fun e he => by simp [Event.of_isPreparation (hbefore e he)]
    have h₂ : (bundleStaged v flags).countP Event.isSelection = 0 :=
      List.countP_eq_zero.mpr fun e he => by simp [of_mem_bundleStaged he]
    have h₃ : x.closing.countP Event.isSelection = 0 :=
      List.countP_eq_zero.mpr fun e he => by simp [(of_mem_closing he).2, Event.isSelection]
    rw [hevents, List.countP_append, List.countP_cons, List.countP_append, h₁, h₂, h₃]
    exact Nat.le_refl 1
  case staging =>
    intro e he hsel
    have heq : e = .selectedLibraries isaName v flags := by
      rcases hparts e he with he | he | he | he
      · rw [(Event.of_isPreparation (hbefore e he)).1] at hsel
        cases hsel
      · exact he
      · rw [(of_mem_bundleStaged he).1] at hsel
        cases hsel
      · rw [(of_mem_closing he).2] at hsel
        cases hsel
    have hstaged := forall₂_bundleStaged h.supported flags
    have hlength : (bundleStaged v flags).length = 8 :=
      hstaged.length_eq.symm.trans (Blob.length_bundleNames v flags)
    exact ⟨v, flags, before, _, h, heq, heq ▸ hevents, hbefore, hlength, hstaged⟩
  case reading =>
    intro hnone
    cases hnone _ hselected
  case commitment =>
    constructor
    · rintro ⟨e, he, hc⟩
      rcases hparts e he with he | rfl | he | he
      · rw [(Event.of_isPreparation (hbefore e he)).2] at hc
        cases hc
      · cases hc
      · rw [(of_mem_bundleStaged he).2.1] at hc
        cases hc
      · exact (of_mem_closing he).1
    · intro hok
      refine ⟨.committedObjects 8 x.set.size, ?_, rfl⟩
      simp [hevents, closing_of_ok hok]
  case last =>
    intro hok
    refine ⟨before ++ .selectedLibraries isaName v flags :: bundleStaged v flags, ?_, ?_⟩
    · rw [hevents, closing_of_ok hok, List.append_assoc, List.cons_append]
    · intro e he
      rcases List.mem_append.mp he with he | he
      · exact (Event.of_isPreparation (hbefore e he)).2
      rcases List.mem_cons.mp he with rfl | he
      · rfl
      · exact (of_mem_bundleStaged he).2.1
  case enabled =>
    intro v hs hl hv
    rw [← hx]
    exact exists_accepted_of_log hl hv hs s
  case parsed =>
    intro _
    obtain ⟨fs, -, -, hnodup, hread, hparse, -⟩ := OptionFlags.exists_accepted options
    refine ⟨flags, h.options, ?_⟩
    rw [← hx, filterMap_events_add h.language h.version h.supported, hread,
      filterMap_optionEnabled, hparse flags h.options]
    exact (OptionFlags.perm_enabled_foldl hnodup).map _

theorem Refuses.requestLog (h : Refuses isaName options language e) (s : DataSet) :
    RequestLog isaName options language (Edit.addDeviceLibraries isaName options language s) := by
  obtain ⟨hevents, hresult⟩ := h.events_add s
  have hstatus := h.status
  generalize hx : Edit.addDeviceLibraries isaName options language s = x at hevents hresult ⊢
  have hnone : ∀ e ∈ x.events, e.isSelection = false ∧ e.committed? = none := fun e he =>
    Event.of_isPreparation (hevents e he)
  have hfailed : x.result ≠ .ok () := by
    intro hok
    cases hresult.symm.trans hok
  constructor
  case selection =>
    constructor
    · rintro ⟨e, he, hsel⟩
      rw [(hnone e he).1] at hsel
      cases hsel
    · rintro (hok | ⟨fault, hfault⟩)
      · exact absurd hok hfailed
      · obtain rfl : e = .outOfResources fault := Except.error.inj (hresult.symm.trans hfault)
        cases hstatus
  case once =>
    refine Nat.le_trans (Nat.le_of_eq (List.countP_eq_zero.mpr fun e he => ?_)) (Nat.zero_le 1)
    simp [(hnone e he).1]
  case staging =>
    intro e he hsel
    rw [(hnone e he).1] at hsel
    cases hsel
  case reading => exact fun _ => hevents
  case commitment =>
    refine ⟨?_, fun hok => absurd hok hfailed⟩
    rintro ⟨e, he, hc⟩
    rw [(hnone e he).2] at hc
    cases hc
  case last => exact fun hok => absurd hok hfailed
  case enabled =>
    intro v hs hl hv
    rw [← hx]
    exact exists_accepted_of_log hl hv hs s
  case parsed => exact fun hok => absurd hok hfailed

theorem requestLog (s : DataSet) (isaName options : String) (language : Language) :
    RequestLog isaName options language (Edit.addDeviceLibraries isaName options language s) := by
  rcases selects_or_refuses isaName options language with ⟨v, flags, hsel⟩ | ⟨e, href⟩
  · exact hsel.requestLog s
  · exact href.requestLog s

end Request
/-! ### The log of a session -/

/-- How many objects a log says are committed. -/
def committedCount (log : List Event) : Nat := (log.filterMap Event.committed?).sum

theorem committedCount_append (l m : List Event) :
    committedCount (l ++ m) = committedCount l + committedCount m := by
  rw [committedCount, List.filterMap_append, List.sum_append]
  rfl

theorem committedCount_eq_zero {log : List Event} (h : ∀ e ∈ log, e.committed? = none) :
    committedCount log = 0 := by
  rw [committedCount, List.filterMap_eq_nil_iff.mpr h]
  rfl

namespace Edit

/-- On every set, the edit adds as many objects as it says it commits. -/
def TellsGrowth (x : Edit Unit) : Prop :=
  ∀ s, (x s).set.size = s.size + committedCount (x s).events

theorem tellsGrowth_reserve (additional : Nat) : (reserve additional).TellsGrowth := fun _ => rfl

theorem tellsGrowth_commit (objects : List DataObject) : (commit objects).TellsGrowth := by
  intro s
  cases hr : s.room objects.length with
  | ok u =>
    rw [commit_of_ok hr]
    exact DataSet.size_append s objects
  | error fault =>
    rw [commit_of_error hr]
    rfl

theorem tellsGrowth_of_staged {staging : Traced SelectionError (List DataObject)}
    (h : ∀ e ∈ staging.events, e.committed? = none) : (ofTraced staging >>= commit).TellsGrowth := by
  intro s
  cases hr : staging.result with
  | error e =>
    rw [bind_of_error (x := ofTraced staging) hr]
    show s.size = s.size + committedCount staging.events
    rw [committedCount_eq_zero h, Nat.add_zero]
  | ok staged =>
    rw [bind_of_ok (x := ofTraced staging) hr]
    show (commit staged s).set.size = s.size + committedCount (staging.events ++ _)
    rw [committedCount_append, committedCount_eq_zero h, Nat.zero_add]
    exact tellsGrowth_commit staged s

theorem tellsGrowth_addHeader (language : Language) : (addHeader language).TellsGrowth := by
  refine tellsGrowth_of_staged fun e he => ?_
  rw [Blob.stageHeader, Traced.events_bind, Traced.events_ofExcept, Traced.result_ofExcept,
    List.nil_append] at he
  split at he
  · obtain ⟨b, -, rfl⟩ := List.mem_map.mp he
    rfl
  · cases he

theorem tellsGrowth_addDeviceLibraries (isaName options : String) (language : Language) :
    (addDeviceLibraries isaName options language).TellsGrowth := by
  refine tellsGrowth_of_staged fun e he => ?_
  rcases selects_or_refuses isaName options language with ⟨v, flags, hsel⟩ | ⟨error, href⟩
  · obtain ⟨before, hbefore, hevents⟩ := hsel.events_stage
    rw [hevents] at he
    rcases List.mem_append.mp he with he | he
    · exact (Event.of_isPreparation (hbefore e he)).2
    rcases List.mem_cons.mp he with rfl | he
    · rfl
    · exact (of_mem_bundleStaged he).2.1
  · exact (Event.of_isPreparation (href.events_stage e he)).2

end Edit

namespace Step

def isInsert : Step → Bool
  | insert _ => true
  | _ => false

/-- The insertions of a session that succeeded. -/
def insertedCount (s : DataSet) (steps : List Step) : Nat :=
  (history s steps).countP fun p => p.1.isInsert && !p.2.isFailed

theorem size_run (s : DataSet) (step : Step) :
    (step.run s).set.size = s.size +
      (if step.isInsert && !(step.run s).isFailed then 1 else 0) +
      committedCount (step.run s).events := by
  have hadded : ∀ x : Edit Unit, x.TellsGrowth →
      (x s).set.size = s.size + 0 + committedCount (x s).events := fun x h => h s
  cases step with
  | insert object =>
    have hevents : (run s (insert object)).events = [] := by
      show (Edit.insert object s).events = []
      cases hr : s.room 1 with
      | ok u => rw [Edit.insert_of_ok hr]
      | error fault => rw [Edit.insert_of_error hr]
    rcases run_allOrNothing s (insert object) with ⟨hf, hset, -⟩ | ⟨hf, hset⟩
    · rw [hset, hevents, hf, DataSet.size_append]
      rfl
    · rw [hset, hevents, hf]
      rfl
  | commit objects => exact hadded _ (Edit.tellsGrowth_commit objects)
  | reserve additional => exact hadded _ (Edit.tellsGrowth_reserve additional)
  | addHeader language => exact hadded _ (Edit.tellsGrowth_addHeader language)
  | addDeviceLibraries isaName options language =>
    exact hadded _ (Edit.tellsGrowth_addDeviceLibraries isaName options language)
  | clone => rfl
  | query question => rfl

theorem size_finalSet (s : DataSet) (steps : List Step) :
    (finalSet s steps).size = s.size + insertedCount s steps +
      committedCount ((runAll s steps).flatMap Outcome.events) := by
  induction steps generalizing s with
  | nil => rfl
  | cons step steps ih =>
    have hstep := size_run s step
    have hrest : (finalSet s (step :: steps)).size = _ := ih (step.run s).set
    have hinserted : insertedCount s (step :: steps) = insertedCount (step.run s).set steps +
        if step.isInsert && !(step.run s).isFailed then 1 else 0 := List.countP_cons
    have hcommitted : committedCount ((runAll s (step :: steps)).flatMap Outcome.events) =
        committedCount (step.run s).events +
          committedCount ((runAll (step.run s).set steps).flatMap Outcome.events) :=
      committedCount_append _ _
    omega

end Step

/-- The events of a request for device libraries tell how it ends. Hence a new set holds, after any
session, the objects that were inserted and those that are said to be committed. -/
theorem events_tell_outcome :
    (∀ (s : DataSet) (isaName options : String) (language : Language),
      RequestLog isaName options language (Edit.addDeviceLibraries isaName options language s)) ∧
    ∀ (limit : Option Nat) (memory : Nat) (steps : List Step),
      (Step.finalSet (.start limit memory) steps).size = Step.insertedCount (.start limit memory) steps +
        committedCount ((Step.runAll (.start limit memory) steps).flatMap Outcome.events) := by
  refine ⟨requestLog, fun limit memory steps => ?_⟩
  rw [Step.size_finalSet, DataSet.size_start, Nat.zero_add]

/-- The third token was given before: the first two are told, and nothing is selected. -/
example : (Edit.addDeviceLibraries "amdgcn-amd-amdhsa--gfx900" "daz_opt,,unsafe_math,daz_opt" .openCL20
    .empty).events =
      [.parsedTarget "amdgcn-amd-amdhsa--gfx900" "gfx900" [], .optionEnabled "daz_opt",
        .optionEnabled "unsafe_math"] := by
  decide +kernel

end DeviceLibs
