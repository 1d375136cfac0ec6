import DeviceLibs.Proofs.Selection

/-!
# Sessions append

A step that succeeds adds its batch as a whole, and one that fails adds nothing
(`Step.run_allOrNothing`). By induction over the steps, a session is told by the steps that succeeded
and had something to add: the set holds their batches in order (`Step.objects_finalSet`), and they go
the same way when the others are left out (`Step.runAll_kept`).
-/

namespace DeviceLibs

/-- The set that a session starts from: empty, limited or not, with the memory that there is. -/
def DataSet.start (limit : Option Nat) (memory : Nat) : DataSet :=
  match limit with
  | some limit => { withLimit limit with memory }
  | none => { empty with memory }

namespace DataSet

@[simp] theorem objects_start (limit : Option Nat) (memory : Nat) : (start limit memory).objects = [] := by
  cases limit <;> rfl

@[simp] theorem limit_start (limit : Option Nat) (memory : Nat) : (start limit memory).limit = limit := by
  cases limit <;> rfl

@[simp] theorem size_start (limit : Option Nat) (memory : Nat) : (start limit memory).size = 0 := by
  rw [size, objects_start, List.length_nil]

end DataSet

namespace Outcome

def isFailed (o : Outcome) : Bool :=
  match o.answer with
  | .failed _ => true
  | _ => false

/-- The step was taken on `s` and had `batch` to add: all of it was added, or nothing. -/
def AllOrNothing (o : Outcome) (s : DataSet) (batch : List DataObject) : Prop :=
  (o.isFailed = false ∧ o.set = s.append batch ∧ (s.WithinLimit → (s.append batch).WithinLimit)) ∨
    (o.isFailed = true ∧ o.set = s)

end Outcome

theorem Outcome.isFailed_ofEdited {x : Edited Unit} :
    (Outcome.ofEdited x).isFailed = false ↔ x.result = .ok () := by
  cases hr : x.result <;> simp [isFailed, ofEdited, hr]

theorem Edit.Adds.allOrNothing {x : Edit Unit} {batch : List DataObject} (h : x.Adds batch)
    (s : DataSet) : (Outcome.ofEdited (x s)).AllOrNothing s batch := by
  rcases h s with ⟨hr, hset, hroom⟩ | ⟨e, hr, hset⟩
  · exact .inl ⟨Outcome.isFailed_ofEdited.mpr hr, hset, fun _ => hroom.withinLimit_append⟩
  · refine .inr ⟨?_, hset⟩
    rw [← Bool.not_eq_false, Outcome.isFailed_ofEdited, hr]
    exact fun h => nomatch h

namespace Step

/-- The block that a step asks for, as far as its ISA name and its options can be read. -/
def block? : Step → Option Block
  | addHeader language => some (.header language)
  | addDeviceLibraries isaName options _ => do
    let t ← (TargetIdentifier.parse isaName).toOption
    let v ← t.archVersion.toOption
    let flags ← (OptionFlags.parse options).toOption
    return .libraries v flags
  | _ => none

/-- The objects that a step has to add. -/
def batch (step : Step) : List DataObject :=
  match step with
  | insert object => [object]
  | commit objects => objects
  | _ => (step.block?.map Block.objects).getD []

/-- Whether a step is there to add objects. -/
def isAddition : Step → Bool
  | insert _ | commit _ | addHeader _ | addDeviceLibraries .. => true
  | reserve _ | clone | query _ => false

/-- The steps with their outcomes. -/
def history (s : DataSet) (steps : List Step) : List (Step × Outcome) := steps.zip (runAll s steps)

/-- The part of the history that has changed the set: the additions that succeeded. -/
def kept (s : DataSet) (steps : List Step) : List (Step × Outcome) :=
  (history s steps).filter fun p => p.1.isAddition && !p.2.isFailed

/-- The sets that a session goes through, the first and the last included. -/
def states (s : DataSet) (steps : List Step) : List DataSet := s :: (runAll s steps).map Outcome.set

variable {s t : DataSet} {step : Step} {steps : List Step}

/-! ### One step -/

theorem block?_of_selects {isaName options : String} {language : Language} {v : ArchVersion}
    {flags : OptionFlags} (h : Selects isaName options language v flags) :
    (addDeviceLibraries isaName options language).block? = some (.libraries v flags) := by
  obtain ⟨t, ht, hv⟩ := h.version
  simp [block?, ht, hv, h.options, Except.toOption]

/-- Whatever is staged for a step is what its block says. -/
theorem adds_addHeader (language : Language) :
    (Edit.addHeader language).Adds (addHeader language).batch := by
  refine Edit.adds_of_staged fun staged h => ?_
  cases hl : language.isOpenCL with
  | true =>
    rw [Block.result_stageHeader hl] at h
    exact (Except.ok.inj h).symm
  | false =>
    rw [Block.result_stageHeader_of_not hl] at h
    cases h

theorem adds_addDeviceLibraries (isaName options : String) (language : Language) :
    (Edit.addDeviceLibraries isaName options language).Adds
      (addDeviceLibraries isaName options language).batch := by
  refine Edit.adds_of_staged fun staged h => ?_
  rcases selects_or_refuses isaName options language with ⟨v, flags, hsel⟩ | ⟨e, href⟩
  · rw [hsel.result_stage] at h
    rw [← Except.ok.inj h]
    show _ = (Option.map _ (addDeviceLibraries isaName options language).block?).getD []
    rw [block?_of_selects hsel]
    rfl
  · rw [href.result_stage] at h
    cases h

theorem run_allOrNothing (s : DataSet) (step : Step) :
    (step.run s).AllOrNothing s step.batch := by
  have idle : ∀ answer, (∀ e, answer ≠ Answer.failed e) →
      (Outcome.mk s answer []).AllOrNothing s [] := by
    intro answer h
    refine .inl ⟨?_, s.append_nil.symm, fun hs => s.append_nil.symm ▸ hs⟩
    cases answer with
    | failed e => exact absurd rfl (h e)
    | _ => rfl
  cases step with
  | insert object => exact (Edit.adds_insert object).allOrNothing s
  | commit objects => exact (Edit.adds_commit objects).allOrNothing s
  | reserve additional => exact (Edit.adds_reserve additional).allOrNothing s
  | addHeader language => exact (adds_addHeader language).allOrNothing s
  | addDeviceLibraries isaName options language =>
    exact (adds_addDeviceLibraries isaName options language).allOrNothing s
  | clone => exact idle .done (by simp)
  | query question => exact idle (question.answer s) (by cases question <;> simp [Query.answer])

theorem set_run_of_failed (h : (step.run s).isFailed = true) : (step.run s).set = s := by
  rcases run_allOrNothing s step with ⟨hf, -, -⟩ | ⟨-, hset⟩
  · rw [h] at hf
    cases hf
  · exact hset

theorem set_run_of_not_failed (h : (step.run s).isFailed = false) :
    (step.run s).set = s.append step.batch := by
  rcases run_allOrNothing s step with ⟨-, hset, -⟩ | ⟨hf, -⟩
  · exact hset
  · rw [h] at hf
    cases hf

theorem set_run_of_not_isAddition (h : step.isAddition = false) : (step.run s).set = s := by
  have hbatch : step.batch = [] := by
    cases step with
    | reserve _ => rfl
    | clone => rfl
    | query _ => rfl
    | _ => cases h
  cases hf : (step.run s).isFailed with
  | true => exact set_run_of_failed hf
  | false => rw [set_run_of_not_failed hf, hbatch, DataSet.append_nil]

theorem limit_run (s : DataSet) (step : Step) : (step.run s).set.limit = s.limit := by
  rcases run_allOrNothing s step with ⟨-, hset, -⟩ | ⟨-, hset⟩
  · rw [hset, DataSet.limit_append]
  · rw [hset]

theorem withinLimit_run (hs : s.WithinLimit) (step : Step) : (step.run s).set.WithinLimit := by
  rcases run_allOrNothing s step with ⟨-, hset, hw⟩ | ⟨-, hset⟩
  · rw [hset]
    exact hw hs
  · rwa [hset]

theorem objects_prefix_run (s : DataSet) (step : Step) :
    s.objects <+: (step.run s).set.objects := by
  rcases run_allOrNothing s step with ⟨-, hset, -⟩ | ⟨-, hset⟩
  · exact ⟨step.batch, (congrArg DataSet.objects hset).symm⟩
  · exact ⟨[], by rw [hset, List.append_nil]⟩

/-! ### A session -/

theorem history_cons (s : DataSet) (step : Step) (steps : List Step) :
    history s (step :: steps) = (step, step.run s) :: history (step.run s).set steps := rfl

theorem of_mem_states (h : t ∈ states s steps) :
    t.limit = s.limit ∧ (s.WithinLimit → t.WithinLimit) := by
  induction steps generalizing s with
  | nil =>
    obtain rfl : t = s := List.mem_singleton.mp h
    exact ⟨rfl, id⟩
  | cons step steps ih =>
    rcases List.mem_cons.mp h with rfl | h
    · exact ⟨rfl, id⟩
    · obtain ⟨hl, hw⟩ := ih h
      exact ⟨hl.trans (limit_run s step), fun hs => hw (withinLimit_run hs step)⟩

theorem isChain_states (s : DataSet) (steps : List Step) :
    (states s steps).IsChain fun s t => s.objects <+: t.objects := by
  induction steps generalizing s with
  | nil => exact .singleton s
  | cons step steps ih => exact List.isChain_cons_cons.mpr ⟨objects_prefix_run s step, ih _⟩

theorem getLast?_states (s : DataSet) (steps : List Step) :
    (states s steps).getLast? = some (finalSet s steps) := by
  induction steps generalizing s with
  | nil => rfl
  | cons step steps ih => exact List.getLast?_cons_cons.trans (ih _)

theorem objects_finalSet (s : DataSet) (steps : List Step) :
    (finalSet s steps).objects =
      s.objects ++ ((history s steps).filter fun p => !p.2.isFailed).flatMap (·.1.batch) := by
  induction steps generalizing s with
  | nil => exact (List.append_nil _).symm
  | cons step steps ih =>
    show (finalSet (step.run s).set steps).objects = _
    rw [ih, history_cons]
    -- a step that failed is dropped from the history, and the set is still `s`
    cases hf : (step.run s).isFailed with
    | true =>
      rw [List.filter_cons_of_neg (by simp [hf]), set_run_of_failed hf]
    | false =>
      rw [List.filter_cons_of_pos (by simp [hf]), set_run_of_not_failed hf, List.flatMap_cons,
        ← List.append_assoc]
      rfl

/-- A step that is left out leaves the set as it finds it. -/
theorem kept_cons (s : DataSet) (step : Step) (steps : List Step) :
    (kept s (step :: steps) = (step, step.run s) :: kept (step.run s).set steps) ∨
      (kept s (step :: steps) = kept s steps ∧ (step.run s).set = s) := by
  cases hk : step.isAddition && !(step.run s).isFailed with
  | true => exact .inl (List.filter_cons_of_pos hk)
  | false =>
    have hset : (step.run s).set = s := by
      rcases Bool.and_eq_false_iff.mp hk with ha | hf
      · exact set_run_of_not_isAddition ha
      · exact set_run_of_failed (by simpa using hf)
    refine .inr ⟨?_, hset⟩
    rw [kept, history_cons, List.filter_cons_of_neg (by simp [hk]), hset, kept]

theorem runAll_kept (s : DataSet) (steps : List Step) :
    runAll s ((kept s steps).map Prod.fst) = (kept s steps).map Prod.snd := by
  induction steps generalizing s with
  | nil => rfl
  | cons step steps ih =>
    rcases kept_cons s step steps with hk | ⟨hk, -⟩
    · rw [hk]
      exact congrArg (step.run s :: ·) (ih _)
    · rw [hk, ih]

theorem finalSet_kept (s : DataSet) (steps : List Step) :
    finalSet s ((kept s steps).map Prod.fst) = finalSet s steps := by
  induction steps generalizing s with
  | nil => rfl
  | cons step steps ih =>
    show _ = finalSet (step.run s).set steps
    rcases kept_cons s step steps with hk | ⟨hk, hset⟩
    · rw [hk]
      exact ih _
    · rw [hk, hset, ih]

/-- Whatever steps are taken on a new set: it stays within its limit and only ever grows at its end, by
whole batches; the steps that fail and those that add nothing can be left out; look-ups lead to the
first object of a name, and every object counts under one kind. -/
theorem session_appends (limit : Option Nat) (memory : Nat) (steps : List Step) :
    (∀ s ∈ states (.start limit memory) steps, s.limit = limit ∧ s.WithinLimit) ∧
    (states (.start limit memory) steps).IsChain (fun s t => s.objects <+: t.objects) ∧
    (states (.start limit memory) steps).getLast? = some (finalSet (.start limit memory) steps) ∧
    (finalSet (.start limit memory) steps).objects =
      ((history (.start limit memory) steps).filter fun p => !p.2.isFailed).flatMap (·.1.batch) ∧
    finalSet (.start limit memory) ((kept (.start limit memory) steps).map Prod.fst) =
      finalSet (.start limit memory) steps ∧
    runAll (.start limit memory) ((kept (.start limit memory) steps).map Prod.fst) =
      (kept (.start limit memory) steps).map Prod.snd ∧
    (∀ s ∈ states (.start limit memory) steps,
      (∀ name o, s.find? name = some o ↔ ∃ i, s.get? i = some o ∧ o.name = name ∧
        ∀ j < i, ∀ p ∈ s.get? j, p.name ≠ name) ∧
      (∀ name, s.find? name = none ↔ name ∉ s.names) ∧
      (DataKind.all.map s.countKind).sum = s.size) ∧
    (∀ (a : Action) (s : DataSet), runAll s a.steps =
      [.ofEdited (a.addHeader s), .ofEdited (a.addDeviceLibraries (a.addHeader s).set)]) := by
  have hwithin : (DataSet.start limit memory).WithinLimit := by
    intro l _
    rw [DataSet.size_start]
    exact Nat.zero_le l
  refine ⟨fun s hs => ?_, isChain_states _ _, getLast?_states _ _, ?_, finalSet_kept _ _,
    runAll_kept _ _, fun s _ => ⟨fun name o => DataSet.find?_eq_some_iff,
      fun name => DataSet.find?_eq_none_iff, s.sum_countKind⟩, fun a s => rfl⟩
  · obtain ⟨hl, hw⟩ := of_mem_states hs
    exact ⟨hl.trans (DataSet.limit_start limit memory), hw hwithin⟩
  · rw [objects_finalSet, DataSet.objects_start, List.nil_append]

end Step

end DeviceLibs
