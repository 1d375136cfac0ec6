import DeviceLibs.Proofs.Session

/-!
# Sets under two limits

A limit shows in one way only: that a step finds no room. As long as none does, a session under a limit
goes step by step as one under a looser limit, or under none: each step keeps the two sets alike
(`Step.run_loosened`), and so does the whole run (`Step.runAll_loosened`).
-/

namespace DeviceLibs

namespace DataSet

/-- `t` holds the objects of `s`, with the same memory, and may hold at least as many as `s` may. -/
structure Loosened (s t : DataSet) : Prop where
  objects : t.objects = s.objects
  limit : ∀ looser ∈ t.limit, ∃ limit ∈ s.limit, limit ≤ looser
  memory : t.memory = s.memory

namespace Loosened

variable {s t : DataSet}

theorem size_eq (h : s.Loosened t) : t.size = s.size := congrArg List.length h.objects

theorem available_eq (h : s.Loosened t) : t.available = s.available :=
  congrArg (min · (blockBound - 1)) h.memory

theorem append (h : s.Loosened t) (objects : List DataObject) :
    (s.append objects).Loosened (t.append objects) where
  objects := congrArg (· ++ objects) h.objects
  limit := h.limit
  memory := h.memory

theorem hasRoom {n : Nat} (h : s.Loosened t) (hr : s.HasRoom n) : t.HasRoom n where
  limit := by
    intro looser hl
    obtain ⟨limit, hs, hle⟩ := h.limit looser hl
    have hlimit := hr.limit limit hs
    have hsize := h.size_eq
    omega
  memory := by
    rw [h.size_eq, h.available_eq]
    exact hr.memory

end Loosened

theorem start_loosened {limit looser : Option Nat} (h : ∀ n' ∈ looser, ∃ n ∈ limit, n ≤ n')
    (memory : Nat) : (start limit memory).Loosened (start looser memory) := by
  cases limit <;> cases looser <;> exact ⟨rfl, h, rfl⟩

end DataSet

namespace Outcome

/-- The step found no room or no memory. -/
def isOutOfResources (o : Outcome) : Bool :=
  match o.answer with
  | .failed (.outOfResources _) => true
  | _ => false

/-- Nothing tells the outcomes apart but the limits of their sets. -/
structure Agree (o p : Outcome) : Prop where
  set : o.set.Loosened p.set
  answer : p.answer = o.answer
  events : p.events = o.events

theorem Agree.isOutOfResources_eq {o p : Outcome} (h : o.Agree p) :
    p.isOutOfResources = o.isOutOfResources := by
  simp only [isOutOfResources, h.answer]

end Outcome

/-! ### One step -/

namespace Edit

variable {x : Edit Unit}

/-- Under a looser limit the edit goes the same way, unless it has found no room. -/
def HidesLimit (x : Edit Unit) : Prop :=
  ∀ s t, s.Loosened t → (Outcome.ofEdited (x s)).isOutOfResources = true ∨
    (Outcome.ofEdited (x s)).Agree (.ofEdited (x t))

/-- An edit that is decided by the room for `n` objects, and that tells no more of the set than its
size. -/
theorem hidesLimit_of_room (n : Nat) (batch : List DataObject) (told : Nat → List Event)
    (hok : ∀ s : DataSet, s.room n = .ok () → x s = ⟨s.append batch, told s.size, .ok ()⟩)
    (herror : ∀ s fault, s.room n = .error fault →
      x s = ⟨s, [], .error (.outOfResources fault)⟩) : x.HidesLimit := by
  intro s t h
  by_cases hs : s.HasRoom n
  · have ht := DataSet.room_eq_ok_iff.mpr (h.hasRoom hs)
    rw [hok s (DataSet.room_eq_ok_iff.mpr hs), hok t ht, h.size_eq]
    exact .inr ⟨h.append batch, rfl, rfl⟩
  · obtain ⟨fault, hf⟩ := DataSet.exists_fault_of_not_hasRoom hs
    rw [herror s fault hf]
    exact .inl rfl

theorem hidesLimit_reserve (additional : Nat) : (reserve additional).HidesLimit := by
  apply hidesLimit_of_room additional [] fun _ => []
  · intro s hs
    rw [reserve_of_ok hs, s.append_nil]
  · intro s fault hf
    exact reserve_of_error hf

theorem hidesLimit_insert (object : DataObject) : (insert object).HidesLimit := by
  apply hidesLimit_of_room 1 [object] fun _ => []
  · intro s hs
    exact insert_of_ok hs object
  · intro s fault hf
    exact insert_of_error hf object

theorem hidesLimit_commit (objects : List DataObject) : (commit objects).HidesLimit := by
  apply hidesLimit_of_room objects.length objects
    fun size => [.committedObjects objects.length (size + objects.length)]
  · intro s hs
    exact commit_of_ok hs
  · intro s fault hf
    exact commit_of_error hf

/-- Staging does not look at the set. -/
theorem hidesLimit_of_staged (staging : Traced SelectionError (List DataObject)) :
    (ofTraced staging >>= commit).HidesLimit := by
  intro s t h
  cases hr : staging.result with
  | error e =>
    rw [bind_of_error (x := ofTraced staging) hr, bind_of_error (x := ofTraced staging) hr]
    exact .inr ⟨h, rfl, rfl⟩
  | ok staged =>
    rw [bind_of_ok (x := ofTraced staging) hr, bind_of_ok (x := ofTraced staging) hr]
    rcases hidesLimit_commit staged s t h with hfailed | hagree
    · exact .inl hfailed
    · exact .inr ⟨hagree.set, hagree.answer, congrArg (staging.events ++ ·) hagree.events⟩

end Edit

theorem Query.answer_eq_of_objects {s t : DataSet} (h : t.objects = s.objects) (q : Query) :
    q.answer t = q.answer s := by
  cases q <;> simp only [Query.answer, DataSet.get?, DataSet.find?, DataSet.countKind, h]

namespace Step

variable {s t : DataSet} {steps : List Step}

theorem run_loosened (h : s.Loosened t) (step : Step) :
    (step.run s).isOutOfResources = true ∨ (step.run s).Agree (step.run t) := by
  cases step with
  | insert object => exact Edit.hidesLimit_insert object s t h
  | commit objects => exact Edit.hidesLimit_commit objects s t h
  | reserve additional => exact Edit.hidesLimit_reserve additional s t h
  | addHeader language => exact Edit.hidesLimit_of_staged _ s t h
  | addDeviceLibraries isaName options language => exact Edit.hidesLimit_of_staged _ s t h
  | clone => exact .inr ⟨h, rfl, rfl⟩
  | query question => exact .inr ⟨h, question.answer_eq_of_objects h.objects, rfl⟩

/-! ### A session -/

/-- Up to the first step that finds no room, the sessions agree. -/
theorem runAll_loosened (h : s.Loosened t) {i : Nat} {o : Outcome}
    (ho : (runAll s steps)[i]? = some o)
    (hroom : ∀ (j : Nat) (q : Outcome), j ≤ i → (runAll s steps)[j]? = some q →
      q.isOutOfResources = false) :
    ∃ p, (runAll t steps)[i]? = some p ∧ o.Agree p := by
  induction steps generalizing s t i with
  | nil => cases ho
  | cons step steps ih =>
    have hagree : (step.run s).Agree (step.run t) :=
      (run_loosened h step).resolve_left (Bool.eq_false_iff.mp (hroom 0 _ (Nat.zero_le i) rfl))
    cases i with
    | zero =>
      cases ho
      exact ⟨_, rfl, hagree⟩
    | succ i => exact ih hagree.set ho fun j q hj => hroom (j + 1) q (by omega)

theorem length_runAll (s : DataSet) (steps : List Step) :
    (runAll s steps).length = steps.length := by
  induction steps generalizing s with
  | nil => rfl
  | cons step steps ih => exact congrArg (· + 1) (ih _)

/-- Two sessions of the same steps with the same memory, one under a limit that is looser or missing:
before the first step under the stricter limit that finds no room, all answers, events and objects are
the same; and that step comes no later than any under the looser limit that finds none. -/
theorem limit_shows_as_outOfResources {limit looser : Option Nat}
    (h : ∀ n' ∈ looser, ∃ n ∈ limit, n ≤ n') (memory : Nat) (steps : List Step) :
    (∀ (i : Nat) (o : Outcome), (runAll (.start limit memory) steps)[i]? = some o →
      (∀ (j : Nat) (q : Outcome), j ≤ i → (runAll (.start limit memory) steps)[j]? = some q →
        q.isOutOfResources = false) →
      ∃ p : Outcome, (runAll (.start looser memory) steps)[i]? = some p ∧ p.answer = o.answer ∧
        p.events = o.events ∧ p.set.objects = o.set.objects) ∧
    ∀ (i : Nat) (p : Outcome), (runAll (.start looser memory) steps)[i]? = some p → p.isOutOfResources = true →
      ∃ (j : Nat) (q : Outcome), j ≤ i ∧ (runAll (.start limit memory) steps)[j]? = some q ∧
        q.isOutOfResources = true := by
  have hstart := DataSet.start_loosened h memory
  refine ⟨fun i o ho hroom => ?_, fun i p hp hout => ?_⟩
  · obtain ⟨p, hp, hagree⟩ := runAll_loosened hstart ho hroom
    exact ⟨p, hp, hagree.answer, hagree.events, hagree.set.objects⟩
  · by_contra hnone
    -- as long as there is room, the stricter session has to agree, also on this step
    have hroom : ∀ (j : Nat) (q : Outcome), j ≤ i →
        (runAll (.start limit memory) steps)[j]? = some q → q.isOutOfResources = false :=
      fun j q hj hq => Bool.eq_false_iff.mpr fun hout => hnone ⟨j, q, hj, hq, hout⟩
    obtain ⟨o, ho⟩ : ∃ o, (runAll (.start limit memory) steps)[i]? = some o := by
      obtain ⟨hi, -⟩ := List.getElem?_eq_some_iff.mp hp
      rw [length_runAll, ← length_runAll (.start limit memory)] at hi
      exact ⟨_, List.getElem?_eq_getElem hi⟩
    obtain ⟨p', hp', hagree⟩ := runAll_loosened hstart ho hroom
    obtain rfl : p = p' := Option.some.inj (hp.symm.trans hp')
    rw [hagree.isOutOfResources_eq, hroom i o (Nat.le_refl i) ho] at hout
    cases hout

/-- A bundle, a request that is refused, and more room than any memory has. -/
def hugeReservation : List Step :=
  [.addDeviceLibraries "amdgcn-amd-amdhsa--gfx900" "" .openCL20, .addHeader .hc,
    .reserve (2 ^ 64 - 1)]

theorem limit_shows_of_hugeReservation :
    (∃ p : Outcome, (runAll (.start none (2 ^ 20)) hugeReservation)[1]? = some p ∧
      p.answer = .failed (.unsupportedLanguage .hc) ∧ p.set.size = 8) ∧
    ∃ (j : Nat) (q : Outcome), j ≤ 2 ∧
      (runAll (.start (some 8) (2 ^ 20)) hugeReservation)[j]? = some q ∧
      q.isOutOfResources = true := by
  have hlimits : ∀ n' ∈ (none : Option Nat), ∃ n ∈ some 8, n ≤ n' := by simp
  have hroom : ∀ q ∈ (runAll (.start (some 8) (2 ^ 20)) hugeReservation).take 2,
      q.isOutOfResources = false := by decide +kernel
  have hsecond : ∃ o : Outcome,
      (runAll (.start (some 8) (2 ^ 20)) hugeReservation)[1]? = some o ∧
      o.answer = .failed (.unsupportedLanguage .hc) ∧ o.set.size = 8 :=
    ⟨_, rfl, by decide +kernel, by decide +kernel⟩
  obtain ⟨hsame, hearlier⟩ := limit_shows_as_outOfResources hlimits (2 ^ 20) hugeReservation
  constructor
  · obtain ⟨o, ho, hanswer, hsize⟩ := hsecond
    obtain ⟨p, hp, hpanswer, -, hobjects⟩ := hsame 1 o ho fun j q hj hq =>
      hroom q (List.mem_of_getElem? ((List.getElem?_take_of_lt (Nat.lt_succ_of_le hj)).trans hq))
    refine ⟨p, hp, hpanswer.trans hanswer, ?_⟩
    rw [DataSet.size, hobjects]
    exact hsize
  · have hthird : ∃ p : Outcome, (runAll (.start none (2 ^ 20)) hugeReservation)[2]? = some p ∧
        p.isOutOfResources = true := ⟨_, rfl, by decide +kernel⟩
    obtain ⟨p, hp, hout⟩ := hthird
    exact hearlier 2 p hp hout

end Step

end DeviceLibs
