import DeviceLibs.Proofs.History

/-!
# Reservations

The limit is tested against a count that stops at the largest there is, and a limit may be that large.
What the test lets through then is refused all the same, since no block has so many objects
(`DataSet.room_of_limit_lt`); so what is reserved fits, in numbers without a bound
(`DataSet.lt_of_room`). Room that is there for a number of objects is there for them in any batches:
each insertion takes its own part of it (`Step.run_of_hasRoom`) and leaves the rest to those that follow
(`Step.runAll_of_hasRoom`).
-/

namespace DeviceLibs

namespace DataSet

variable {s : DataSet} {n m : Nat} {objects : List DataObject}

/-! ### What is refused -/

theorem grow_of_countBound_le (h : countBound ≤ s.size + n) :
    s.grow n = .error (.capacityOverflow n) :=
  if_pos (.inl h)

theorem grow_of_room (h : s.room n = .ok ()) : s.grow n = .ok () := by
  unfold room at h
  cases hl : s.limit with
  | none =>
    rw [hl] at h
    exact h
  | some limit =>
    rw [hl] at h
    dsimp only at h
    split_ifs at h with hlt
    exact h

/-- Room is granted for counts only. -/
theorem lt_of_room (h : s.room n = .ok ()) : s.size + n < countBound := by
  by_contra hle
  have hrefused := grow_of_countBound_le (Nat.not_lt.mp hle)
  rw [grow_of_room h] at hrefused
  cases hrefused

/-- Why more objects than the limit allows are refused: for the limit, as far as the count that stops
shows it, and else for the count itself. -/
def excess (limit size additional : Nat) : ResourceFault :=
  if limit < min (size + additional) (countBound - 1) then
    .limitExceeded limit (min (size + additional) (countBound - 1))
  else .capacityOverflow additional

theorem room_of_limit_lt {limit : Nat} (hl : limit ∈ s.limit) (h : limit < s.size + n) :
    s.room n = .error (excess limit s.size n) := by
  have hlimit : s.limit = some limit := hl
  unfold room excess
  rw [hlimit]
  dsimp only
  by_cases hshows : limit < min (s.size + n) (countBound - 1)
  · rw [if_pos hshows, if_pos hshows]
  · rw [if_neg hshows, if_neg hshows]
    -- the count has stopped short of the excess, so it is beyond all counts
    have hcount : countBound ≤ s.size + n := by
      have hpos : 0 < countBound := by decide
      omega
    exact grow_of_countBound_le hcount

/-! ### What is left of the room -/

theorem HasRoom.append (h : s.HasRoom (objects.length + m)) : (s.append objects).HasRoom m where
  limit := by
    intro limit hl
    have hle := h.limit limit hl
    rw [size_append]
    omega
  memory := by
    have hmemory := h.memory
    rw [size_append, available_append, Nat.add_assoc]
    exact hmemory

end DataSet

namespace Step

variable {s : DataSet} {step : Step} {steps : List Step} {n : Nat}

/-- An insertion that there is room for succeeds. -/
theorem run_of_hasRoom (hi : step.isInsertion = true) (h : s.HasRoom step.batch.length) :
    (step.run s).answer = .done ∧ (step.run s).set = s.append step.batch := by
  rw [← DataSet.room_eq_ok_iff] at h
  cases step with
  | insert object =>
    have hroom : s.room 1 = .ok () := h
    rw [run, Edit.insert_of_ok hroom]
    exact ⟨rfl, rfl⟩
  | commit objects =>
    have hroom : s.room objects.length = .ok () := h
    rw [run, Edit.commit_of_ok hroom]
    exact ⟨rfl, rfl⟩
  | _ => cases hi

/-- Insertions that there is room for, taken together, succeed one after the other. -/
theorem runAll_of_hasRoom (hi : ∀ step ∈ steps, step.isInsertion = true)
    (h : s.HasRoom (steps.flatMap batch).length) :
    (∀ o ∈ runAll s steps, o.answer = .done) ∧
      finalSet s steps = s.append (steps.flatMap batch) := by
  induction steps generalizing s with
  | nil => exact ⟨by simp [runAll], s.append_nil.symm⟩
  | cons step steps ih =>
    rw [List.flatMap_cons, List.length_append] at h
    have hfirst : s.HasRoom step.batch.length := h.mono (Nat.le_add_right _ _)
    obtain ⟨hdone, hset⟩ := run_of_hasRoom (hi step List.mem_cons_self) hfirst
    obtain ⟨hrest, hfinal⟩ := ih (fun t ht => hi t (List.mem_cons_of_mem _ ht)) h.append
    have hrun : runAll s (step :: steps) = step.run s :: runAll (s.append step.batch) steps := by
      rw [runAll, hset]
    have hend : finalSet s (step :: steps) = finalSet (s.append step.batch) steps := by
      rw [← hset]
      rfl
    rw [hrun, hend, hfinal]
    refine ⟨?_, ?_⟩
    · intro o ho
      rcases List.mem_cons.mp ho with rfl | ho
      · exact hdone
      · exact hrest o ho
    · rw [List.flatMap_cons]
      simp only [DataSet.append, List.append_assoc]

/-- A commit tells of its objects once there is room for them, so what it counts is a count. -/
theorem of_mem_events_commit {objects : List DataObject} {count total : Nat}
    (h : .committedObjects count total ∈ (Edit.commit objects s).events) :
    count = objects.length ∧ total = s.size + objects.length ∧ total < DataSet.countBound := by
  by_cases hs : s.HasRoom objects.length
  · have hroom := DataSet.room_eq_ok_iff.mpr hs
    have hlt := DataSet.lt_of_room hroom
    rw [Edit.commit_of_ok hroom] at h
    obtain ⟨rfl, rfl⟩ : count = objects.length ∧ total = s.size + objects.length := by
      simpa using h
    exact ⟨rfl, rfl, hlt⟩
  · obtain ⟨fault, hf⟩ := DataSet.exists_fault_of_not_hasRoom hs
    rw [Edit.commit_of_error hf] at h
    cases h

/-- On any set, a reservation never changes it. If it succeeds, the objects fit the limit and the count
of them is below 2⁶⁴, with nothing cut off; more than the limit are refused, whatever their number. What
is reserved is there: insertions of no more objects than that succeed, in whatever batches. The sum that
a commit forms is never beyond what a count holds. -/
theorem reservation_honoured (s : DataSet) (n : Nat) :
    (Edit.reserve n s).set = s ∧
    ((Edit.reserve n s).result = .ok () →
      (∀ limit ∈ s.limit, s.size + n ≤ limit) ∧ s.size + n < 2 ^ 64) ∧
    (∀ limit ∈ s.limit, limit < s.size + n →
      (Edit.reserve n s).result = .error (.outOfResources (DataSet.excess limit s.size n))) ∧
    ((Edit.reserve n s).result = .ok () → ∀ steps : List Step,
      (∀ step ∈ steps, step.isInsertion = true) → (steps.flatMap batch).length ≤ n →
      (∀ o ∈ runAll (Edit.reserve n s).set steps, o.answer = .done) ∧
        finalSet (Edit.reserve n s).set steps = s.append (steps.flatMap batch)) ∧
    ∀ objects count total, .committedObjects count total ∈ (Edit.commit objects s).events →
      count = objects.length ∧ total = s.size + objects.length ∧ total < 2 ^ 64 := by
  have hroom : (Edit.reserve n s).result = .ok () → s.room n = .ok () := by
    intro h
    cases hr : s.room n with
    | ok _ => rfl
    | error fault =>
      rw [Edit.reserve_of_error hr] at h
      cases h
  refine ⟨rfl, ?_, ?_, ?_, ?_⟩
  · intro h
    exact ⟨(DataSet.room_eq_ok_iff.mp (hroom h)).limit, DataSet.lt_of_room (hroom h)⟩
  · intro limit hl hlt
    rw [Edit.reserve_of_error (DataSet.room_of_limit_lt hl hlt)]
  · intro h steps hi hn
    have hs : s.HasRoom n := DataSet.room_eq_ok_iff.mp (hroom h)
    exact runAll_of_hasRoom hi (hs.mono hn)
  · intro objects count total h
    exact of_mem_events_commit h

/-- A set whose limit is the largest count. -/
def widest : DataSet := { objects := [⟨.bc, "a.bc", .empty⟩], limit := some (2 ^ 64 - 1) }

/-- The largest reservation there is goes past the widest limit, which does not show it; a reservation of
three is used up by an insertion and a commit. -/
theorem reservation_honoured_of_widest :
    (Edit.reserve (2 ^ 64 - 1) widest).result =
      .error (.outOfResources (.capacityOverflow (2 ^ 64 - 1))) ∧
    ((Edit.reserve 3 widest).result = .ok () ∧ widest.size + 3 < 2 ^ 64) ∧
    (∀ o ∈ runAll widest [.insert ⟨.log, "b", .empty⟩,
      .commit [⟨.log, "c", .empty⟩, ⟨.log, "c", .empty⟩]], o.answer = .done) ∧
    .committedObjects 2 3 ∈ (Edit.commit [⟨.log, "c", .empty⟩, ⟨.log, "c", .empty⟩] widest).events ∧
    3 < 2 ^ 64 := by
  have hreserved : (Edit.reserve 3 widest).result = .ok () := by decide +kernel
  have htold : .committedObjects 2 3 ∈
      (Edit.commit [⟨.log, "c", .empty⟩, ⟨.log, "c", .empty⟩] widest).events := by decide +kernel
  obtain ⟨-, -, hrefused, -, -⟩ := reservation_honoured widest (2 ^ 64 - 1)
  obtain ⟨-, hfits, -, hkept, hsum⟩ := reservation_honoured widest 3
  refine ⟨?_, ⟨hreserved, (hfits hreserved).2⟩, ?_, htold, (hsum _ _ _ htold).2.2⟩
  · have hexcess : DataSet.excess (2 ^ 64 - 1) widest.size (2 ^ 64 - 1) =
        .capacityOverflow (2 ^ 64 - 1) := by decide +kernel
    have hlimit : 2 ^ 64 - 1 ∈ widest.limit := by decide +kernel
    have hover : 2 ^ 64 - 1 < widest.size + (2 ^ 64 - 1) := by decide +kernel
    rw [hrefused _ hlimit hover, hexcess]
  · exact (hkept hreserved _ (by decide) (by decide)).1

end Step

end DeviceLibs
