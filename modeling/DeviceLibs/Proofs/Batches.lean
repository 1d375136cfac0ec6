import DeviceLibs.Proofs.Limits
import DeviceLibs.Proofs.Reservation

/-!
# A batch at once and its objects one by one

A commit asks for the room of its whole batch, an insertion for that of one object in the set as the ones
before it left it. They agree, since room is room for the parts one after the other
(`DataSet.hasRoom_append_iff`). Where a batch does not fit, a commit adds none of it; insertions add as
many objects from its front as fit, and the others are refused (`Step.exists_insertsUpTo`). How many fit
is a matter of the limit, as far as the memory grants what the limit allows
(`DataSet.hasRoom_iff_of_grants`).
-/

namespace DeviceLibs

namespace DataSet

variable {s : DataSet} {m : Nat}

theorem hasRoom_append_iff (objects : List DataObject) :
    (s.append objects).HasRoom m ↔ s.HasRoom (objects.length + m) := by
  refine ⟨fun h => ⟨fun limit hl => ?_, ?_⟩, HasRoom.append⟩
  · have hle := h.limit limit hl
    rw [size_append] at hle
    omega
  · have hmemory := h.memory
    rwa [size_append, available_append, Nat.add_assoc] at hmemory

end DataSet

/-! ### Sets that sessions lead to -/

/-- What an edit adds there was room for. -/
theorem Edit.Adds.hasRoom_zero {x : Edit Unit} {batch : List DataObject} {s : DataSet}
    (h : x.Adds batch) (hs : s.HasRoom 0) : (x s).set.HasRoom 0 := by
  rcases h s with ⟨-, hset, hroom⟩ | ⟨e, -, hset⟩
  · rw [hset, DataSet.hasRoom_append_iff]
    exact hroom
  · rwa [hset]

theorem DataSet.hasRoom_zero_start (limit : Option Nat) (memory : Nat) :
    (start limit memory).HasRoom 0 := by
  refine ⟨fun l _ => ?_, ?_⟩
  · rw [size_start]
    exact Nat.zero_le l
  · rw [size_start, Nat.add_zero, Nat.zero_mul]
    exact Nat.zero_le _

namespace Step

variable {s t : DataSet} {steps : List Step} {objects : List DataObject} {k : Nat}

theorem hasRoom_zero_run (hs : s.HasRoom 0) (step : Step) : (step.run s).set.HasRoom 0 := by
  cases step with
  | insert object => exact (Edit.adds_insert object).hasRoom_zero hs
  | commit objects => exact (Edit.adds_commit objects).hasRoom_zero hs
  | reserve additional => exact (Edit.adds_reserve additional).hasRoom_zero hs
  | addHeader language => exact (adds_addHeader language).hasRoom_zero hs
  | addDeviceLibraries isaName options language =>
    exact (adds_addDeviceLibraries isaName options language).hasRoom_zero hs
  | clone => exact hs
  | query question => exact hs

theorem hasRoom_zero_of_mem_states (hs : s.HasRoom 0) (h : t ∈ states s steps) : t.HasRoom 0 := by
  induction steps generalizing s with
  | nil =>
    obtain rfl : t = s := List.mem_singleton.mp h
    exact hs
  | cons step steps ih =>
    rcases List.mem_cons.mp h with rfl | h
    · exact hs
    · exact ih (hasRoom_zero_run hs step) h

/-! ### Batches -/

theorem run_commit_of_hasRoom (h : s.HasRoom objects.length) :
    ((commit objects).run s).answer = .done ∧ ((commit objects).run s).set = s.append objects := by
  have hinsertion : (commit objects).isInsertion = true := rfl
  exact run_of_hasRoom hinsertion h

theorem run_commit_of_not_hasRoom (h : ¬ s.HasRoom objects.length) :
    (∃ fault, ((commit objects).run s).answer = .failed (.outOfResources fault)) ∧
      ((commit objects).run s).set = s := by
  obtain ⟨fault, hf⟩ := DataSet.exists_fault_of_not_hasRoom h
  rw [run, Edit.commit_of_error hf]
  exact ⟨⟨fault, rfl⟩, rfl⟩

theorem run_commit_eq_done_iff :
    ((commit objects).run s).answer = .done ↔ s.HasRoom objects.length := by
  constructor
  · intro h
    by_contra hroom
    obtain ⟨⟨fault, hf⟩, -⟩ := run_commit_of_not_hasRoom hroom
    rw [h] at hf
    cases hf
  · intro h
    exact (run_commit_of_hasRoom h).1

/-- Two commits succeed where one commit of both batches does. -/
theorem runAll_commits_done_iff (a b : List DataObject) :
    (∀ o ∈ runAll s [commit a, commit b], o.answer = .done) ↔ s.HasRoom (a ++ b).length := by
  rw [List.length_append]
  constructor
  · intro h
    have hfirst : s.HasRoom a.length := run_commit_eq_done_iff.mp (h _ List.mem_cons_self)
    have hset : ((commit a).run s).set = s.append a := (run_commit_of_hasRoom hfirst).2
    have hsecond : (((commit a).run s).set).HasRoom b.length :=
      run_commit_eq_done_iff.mp (h _ (List.mem_cons_of_mem _ List.mem_cons_self))
    rwa [hset, DataSet.hasRoom_append_iff] at hsecond
  · intro h
    have hinsertions : ∀ step ∈ [commit a, commit b], step.isInsertion = true := by simp [isInsertion]
    have hbatch : ([commit a, commit b].flatMap batch).length = a.length + b.length := by
      simp [batch]
    exact (runAll_of_hasRoom hinsertions (hbatch ▸ h)).1

/-! ### Insertions one by one -/

/-- Of the insertions of some objects the first `k` succeed, and all others are refused. -/
structure InsertsUpTo (s : DataSet) (objects : List DataObject) (k : Nat) : Prop where
  set : finalSet s (objects.map insert) = s.append (objects.take k)
  done : ∀ o ∈ (runAll s (objects.map insert)).take k, o.answer = .done
  refused : ∀ o ∈ (runAll s (objects.map insert)).drop k,
    ∃ fault, o.answer = .failed (.outOfResources fault)

/-- A set without room for one object refuses all. -/
theorem insertsUpTo_zero (h : ¬ s.HasRoom 1) (objects : List DataObject) :
    InsertsUpTo s objects 0 := by
  obtain ⟨fault, hf⟩ := DataSet.exists_fault_of_not_hasRoom h
  have hrun : ∀ object, (insert object).run s = ⟨s, .failed (.outOfResources fault), []⟩ := by
    intro object
    rw [run, Edit.insert_of_error hf]
    rfl
  induction objects with
  | nil =>
    exact ⟨s.append_nil.symm, fun _ ho => absurd ho List.not_mem_nil,
      fun _ ho => absurd ho List.not_mem_nil⟩
  | cons object objects ih =>
    refine ⟨?_, fun _ ho => absurd ho List.not_mem_nil, ?_⟩
    · have hstep : finalSet s ((object :: objects).map insert) =
          finalSet ((insert object).run s).set (objects.map insert) := rfl
      rw [hstep, hrun]
      exact ih.set
    · intro o ho
      rw [List.drop_zero, List.map_cons, runAll, hrun] at ho
      rcases List.mem_cons.mp ho with rfl | ho
      · exact ⟨fault, rfl⟩
      · exact ih.refused o ho

theorem InsertsUpTo.cons {object : DataObject} (h : s.HasRoom 1)
    (hrest : InsertsUpTo (s.append [object]) objects k) :
    InsertsUpTo s (object :: objects) (k + 1) := by
  have hinsertion : (insert object).isInsertion = true := rfl
  obtain ⟨hdone, hset⟩ := run_of_hasRoom hinsertion h
  have hset' : ((insert object).run s).set = s.append [object] := hset
  have hall : runAll s ((object :: objects).map insert) =
      (insert object).run s :: runAll (s.append [object]) (objects.map insert) := by
    rw [List.map_cons, runAll, hset']
  refine ⟨?_, ?_, ?_⟩
  · have hstep : finalSet s ((object :: objects).map insert) =
        finalSet ((insert object).run s).set (objects.map insert) := rfl
    rw [hstep, hset', hrest.set]
    simp [DataSet.append]
  · rw [hall, List.take_succ_cons]
    intro o ho
    rcases List.mem_cons.mp ho with rfl | ho
    · exact hdone
    · exact hrest.done o ho
  · rw [hall, List.drop_succ_cons]
    exact hrest.refused

/-- As many go in as there is room for. -/
theorem exists_insertsUpTo (hs : s.HasRoom 0) (objects : List DataObject) :
    ∃ k ≤ objects.length, (∀ n ≤ objects.length, s.HasRoom n ↔ n ≤ k) ∧
      InsertsUpTo s objects k := by
  induction objects generalizing s with
  | nil =>
    refine ⟨0, Nat.le_refl 0, fun n hn => ?_, s.append_nil.symm, nofun, nofun⟩
    obtain rfl := Nat.le_zero.mp hn
    exact ⟨fun _ => Nat.le_refl 0, fun _ => hs⟩
  | cons object objects ih =>
    by_cases hone : s.HasRoom 1
    · have happend : ∀ m, (s.append [object]).HasRoom m ↔ s.HasRoom (m + 1) := by
        intro m
        rw [DataSet.hasRoom_append_iff, Nat.add_comm m 1]
        rfl
      obtain ⟨k, hk, hfits, hinserts⟩ := ih ((happend 0).mpr hone)
      refine ⟨k + 1, Nat.succ_le_succ hk, fun n hn => ?_, hinserts.cons hone⟩
      cases n with
      | zero => exact ⟨fun _ => Nat.zero_le _, fun _ => hs⟩
      | succ n =>
        rw [← happend, hfits n (Nat.le_of_succ_le_succ hn)]
        omega
    · refine ⟨0, Nat.zero_le _, fun n _ => ⟨fun hn => ?_, fun hn => ?_⟩, insertsUpTo_zero hone _⟩
      · by_contra hpos
        exact hone (hn.mono (by omega))
      · obtain rfl := Nat.le_zero.mp hn
        exact hs

/-- All insertions succeed exactly if all objects are among those that go in. -/
theorem InsertsUpTo.done_iff (h : InsertsUpTo s objects k) (hk : k ≤ objects.length) :
    (∀ o ∈ runAll s (objects.map insert), o.answer = .done) ↔ k = objects.length := by
  have hlength : (runAll s (objects.map insert)).length = objects.length := by
    rw [length_runAll, List.length_map]
  constructor
  · intro hdone
    by_contra hne
    obtain ⟨o, ho⟩ : ∃ o, o ∈ (runAll s (objects.map insert)).drop k := by
      refine List.exists_mem_of_ne_nil _ fun hnil => ?_
      rw [List.drop_eq_nil_iff, hlength] at hnil
      omega
    obtain ⟨fault, hf⟩ := h.refused o ho
    rw [hdone o (List.mem_of_mem_drop ho)] at hf
    cases hf
  · rintro rfl
    rw [← List.take_of_length_le (Nat.le_of_eq hlength)]
    exact h.done

/-- In every set that a session leads to, a commit of two batches in one, a commit of each, and insertions
of all their objects succeed together, and then they leave the same set. Otherwise the commit of both leaves
the set as it was, and insertions add the objects in front that there is room for and no others. As far as
the memory grants what the limit allows, there is room for those that fit the limit. -/
theorem commit_agrees_with_insertions (limit : Option Nat) (memory : Nat) (steps : List Step) :
    ∀ s ∈ states (.start limit memory) steps, ∀ a b : List DataObject,
      (((commit (a ++ b)).run s).answer = .done ↔
        ∀ o ∈ runAll s [commit a, commit b], o.answer = .done) ∧
      (((commit (a ++ b)).run s).answer = .done ↔
        ∀ o ∈ runAll s ((a ++ b).map insert), o.answer = .done) ∧
      (((commit (a ++ b)).run s).answer = .done →
        ((commit (a ++ b)).run s).set = s.append (a ++ b) ∧
        finalSet s [commit a, commit b] = s.append (a ++ b) ∧
        finalSet s ((a ++ b).map insert) = s.append (a ++ b)) ∧
      (((commit (a ++ b)).run s).answer ≠ .done → ((commit (a ++ b)).run s).set = s) ∧
      ∃ k ≤ (a ++ b).length, InsertsUpTo s (a ++ b) k ∧
        (∀ n ≤ (a ++ b).length, s.HasRoom n ↔ n ≤ k) ∧
        (s.Grants (a ++ b).length →
          ∀ n ≤ (a ++ b).length, (∀ l ∈ limit, s.size + n ≤ l) ↔ n ≤ k) := by
  intro s hs a b
  have hzero : s.HasRoom 0 :=
    hasRoom_zero_of_mem_states (DataSet.hasRoom_zero_start limit memory) hs
  have hlimit : s.limit = limit := by
    obtain ⟨hl, -⟩ := of_mem_states hs
    rw [hl, DataSet.limit_start]
  obtain ⟨k, hk, hfits, hinserts⟩ := exists_insertsUpTo hzero (a ++ b)
  have hall : s.HasRoom (a ++ b).length ↔ k = (a ++ b).length := by
    rw [hfits _ (Nat.le_refl _)]
    omega
  refine ⟨?_, ?_, fun h => ?_, fun h => ?_, k, hk, hinserts, hfits, fun hgrants n hn => ?_⟩
  · rw [run_commit_eq_done_iff, runAll_commits_done_iff]
  · rw [run_commit_eq_done_iff, hall, hinserts.done_iff hk]
  · have hroom := run_commit_eq_done_iff.mp h
    refine ⟨(run_commit_of_hasRoom hroom).2, ?_, ?_⟩
    · have hbatch : [commit a, commit b].flatMap batch = a ++ b := by simp [batch]
      rw [← hbatch] at hroom ⊢
      exact (runAll_of_hasRoom (by simp [isInsertion]) hroom).2
    · rw [hinserts.set, hall.mp hroom, List.take_length]
  · exact (run_commit_of_not_hasRoom (mt run_commit_eq_done_iff.mpr h)).2
  · rw [← hlimit, ← DataSet.hasRoom_iff_of_grants hgrants hn, hfits n hn]

/-- A set of one object that may hold three, and is granted memory for just as many. -/
def nearlyFull : DataSet :=
  { objects := [⟨.bc, "a.bc", .empty⟩], limit := some 3, memory := 3 * DataSet.objectBytes }

/-- Two objects fit, and of three the first two when they are inserted one by one. -/
theorem commit_agrees_with_insertions_of_nearlyFull :
    nearlyFull ∈ states (.start (some 3) (3 * DataSet.objectBytes))
      [insert ⟨.bc, "a.bc", .empty⟩] ∧
    ((commit ([⟨.log, "b", .empty⟩] ++ [⟨.log, "c", .empty⟩])).run nearlyFull).answer = .done ∧
    finalSet nearlyFull ([⟨.log, "b", .empty⟩, ⟨.log, "c", .empty⟩].map insert) =
      nearlyFull.append [⟨.log, "b", .empty⟩, ⟨.log, "c", .empty⟩] ∧
    ((commit ([⟨.log, "b", .empty⟩] ++ [⟨.log, "c", .empty⟩, ⟨.bc, "d", .empty⟩])).run
      nearlyFull).answer ≠ .done ∧
    ((commit ([⟨.log, "b", .empty⟩] ++ [⟨.log, "c", .empty⟩, ⟨.bc, "d", .empty⟩])).run
      nearlyFull).set = nearlyFull ∧
    nearlyFull.Grants 3 ∧
    InsertsUpTo nearlyFull [⟨.log, "b", .empty⟩, ⟨.log, "c", .empty⟩, ⟨.bc, "d", .empty⟩] 2 := by
  have hstate : nearlyFull ∈ states (.start (some 3) (3 * DataSet.objectBytes))
      [insert ⟨.bc, "a.bc", .empty⟩] := by decide +kernel
  have hagrees := commit_agrees_with_insertions (some 3) _ _ nearlyFull hstate [⟨.log, "b", .empty⟩]
  have hfits : ((commit ([⟨.log, "b", .empty⟩] ++ [⟨.log, "c", .empty⟩])).run
      nearlyFull).answer = .done := by decide +kernel
  have hover : ((commit ([⟨.log, "b", .empty⟩] ++ [⟨.log, "c", .empty⟩, ⟨.bc, "d", .empty⟩])).run
      nearlyFull).answer ≠ .done := by decide +kernel
  have hgrants : nearlyFull.Grants 3 := by
    intro m hm hlimit
    have hle : nearlyFull.size + m ≤ 3 := hlimit 3 rfl
    have havailable : nearlyFull.available = 3 * DataSet.objectBytes := by decide +kernel
    rw [havailable]
    exact Nat.mul_le_mul_right _ hle
  obtain ⟨-, -, hsame, -, -⟩ := hagrees [⟨.log, "c", .empty⟩]
  obtain ⟨-, -, -, hkept, k, hk, hinserts, -, hlongest⟩ :=
    hagrees [⟨.log, "c", .empty⟩, ⟨.bc, "d", .empty⟩]
  refine ⟨hstate, hfits, (hsame hfits).2.2, hover, hkept hover, hgrants, ?_⟩
  -- two more objects are within the limit and three are not
  have htwo : 2 ≤ k := (hlongest hgrants 2 (by decide)).mp (by decide)
  have hthree : ¬ 3 ≤ k := mt (hlongest hgrants 3 (by decide)).mpr (by decide)
  obtain rfl : k = 2 := by omega
  exact hinserts

end Step

end DeviceLibs
