import DeviceLibs.Proofs.Session

/-!
# Where the objects of a set are from

On a set that only requests have changed, the objects are those of the blocks of the requests that
succeeded, in their order (`objects_finalSet_blocks`). Blocks can be told apart without knowing where
they end (`Block.IsSplit.unique`), so the set gives these requests back.
-/

namespace DeviceLibs.Step

/-- Whether the step brings objects of its own. -/
def isInsertion : Step → Bool
  | insert _ | commit _ => true
  | _ => false

def isHeaderRequest : Step → Bool
  | addHeader _ => true
  | _ => false

def isLibraryRequest : Step → Bool
  | addDeviceLibraries .. => true
  | _ => false

variable {s : DataSet} {step : Step} {steps : List Step} {b : Block}

/-! ### The block of a request -/

theorem isAddition_of_isHeaderRequest (h : step.isHeaderRequest = true) :
    step.isAddition = true := by
  cases step with
  | addHeader language => rfl
  | _ => cases h

theorem isAddition_of_isLibraryRequest (h : step.isLibraryRequest = true) :
    step.isAddition = true := by
  cases step with
  | addDeviceLibraries isaName options language => rfl
  | _ => cases h

theorem batch_of_block? (h : step.block? = some b) : step.batch = b.objects := by
  cases step with
  | addHeader language => exact congrArg (fun c => (c.map Block.objects).getD []) h
  | addDeviceLibraries isaName options language =>
    exact congrArg (fun c => (c.map Block.objects).getD []) h
  | _ => cases h

theorem kind_of_block? (h : step.block? = some b) :
    step.isHeaderRequest = decide (b.kind = .precompiledHeader) ∧
      step.isLibraryRequest = decide (b.kind = .bc) := by
  cases step with
  | addHeader language =>
    cases h
    exact ⟨rfl, rfl⟩
  | addDeviceLibraries isaName options language =>
    simp only [block?, Option.bind_eq_bind, Option.bind_eq_some_iff] at h
    obtain ⟨t, -, v, -, flags, -, h⟩ := h
    cases h
    exact ⟨rfl, rfl⟩
  | _ => cases h

/-- A request that succeeds is for a block that the table has. -/
theorem exists_block (hi : step.isInsertion = false) (ha : step.isAddition = true)
    (hf : (step.run s).isFailed = false) : ∃ b, step.block? = some b ∧ b.IsSupported := by
  cases step with
  | addHeader language =>
    refine ⟨.header language, rfl, ?_⟩
    by_contra hl
    have hr := Block.result_stageHeader_of_not (Bool.eq_false_iff.mpr hl)
    rw [run, Edit.addHeader, Edit.bind_of_error (x := .ofTraced _) hr] at hf
    cases hf
  | addDeviceLibraries isaName options language =>
    obtain ⟨⟨v, flags, hsel⟩, -⟩ := result_eq_ok_iff.mp (Outcome.isFailed_ofEdited.mp hf)
    exact ⟨.libraries v flags, block?_of_selects hsel, hsel.supported⟩
  | insert object => cases hi
  | commit objects => cases hi
  | _ => cases ha

/-! ### The blocks of a session -/

theorem of_mem_history {p : Step × Outcome} (hp : p ∈ history s steps) :
    p.1 ∈ steps ∧ ∃ t, p.2 = p.1.run t := by
  induction steps generalizing s with
  | nil => cases hp
  | cons step steps ih =>
    rcases List.mem_cons.mp hp with rfl | hp
    · exact ⟨List.mem_cons_self, s, rfl⟩
    · obtain ⟨hmem, ht⟩ := ih hp
      exact ⟨List.mem_cons_of_mem _ hmem, ht⟩

theorem exists_block_of_mem_kept (h : ∀ step ∈ steps, step.isInsertion = false)
    {p : Step × Outcome} (hp : p ∈ kept s steps) :
    ∃ b, p.1.block? = some b ∧ b.IsSupported := by
  obtain ⟨hmem, hk⟩ := List.mem_filter.mp hp
  obtain ⟨hstep, t, ht⟩ := of_mem_history hmem
  obtain ⟨ha, hf⟩ := Bool.and_eq_true_iff.mp hk
  refine exists_block (s := t) (h _ hstep) ha ?_
  rw [← ht]
  simpa using hf

theorem history_kept (s : DataSet) (steps : List Step) :
    history s ((kept s steps).map Prod.fst) = kept s steps := by
  rw [history, runAll_kept, ← List.unzip_fst, ← List.unzip_snd, List.zip_unzip]

theorem objects_finalSet_kept (s : DataSet) (steps : List Step) :
    (finalSet s steps).objects = s.objects ++ (kept s steps).flatMap (·.1.batch) := by
  have hall : ∀ p ∈ kept s steps, (!p.2.isFailed) = true := fun p hp =>
    (Bool.and_eq_true_iff.mp (List.mem_filter.mp hp).2).2
  -- what is kept is a history of its own, in which nothing fails
  rw [← finalSet_kept, objects_finalSet, history_kept, List.filter_eq_self.mpr hall]

/-- The blocks that the steps have added to the set, in order. -/
def blocks (s : DataSet) (steps : List Step) : List Block :=
  (kept s steps).filterMap (·.1.block?)

section Requests

variable (h : ∀ step ∈ steps, step.isInsertion = false)

include h

theorem map_some_blocks : (blocks s steps).map some = (kept s steps).map (·.1.block?) := by
  rw [blocks, List.map_filterMap, List.filterMap_eq_map_iff_forall_eq_some]
  intro p hp
  obtain ⟨b, hb, -⟩ := exists_block_of_mem_kept h hp
  rw [hb]
  rfl

theorem isSupported_of_mem_blocks : ∀ b ∈ blocks s steps, b.IsSupported := by
  intro b hb
  obtain ⟨p, hp, hpb⟩ := List.mem_filterMap.mp hb
  obtain ⟨c, hpc, hc⟩ := exists_block_of_mem_kept h hp
  rw [hpb] at hpc
  cases hpc
  exact hc

theorem objects_finalSet_blocks :
    (finalSet s steps).objects = s.objects ++ (blocks s steps).flatMap Block.objects := by
  have key : ∀ l : List (Step × Outcome), (∀ p ∈ l, ∃ b, p.1.block? = some b) →
      l.flatMap (·.1.batch) = (l.filterMap (·.1.block?)).flatMap Block.objects := by
    intro l hl
    induction l with
    | nil => rfl
    | cons p l ih =>
      obtain ⟨b, hb⟩ := hl p List.mem_cons_self
      have hcons : (p :: l).filterMap (·.1.block?) = b :: l.filterMap (·.1.block?) :=
        List.filterMap_cons_some hb
      rw [hcons, List.flatMap_cons, List.flatMap_cons, batch_of_block? hb,
        ih fun q hq => hl q (List.mem_cons_of_mem _ hq)]
  rw [objects_finalSet_kept, blocks, key]
  intro p hp
  obtain ⟨b, hb, -⟩ := exists_block_of_mem_kept h hp
  exact ⟨b, hb⟩

/-- The blocks of a kind are as many as the requests for them that succeeded. -/
theorem countP_blocks {isRequest : Step → Bool} {k : DataKind}
    (hk : ∀ step b, step.block? = some b → isRequest step = decide (b.kind = k))
    (ha : ∀ step, isRequest step = true → step.isAddition = true) :
    (blocks s steps).countP (·.kind = k) =
      (history s steps).countP fun p => isRequest p.1 && !p.2.isFailed := by
  have hkept : (history s steps).countP (fun p => isRequest p.1 && !p.2.isFailed) =
      (kept s steps).countP fun p => isRequest p.1 := by
    rw [kept, List.countP_filter]
    refine List.countP_congr fun p _ => ?_
    have hp := ha p.1
    simp only [Bool.and_eq_true]
    tauto
  rw [hkept, blocks, List.countP_filterMap]
  refine List.countP_congr fun p hp => ?_
  obtain ⟨b, hb, -⟩ := exists_block_of_mem_kept h hp
  rw [hb, hk p.1 b hb]
  rfl

end Requests

/-- A set that only requests have changed splits into blocks in exactly one way, and the blocks are
those of the requests that succeeded, in their order. Every object is of the table; there are eight
pieces of bitcode for every request for libraries that succeeded, one header for every request for a
header that did, and nothing else. -/
theorem requests_recovered (limit : Option Nat) (memory : Nat) (steps : List Step)
    (h : ∀ step ∈ steps, step.isInsertion = false) :
    (∃ parts, Block.IsSplit parts (finalSet (.start limit memory) steps).objects ∧
      (∀ others, Block.IsSplit others (finalSet (.start limit memory) steps).objects → others = parts) ∧
      parts.map (fun p => some p.1) = (kept (.start limit memory) steps).map (·.1.block?)) ∧
    (∀ o ∈ (finalSet (.start limit memory) steps).objects, o.IsFromTable) ∧
    (finalSet (.start limit memory) steps).countKind .bc =
      8 * (history (.start limit memory) steps).countP (fun p => p.1.isLibraryRequest && !p.2.isFailed) ∧
    (finalSet (.start limit memory) steps).countKind .precompiledHeader =
      (history (.start limit memory) steps).countP (fun p => p.1.isHeaderRequest && !p.2.isFailed) ∧
    ∀ k, k ≠ .bc → k ≠ .precompiledHeader → (finalSet (.start limit memory) steps).countKind k = 0 := by
  have hobjects : (finalSet (.start limit memory) steps).objects =
      (blocks (.start limit memory) steps).flatMap Block.objects := by
    rw [objects_finalSet_blocks h, DataSet.objects_start, List.nil_append]
  have hsupported := isSupported_of_mem_blocks (s := .start limit memory) h
  have hsplit := Block.isSplit_flatMap_objects hsupported
  simp only [DataSet.countKind, hobjects]
  refine ⟨⟨_, hsplit, fun others ho => ho.unique hsplit, ?_⟩, fun o ho => ?_, ?_, ?_,
    fun k hbc hheader => ?_⟩
  · rw [List.map_map, ← map_some_blocks h]
    rfl
  · obtain ⟨b, -, hob⟩ := List.mem_flatMap.mp ho
    exact Block.isFromTable_of_mem_objects hob
  · rw [Block.countP_flatMap_objects hsupported fun b _ hk => Block.length_names_of_bc hk,
      countP_blocks h (fun step b hb => (kind_of_block? hb).2)
        fun step hstep => isAddition_of_isLibraryRequest hstep]
  · rw [Block.countP_flatMap_objects hsupported fun b hb hk =>
        Block.length_names_of_header (hsupported b hb) hk, Nat.one_mul,
      countP_blocks h (fun step b hb => (kind_of_block? hb).1)
        fun step hstep => isAddition_of_isHeaderRequest hstep]
  · refine List.countP_eq_zero.mpr fun o ho hk => ?_
    obtain ⟨b, hb, hob⟩ := List.mem_flatMap.mp ho
    have hkind := (Block.describes_objects (hsupported b hb)).kind o hob
    rw [decide_eq_true_eq.mp hk] at hkind
    cases b with
    | header language => exact hheader hkind
    | libraries v flags => exact hbc hkind

/-- Requests of which two succeed: one is refused, one finds no room, and no room is left to reserve. -/
def mixedRequests : List Step :=
  [.addDeviceLibraries "amdgcn-amd-amdhsa--gfx900" "" .hc, .addHeader .openCL20,
    .addDeviceLibraries "amdgcn-amd-amdhsa--gfx900" "daz_opt" .openCL12, .reserve 1,
    .addHeader .openCL12]

theorem requests_recovered_of_mixed :
    (∀ step ∈ mixedRequests, step.isInsertion = false) ∧
    (∃ parts, Block.IsSplit parts (finalSet (.start (some 9) (2 ^ 20)) mixedRequests).objects ∧
      parts.map (fun p => some p.1) =
        [some (.header .openCL20), some (.libraries ⟨900⟩ { dazOpt := true })]) ∧
    (finalSet (.start (some 9) (2 ^ 20)) mixedRequests).countKind .bc = 8 := by
  have h : ∀ step ∈ mixedRequests, step.isInsertion = false := by decide
  have hkept : (kept (.start (some 9) (2 ^ 20)) mixedRequests).map (·.1.block?) =
      [some (.header .openCL20), some (.libraries ⟨900⟩ { dazOpt := true })] := by decide +kernel
  have hcount : (history (.start (some 9) (2 ^ 20)) mixedRequests).countP
      (fun p => p.1.isLibraryRequest && !p.2.isFailed) = 1 := by decide +kernel
  obtain ⟨⟨parts, hsplit, -, hblocks⟩, -, hbc, -⟩ :=
    requests_recovered (some 9) (2 ^ 20) mixedRequests h
  rw [hcount] at hbc
  exact ⟨h, ⟨parts, hsplit, hblocks.trans hkept⟩, hbc⟩

end DeviceLibs.Step
