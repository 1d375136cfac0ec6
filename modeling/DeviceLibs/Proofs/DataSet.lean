import DeviceLibs.Data.Edit
import Mathlib.Algebra.BigOperators.Group.List.Basic
import Mathlib.Algebra.Ring.Nat

/-!
# Room, edits, look-ups and counts of a data set

* `room_eq_ok_iff`: room is granted exactly within the limit and the memory; the count that stops at the
  largest there is never hides an excess, since no block holds that many objects.
* `Edit.Adds`: what every edit of this library does: it adds a batch as a whole, or fails and leaves
  the set alone.
* `find?_eq_some_iff`, `find?_eq_none_iff`: a name leads to the first of its objects.
* `sum_countKind`: every object is counted under exactly one kind.
-/

namespace DeviceLibs.DataSet

variable {s : DataSet} {objects : List DataObject}

/-! ### Room -/

/-- The most bytes that the set can have for its objects: those that are granted, as far as one block has
them. -/
def available (s : DataSet) : Nat := min s.memory (blockBound - 1)

/-- The limit and the memory allow `additional` more objects. -/
structure HasRoom (s : DataSet) (additional : Nat) : Prop where
  limit : ∀ limit ∈ s.limit, s.size + additional ≤ limit
  memory : (s.size + additional) * objectBytes ≤ s.available

/-- The memory allows the set to grow by up to `n` objects where the limit does. -/
def Grants (s : DataSet) (n : Nat) : Prop :=
  ∀ m ≤ n, (∀ limit ∈ s.limit, s.size + m ≤ limit) → (s.size + m) * objectBytes ≤ s.available

/-- The set holds no more than it may. -/
def WithinLimit (s : DataSet) : Prop := ∀ limit ∈ s.limit, s.size ≤ limit

@[simp] theorem available_append (s : DataSet) (objects : List DataObject) :
    (s.append objects).available = s.available := rfl

theorem le_available_iff {bytes : Nat} :
    bytes ≤ s.available ↔ bytes ≤ s.memory ∧ bytes < blockBound := by
  have hpos : 0 < blockBound := by decide
  rw [available, Nat.le_min, Nat.le_sub_one_iff_lt hpos]

/-- A block is far too small for the largest count. -/
theorem lt_of_bytes_lt {size : Nat} (h : size * objectBytes < blockBound) : size < countBound - 1 := by
  have hb : blockBound = 2 ^ 63 := rfl
  have hc : countBound = 2 ^ 64 := rfl
  have ho : objectBytes = 56 := rfl
  rw [hb, ho] at h
  rw [hc]
  omega

theorem grow_eq_ok_iff {additional : Nat} :
    s.grow additional = .ok () ↔ (s.size + additional) * objectBytes ≤ s.available := by
  rw [le_available_iff]
  unfold grow
  constructor
  · intro h
    dsimp only at h
    split_ifs at h with hb hm
    exact ⟨Nat.not_lt.mp hm, Nat.not_le.mp fun hle => hb (.inr hle)⟩
  · rintro ⟨hm, hb⟩
    have hc := lt_of_bytes_lt hb
    dsimp only
    rw [if_neg (by omega), if_neg (Nat.not_lt.mpr hm)]

theorem room_eq_ok_iff {additional : Nat} : s.room additional = .ok () ↔ s.HasRoom additional := by
  unfold room
  cases hl : s.limit with
  | none =>
    rw [grow_eq_ok_iff]
    exact ⟨fun h => ⟨by simp [hl], h⟩, fun h => h.memory⟩
  | some limit =>
    dsimp only
    constructor
    · intro h
      split_ifs at h with hlt
      have hm := grow_eq_ok_iff.mp h
      have hc := lt_of_bytes_lt (le_available_iff.mp hm).2
      refine ⟨fun l hl' => ?_, hm⟩
      obtain rfl : limit = l := by simpa [hl] using hl'
      omega
    · intro h
      have hle := h.limit limit hl
      rw [if_neg (by omega), grow_eq_ok_iff]
      exact h.memory

theorem exists_fault_of_not_hasRoom {additional : Nat} (h : ¬ s.HasRoom additional) :
    ∃ fault, s.room additional = .error fault := by
  rw [← room_eq_ok_iff] at h
  cases hr : s.room additional with
  | ok u => exact absurd hr h
  | error fault => exact ⟨fault, rfl⟩

theorem HasRoom.mono {m n : Nat} (h : s.HasRoom n) (hmn : m ≤ n) : s.HasRoom m where
  limit := fun limit hl => by
    have hle := h.limit limit hl
    omega
  memory := Nat.le_trans (Nat.mul_le_mul_right _ (by omega)) h.memory

theorem hasRoom_iff_of_grants {m n : Nat} (h : s.Grants n) (hm : m ≤ n) :
    s.HasRoom m ↔ ∀ limit ∈ s.limit, s.size + m ≤ limit :=
  ⟨HasRoom.limit, fun hlimit => ⟨hlimit, h m hm hlimit⟩⟩

/-- Memory for the most is memory for all. -/
theorem grants_of_le {n : Nat} (h : (s.size + n) * objectBytes ≤ s.available) : s.Grants n :=
  fun _ hm _ => Nat.le_trans (Nat.mul_le_mul_right _ (by omega)) h

theorem HasRoom.withinLimit_append (h : s.HasRoom objects.length) : (s.append objects).WithinLimit := by
  intro limit hl
  rw [size_append]
  exact h.limit limit hl

/-! ### Look-ups and counts -/

theorem find?_eq_some_iff {name : String} {o : DataObject} :
    s.find? name = some o ↔ ∃ i, s.get? i = some o ∧ o.name = name ∧
      ∀ j < i, ∀ p ∈ s.get? j, p.name ≠ name := by
  simp only [find?, get?, List.find?_eq_some_iff_getElem, decide_eq_true_eq]
  constructor
  · rintro ⟨hn, i, hi, ho, hbefore⟩
    refine ⟨i, by rw [List.getElem?_eq_getElem hi, ho], hn, fun j hj p hp => ?_⟩
    obtain ⟨hjl, rfl⟩ := List.getElem?_eq_some_iff.mp hp
    simpa using hbefore j hj
  · rintro ⟨i, hi, hn, hbefore⟩
    obtain ⟨hil, ho⟩ := List.getElem?_eq_some_iff.mp hi
    refine ⟨hn, i, hil, ho, fun j hj => ?_⟩
    simpa using hbefore j hj _ (List.getElem?_eq_getElem (by omega))

theorem find?_eq_none_iff {name : String} : s.find? name = none ↔ name ∉ s.names := by
  simp [find?, names]

theorem sum_kinds_eq_one (o : DataObject) :
    (DataKind.all.map fun k => if o.kind = k then 1 else 0).sum = 1 := by
  cases o.kind <;> rfl

theorem sum_countKind (s : DataSet) : (DataKind.all.map s.countKind).sum = s.size := by
  have key : ∀ l : List DataObject,
      (DataKind.all.map fun k => l.countP (·.kind = k)).sum = l.length := by
    intro l
    induction l with
    | nil => rfl
    | cons o l ih =>
      simp only [List.countP_cons, decide_eq_true_eq, List.sum_map_add, ih, sum_kinds_eq_one,
        List.length_cons]
  exact key s.objects

end DeviceLibs.DataSet

namespace DeviceLibs.Edit

/-- On every set, the edit adds `batch` as a whole, and there is room for it, or it fails and leaves the
set alone. -/
def Adds (x : Edit Unit) (batch : List DataObject) : Prop :=
  ∀ s, ((x s).result = .ok () ∧ (x s).set = s.append batch ∧ s.HasRoom batch.length) ∨
    ∃ e, (x s).result = .error e ∧ (x s).set = s

/-- Reserving comes first and decides. -/
theorem adds_of_room {x : Edit Unit} {batch : List DataObject} {n : Nat} (hn : batch.length ≤ n)
    (hok : ∀ s, s.room n = .ok () → (x s).result = .ok () ∧ (x s).set = s.append batch)
    (herror : ∀ s fault, s.room n = .error fault →
      (x s).result = .error (.outOfResources fault) ∧ (x s).set = s) : x.Adds batch := by
  intro s
  by_cases h : s.HasRoom n
  · obtain ⟨hr, hset⟩ := hok s (DataSet.room_eq_ok_iff.mpr h)
    exact .inl ⟨hr, hset, h.mono hn⟩
  · obtain ⟨fault, hf⟩ := DataSet.exists_fault_of_not_hasRoom h
    exact .inr ⟨_, herror s fault hf⟩

theorem adds_reserve (additional : Nat) : (reserve additional).Adds [] := by
  refine adds_of_room (Nat.zero_le additional) (fun s h => ?_) fun s fault h => ?_
  · rw [reserve_of_ok h]
    exact ⟨rfl, s.append_nil.symm⟩
  · rw [reserve_of_error h]
    exact ⟨rfl, rfl⟩

theorem adds_insert (object : DataObject) : (insert object).Adds [object] := by
  refine adds_of_room (Nat.le_refl 1) (fun s h => ?_) fun s fault h => ?_
  · rw [insert_of_ok h]
    exact ⟨rfl, rfl⟩
  · rw [insert_of_error h]
    exact ⟨rfl, rfl⟩

theorem adds_commit (objects : List DataObject) : (commit objects).Adds objects := by
  refine adds_of_room (Nat.le_refl objects.length) (fun s h => ?_) fun s fault h => ?_
  · rw [commit_of_ok h]
    exact ⟨rfl, rfl⟩
  · rw [commit_of_error h]
    exact ⟨rfl, rfl⟩

/-- What is staged before the set is touched is committed as a whole, or nothing is. -/
theorem adds_of_staged {staging : Traced SelectionError (List DataObject)} {batch : List DataObject}
    (h : ∀ staged, staging.result = .ok staged → staged = batch) :
    (ofTraced staging >>= commit).Adds batch := by
  intro s
  cases hr : staging.result with
  | error e =>
    rw [bind_of_error (x := ofTraced staging) hr]
    exact .inr ⟨e, rfl, rfl⟩
  | ok staged =>
    rw [bind_of_ok (x := ofTraced staging) hr, ← h staged hr]
    exact adds_commit staged s

end DeviceLibs.Edit
