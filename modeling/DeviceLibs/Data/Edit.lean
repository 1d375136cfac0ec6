import DeviceLibs.Data.Set

/-!
# Changing a set in place

An edit works on a set and leaves a set behind, also when it fails. That an error leaves the set as it
was is not given: it holds because room is reserved before anything is added. Hence a batch is added
as a whole or not at all.
-/

namespace DeviceLibs

/-- What an edit leaves behind. -/
structure Edited (α : Type) where
  set : DataSet
  events : List Event
  result : Except SelectionError α

def Edit (α : Type) : Type := DataSet → Edited α

namespace Edit

variable {α β : Type}

/-- An error stops an edit where it is; what was done before it stays done. -/
instance : Monad Edit where
  pure a := fun s => ⟨s, [], .ok a⟩
  bind x f := fun s =>
    match x s with
    | ⟨s', events, .error e⟩ => ⟨s', events, .error e⟩
    | ⟨s', events, .ok a⟩ =>
      let rest := f a s'
      ⟨rest.set, events ++ rest.events, rest.result⟩

/-- Work that does not touch the set. -/
def ofTraced (x : Traced SelectionError α) : Edit α := fun s => ⟨s, x.events, x.result⟩

def size : Edit Nat := fun s => ⟨s, [], .ok s.size⟩

/-- Puts `objects` behind those of the set, whatever its limit. -/
def extend (objects : List DataObject) : Edit Unit := fun s => ⟨s.append objects, [], .ok ()⟩

/-- Reserves room for `additional` more objects. -/
def reserve (additional : Nat) : Edit Unit := fun s =>
  ⟨s, [], (s.room additional).mapError .outOfResources⟩

def insert (object : DataObject) : Edit Unit := do
  reserve 1
  extend [object]

/-- Adds all of `objects`, in order, or none of them. -/
def commit (objects : List DataObject) : Edit Unit := do
  reserve objects.length
  let count ← size
  ofTraced (.emit (.committedObjects objects.length (count + objects.length)))
  extend objects

/-- The set that an edit makes of the empty one. The memory for it is taken for granted. -/
def build (x : Edit Unit) : Traced SelectionError DataSet :=
  let edited := x .empty
  ⟨edited.events, edited.result.map fun _ => edited.set⟩

section

variable {s : DataSet} {fault : ResourceFault}

theorem bind_of_ok {x : Edit α} {a : α} (h : (x s).result = .ok a) (f : α → Edit β) :
    (x >>= f) s = ⟨(f a (x s).set).set, (x s).events ++ (f a (x s).set).events,
      (f a (x s).set).result⟩ := by
  show (match x s with | ⟨s', events, .error e⟩ => _ | ⟨s', events, .ok a⟩ => _) = _
  generalize x s = y at h
  cases y with | mk set events result => cases h; rfl

theorem bind_of_error {x : Edit α} {e : SelectionError} (h : (x s).result = .error e)
    (f : α → Edit β) : (x >>= f) s = ⟨(x s).set, (x s).events, .error e⟩ := by
  show (match x s with | ⟨s', events, .error e⟩ => _ | ⟨s', events, .ok a⟩ => _) = _
  generalize x s = y at h
  cases y with | mk set events result => cases h; rfl

theorem reserve_of_ok {additional : Nat} (h : s.room additional = .ok ()) :
    reserve additional s = ⟨s, [], .ok ()⟩ := by
  rw [reserve, h]
  rfl

theorem reserve_of_error {additional : Nat} (h : s.room additional = .error fault) :
    reserve additional s = ⟨s, [], .error (.outOfResources fault)⟩ := by
  rw [reserve, h]
  rfl

theorem insert_of_ok (h : s.room 1 = .ok ()) (object : DataObject) :
    insert object s = ⟨s.append [object], [], .ok ()⟩ := by
  have hr := reserve_of_ok h
  rw [insert, bind_of_ok (a := ()) (by rw [hr]), hr]
  rfl

theorem insert_of_error (h : s.room 1 = .error fault) (object : DataObject) :
    insert object s = ⟨s, [], .error (.outOfResources fault)⟩ := by
  have hr := reserve_of_error h
  rw [insert, bind_of_error (by rw [hr]), hr]

theorem commit_of_ok {objects : List DataObject} (h : s.room objects.length = .ok ()) :
    commit objects s = ⟨s.append objects,
      [.committedObjects objects.length (s.size + objects.length)], .ok ()⟩ := by
  have hr := reserve_of_ok h
  rw [commit, bind_of_ok (a := ()) (by rw [hr]), hr]
  rfl

theorem commit_of_error {objects : List DataObject} (h : s.room objects.length = .error fault) :
    commit objects s = ⟨s, [], .error (.outOfResources fault)⟩ := by
  have hr := reserve_of_error h
  rw [commit, bind_of_error (by rw [hr]), hr]

end

end Edit

end DeviceLibs
