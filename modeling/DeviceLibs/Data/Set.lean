import DeviceLibs.Error
import DeviceLibs.Trace

/-!
# Data sets

A data set keeps objects in the order in which they were added. It may be limited to a number of
objects, and the memory for them is limited too.
-/

namespace DeviceLibs

namespace DataSet

/-- Counts are 64 bits wide: none is this large. -/
def countBound : Nat := UInt64.size

/-- Bytes that the set itself keeps for an object, its data apart. -/
def objectBytes : Nat := 56

/-- No block of memory has this many bytes. -/
def blockBound : Nat := 1 <<< 63

end DataSet

structure DataSet where
  objects : List DataObject := []
  /-- How many objects the set may hold, if that is limited. -/
  limit : Option Nat := none
  /-- The allocator, as far as a set meets it: the most bytes that are granted for the objects. Without
  more being said these are all that a block can have. -/
  memory : Nat := DataSet.blockBound
  deriving DecidableEq

namespace DataSet

/-- The empty set without a limit. -/
def empty : DataSet := {}

def withLimit (limit : Nat) : DataSet := { limit := some limit }

def size (s : DataSet) : Nat := s.objects.length

/-- Whether memory can be had when the set grows by `additional` objects. -/
def grow (s : DataSet) (additional : Nat) : Except ResourceFault Unit :=
  let size := s.size + additional
  if countBound ≤ size ∨ blockBound ≤ size * objectBytes then .error (.capacityOverflow additional)
  else if s.memory < size * objectBytes then .error (.outOfMemory additional)
  else .ok ()

/-- Whether the set has room for `additional` more objects. The limit is looked at first, against a
count that stops at the largest there is. -/
def room (s : DataSet) (additional : Nat) : Except ResourceFault Unit :=
  let requested := min (s.size + additional) (countBound - 1)
  match s.limit with
  | some limit =>
    if limit < requested then .error (.limitExceeded limit requested)
    else s.grow additional
  | none => s.grow additional

/-- The set with `objects` behind its own. -/
def append (s : DataSet) (objects : List DataObject) : DataSet :=
  { s with objects := s.objects ++ objects }

def get? (s : DataSet) (index : Nat) : Option DataObject := s.objects[index]?

/-- The first object of that name. -/
def find? (s : DataSet) (name : String) : Option DataObject := s.objects.find? (·.name = name)

def countKind (s : DataSet) (kind : DataKind) : Nat := s.objects.countP (·.kind = kind)

def names (s : DataSet) : List String := s.objects.map (·.name)

@[simp] theorem append_nil (s : DataSet) : s.append [] = s := by simp [append]

@[simp] theorem size_append (s : DataSet) (objects : List DataObject) :
    (s.append objects).size = s.size + objects.length := by simp [append, size]

@[simp] theorem limit_append (s : DataSet) (objects : List DataObject) :
    (s.append objects).limit = s.limit := rfl

end DataSet

end DeviceLibs
