/-!
# Tables of TOML

A document is a table; its items are values, tables and lists of tables. How a table came about decides
what may be added to it: by its own header, on the way to another header, by a dotted key, or as a value
between braces, which is complete.
-/

namespace DeviceLibs.Toml

/-- How a table came about. -/
inductive Origin where
  | header
  | implied
  | dotted
  | braces
  deriving DecidableEq, Repr

inductive Item where
  | string (s : String)
  | integer (n : Int)
  | boolean (b : Bool)
  | float
  | dateTime
  | array (items : List Item)
  | table (origin : Origin) (members : List (String × Item))
  /-- Tables whose headers have double brackets. -/
  | tables (all : List (List (String × Item)))

/-- The items of a table under their keys, in the order in which the keys first appear. -/
abbrev Members := List (String × Item)

namespace Members

def get? (ms : Members) (key : String) : Option Item := ms.lookup key

/-- Puts an item in the place of the one that the key has, or behind all others. -/
def set (ms : Members) (key : String) (item : Item) : Members :=
  if (ms.get? key).isSome then ms.map fun m => if m.1 = key then (key, item) else m
  else ms ++ [(key, item)]

/-- Adds an item under a key that is not there yet. -/
def add (ms : Members) (key : String) (item : Item) : Option Members :=
  if (ms.get? key).isSome then none else some (ms ++ [(key, item)])

/-- Adds an item under a dotted key: `path` leads to its table, `last` is the last part. Tables on the
way are made, or were made by dotted keys or on the way to a header. The last of them was made by a
dotted key, unless there is none. -/
def addDotted (ms : Members) (mayAdd : Bool) (path : List String) (last : String) (item : Item) :
    Option Members :=
  match path with
  | [] => if mayAdd then ms.add last item else none
  | k :: rest =>
    match ms.get? k with
    | none => do return ms.set k (.table .dotted (← addDotted [] true rest last item))
    | some (.table .dotted ms') => do
      return ms.set k (.table .dotted (← addDotted ms' true rest last item))
    | some (.table .implied ms') => do
      return ms.set k (.table .implied (← addDotted ms' false rest last item))
    | some (.tables all) =>
      match all.getLast? with
      | none => none
      | some ms' => do
        return ms.set k (.tables (all.dropLast ++ [← addDotted ms' false rest last item]))
    | some _ => none

/-- Changes the table that the path of a header leads to. Tables on the way are made; of a list of
tables the last one is meant. -/
def alter (ms : Members) (path : List String) (f : Members → Option Members) : Option Members :=
  match path with
  | [] => f ms
  | k :: rest =>
    match ms.get? k with
    | none => do return ms.set k (.table .implied (← alter [] rest f))
    | some (.table .braces _) => none
    | some (.table origin ms') => do return ms.set k (.table origin (← alter ms' rest f))
    | some (.tables all) =>
      match all.getLast? with
      | none => none
      | some ms' => do return ms.set k (.tables (all.dropLast ++ [← alter ms' rest f]))
    | some _ => none

/-- Opens the table of a header. It must not have had one of its own, nor be the work of dotted keys. -/
def openTable (ms : Members) (path : List String) : Option Members :=
  match path.getLast? with
  | none => none
  | some last =>
    ms.alter path.dropLast fun parent =>
      match parent.get? last with
      | none => some (parent.set last (.table .header []))
      | some (.table .implied ms') => some (parent.set last (.table .header ms'))
      | some _ => none

/-- Opens one more table of a list of tables. -/
def openElement (ms : Members) (path : List String) : Option Members :=
  match path.getLast? with
  | none => none
  | some last =>
    ms.alter path.dropLast fun parent =>
      match parent.get? last with
      | none => some (parent.set last (.tables [[]]))
      | some (.tables all) => some (parent.set last (.tables (all ++ [[]])))
      | some _ => none

end Members

end DeviceLibs.Toml
