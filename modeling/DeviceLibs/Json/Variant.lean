import DeviceLibs.Json.Decoder

/-!
# Names of a fixed list

A type with finitely many values is written as the name of the value, a string. It may also be written
as an object whose only key is the name, with `null` behind it.
-/

namespace DeviceLibs.Json.Decoder

variable {α : Type}

/-- The names of the values of a type, and the value of each name. -/
structure Variants (α : Type) where
  names : List String
  ofName? : String → Option α

/-- The names of `all` the values of a type. -/
def Variants.ofNames (all : List α) (name : α → String) : Variants α where
  names := all.map name
  ofName? s := all.find? (name · = s)

def Variants.lookup (v : Variants α) (name : String) : Except Fault α :=
  match v.ofName? name with
  | some a => .ok a
  | none => .error (.mismatch (.unknownVariant name v.names))

/-- The word `null`. -/
def readNull (cs : List Char) : Except Fault (List Char) :=
  match skipBlanks cs with
  | 'n' :: rest => readWord ['u', 'l', 'l'] rest
  | cs => .error (wrongType "unit" cs)

/-- The name as a key. A key is a string: anything else in its place is not JSON, and so malformed rather
than of the wrong type. -/
def readVariantName (cs : List Char) : Except Fault (List Char × List Char) :=
  match skipBlanks cs with
  | [] => .error .ended
  | '"' :: rest => readString rest
  | _ => .error .malformed

/-- Reads a key, a colon, `null` and the closing bracket. -/
def readVariantObject (v : Variants α) (cs : List Char) : Except Fault (α × List Char) := do
  let (name, cs) ← readVariantName cs
  let a ← v.lookup (.ofList name)
  let cs ← readColon cs
  let cs ← readNull cs
  match skipBlanks cs with
  | [] => throw .ended
  | '\x7d' :: rest => return (a, rest)
  | _ => throw .malformed

def readVariant (v : Variants α) (cs : List Char) : Except Fault (α × List Char) :=
  match skipBlanks cs with
  | [] => .error .ended
  | '\x7b' :: rest => readVariantObject v rest
  | '"' :: rest => do
    let (name, rest) ← readString rest
    return (← v.lookup (.ofList name), rest)
  | _ => .error .malformed

theorem length_of_readNull {cs rest : List Char} (h : readNull cs = .ok rest) :
    rest.length < cs.length := by
  have hle := length_skipBlanks_le cs
  unfold readNull at h
  split at h
  next rest' hcs =>
    rw [hcs] at hle
    have := length_of_readWord h
    simp only [List.length_cons] at hle
    omega
  · cases h

theorem length_of_readVariantName {name cs rest : List Char}
    (h : readVariantName cs = .ok (name, rest)) : rest.length < cs.length := by
  have hle := length_skipBlanks_le cs
  unfold readVariantName at h
  split at h
  · cases h
  next rest' hcs =>
    rw [hcs] at hle
    have := length_of_readString h
    simp only [List.length_cons] at hle
    omega
  · cases h

theorem length_of_readVariantObject {v : Variants α} {a : α} {cs rest : List Char}
    (h : readVariantObject v cs = .ok (a, rest)) : rest.length < cs.length := by
  unfold readVariantObject at h
  simp only [bind, Except.bind] at h
  split at h
  · cases h
  next p hp =>
    have h1 := length_of_readVariantName hp
    split at h
    · cases h
    · split at h
      · cases h
      next r hr =>
        have h2 := length_of_readColon hr
        split at h
        · cases h
        next r' hr' =>
          have h3 := length_of_readNull hr'
          have h4 := length_skipBlanks_le r'
          split at h
          · cases h
          next hb =>
            rw [hb] at h4
            simp only [List.length_cons] at h4
            cases h
            omega
          · cases h

theorem length_of_readVariant {v : Variants α} {a : α} {cs rest : List Char}
    (h : readVariant v cs = .ok (a, rest)) : rest.length < cs.length := by
  have hle := length_skipBlanks_le cs
  unfold readVariant at h
  split at h
  · cases h
  next hcs =>
    rw [hcs] at hle
    have := length_of_readVariantObject h
    simp only [List.length_cons] at hle
    omega
  next rest' hcs =>
    rw [hcs] at hle
    simp only [bind, Except.bind] at h
    split at h
    · cases h
    next p hp =>
      have := length_of_readString hp
      split at h
      · cases h
      · cases h
        simp only [List.length_cons] at hle
        omega
  · cases h

def variant (v : Variants α) : Decoder α := ⟨readVariant v, length_of_readVariant⟩

end DeviceLibs.Json.Decoder
