import DeviceLibs.Json.Decoder

/-!
# Records

A record is an object whose keys are the names of its fields, in any order; keys that are no field are
passed over with their values. It may also be a list of the values of the fields in order. While a
record is read, a draft of type `σ` holds the fields found so far.
-/

namespace DeviceLibs.Json.Decoder

variable {σ α : Type}

structure Field (σ : Type) where
  name : String
  /-- Whether the draft has a value for the field. -/
  isSet : σ → Bool
  /-- Reads a value for the field and puts it into the draft. -/
  value : σ → Decoder σ
  /-- Whether the record is complete without the field. -/
  optional : Bool := false

/-- The field whose value `d` reads and `put` puts into the draft. -/
def Field.of (name : String) (isSet : σ → Bool) (d : Decoder α) (put : σ → α → σ)
    (optional : Bool := false) : Field σ where
  name := name
  isSet := isSet
  value draft := d.map (put draft)
  optional := optional

structure Record (σ α : Type) where
  name : String
  fields : List (Field σ)
  /-- The draft of a record without fields. -/
  empty : σ
  /-- The record of a draft, or the first field that it lacks. -/
  complete : σ → Except String α

namespace Record

def typeName (r : Record σ α) : String := s!"struct {r.name}"

def lengthName (r : Record σ α) : String :=
  s!"struct {r.name} with {r.fields.length} elements"

def finish (r : Record σ α) (draft : σ) : Except Fault α :=
  (r.complete draft).mapError fun field => .mismatch (.missingField field)

/-- Reads the value behind a key. A field that is there already is not read again. -/
def readMember (r : Record σ α) (draft : σ) (key : String) (cs : List Char) :
    Except Fault (σ × List Char) :=
  match r.fields.find? (·.name = key) with
  | none => do
    let cs ← readColon cs
    let rest ← skipValue cs
    return (draft, rest)
  | some field =>
    if field.isSet draft then .error (.mismatch (.duplicateField key))
    else do
      let cs ← readColon cs
      (field.value draft).read cs

theorem length_of_readMember {r : Record σ α} {draft draft' : σ} {key : String}
    {cs rest : List Char} (h : r.readMember draft key cs = .ok (draft', rest)) :
    rest.length < cs.length := by
  unfold readMember at h
  split at h
  · simp only [bind, Except.bind] at h
    split at h
    · cases h
    next cs' hc =>
      have h1 := length_of_readColon hc
      split at h
      · cases h
      next rest' hs =>
        have h2 := length_of_skipValue hs
        cases h
        omega
  · split at h
    · cases h
    · simp only [bind, Except.bind] at h
      split at h
      · cases h
      next cs' hc =>
        have h1 := length_of_readColon hc
        have h2 := Decoder.shorter _ h
        omega

/-- Reads members with commas between them, up to the closing bracket. -/
def readMembers (r : Record σ α) (draft : σ) (cs : List Char) : Except Fault (σ × List Char) :=
  match _hq : skipBlanks cs with
  | [] => .error .ended
  | '"' :: cs' =>
    match _hk : readString cs' with
    | .error f => .error f
    | .ok (key, cs'') =>
      match _hm : r.readMember draft (.ofList key) cs'' with
      | .error f => .error f
      | .ok (draft', rest) =>
        match _hb : skipBlanks rest with
        | [] => .error .ended
        | ',' :: rest' => readMembers r draft' rest'
        | '\x7d' :: rest' => .ok (draft', rest')
        | _ => .error .malformed
  | _ => .error .malformed
termination_by cs.length
decreasing_by
  have h1 := length_skipBlanks_le cs
  have h2 := length_of_readString _hk
  have h3 := length_of_readMember _hm
  have h4 := length_skipBlanks_le rest
  rw [_hq] at h1
  rw [_hb] at h4
  simp only [List.length_cons] at h1 h4
  omega

theorem length_of_readMembers {r : Record σ α} {draft draft' : σ} {cs rest : List Char}
    (h : r.readMembers draft cs = .ok (draft', rest)) : rest.length < cs.length := by
  fun_induction readMembers r draft cs with
  | case1 => cases h
  | case2 => cases h
  | case3 => cases h
  | case4 => cases h
  | case5 draft cs cs' hq key cs'' hk d r' hm rest' hb ih =>
    have h1 := length_skipBlanks_le cs
    have h2 := length_of_readString hk
    have h3 := length_of_readMember hm
    have h4 := length_skipBlanks_le r'
    have h5 := ih h
    rw [hq] at h1
    rw [hb] at h4
    simp only [List.length_cons] at h1 h4
    omega
  | case6 draft cs cs' hq key cs'' hk d r' hm rest' hb =>
    have h1 := length_skipBlanks_le cs
    have h2 := length_of_readString hk
    have h3 := length_of_readMember hm
    have h4 := length_skipBlanks_le r'
    rw [hq] at h1
    rw [hb] at h4
    simp only [List.length_cons] at h1 h4
    cases h
    omega
  | case7 => cases h
  | case8 => cases h

def readObject (r : Record σ α) (cs : List Char) : Except Fault (α × List Char) :=
  match skipBlanks cs with
  | '\x7d' :: rest => (r.finish r.empty).map (·, rest)
  | _ => do
    let (draft, rest) ← r.readMembers r.empty cs
    return (← r.finish draft, rest)

/-- Reads the values of fields in order. Optional fields at the end may be missing. -/
def readPositions (r : Record σ α) (draft : σ) (cs : List Char) (index : Nat) :
    List (Field σ) → Except Fault (σ × List Char)
  | [] => .ok (draft, cs)
  | field :: fields =>
    match skipBlanks cs with
    | [] => .error .ended
    | ']' :: rest =>
      if field.optional then r.readPositions draft (']' :: rest) (index + 1) fields
      else .error (.mismatch (.wrongLength index r.lengthName))
    | c :: rest =>
      if index = 0 then do
        let (draft, rest) ← (field.value draft).read (c :: rest)
        r.readPositions draft rest (index + 1) fields
      else if c = ',' then do
        let (draft, rest) ← (field.value draft).read rest
        r.readPositions draft rest (index + 1) fields
      else .error .malformed

theorem length_of_readPositions {r : Record σ α} {draft draft' : σ} {cs rest : List Char}
    {index : Nat} {fields : List (Field σ)}
    (h : r.readPositions draft cs index fields = .ok (draft', rest)) :
    rest.length ≤ cs.length := by
  induction fields generalizing draft cs index with
  | nil => cases h; simp
  | cons field fields ih =>
    have hle := length_skipBlanks_le cs
    unfold readPositions at h
    split at h
    · cases h
    next hcs =>
      rw [hcs] at hle
      split at h
      · exact Nat.le_trans (ih h) hle
      · cases h
    next hcs =>
      rw [hcs] at hle
      simp only [List.length_cons] at hle
      split at h
      · simp only [bind, Except.bind] at h
        split at h
        · cases h
        next p hp =>
          have h1 := Decoder.shorter _ hp
          have h2 := ih h
          simp only [List.length_cons] at h1
          omega
      · split at h
        · simp only [bind, Except.bind] at h
          split at h
          · cases h
          next p hp =>
            have h1 := Decoder.shorter _ hp
            have h2 := ih h
            omega
        · cases h

def readArray (r : Record σ α) (cs : List Char) : Except Fault (α × List Char) := do
  let (draft, rest) ← r.readPositions r.empty cs 0 r.fields
  let a ← r.finish draft
  match skipBlanks rest with
  | [] => throw .ended
  | ']' :: rest => return (a, rest)
  | _ => throw .malformed

def read (r : Record σ α) (cs : List Char) : Except Fault (α × List Char) :=
  match skipBlanks cs with
  | '\x7b' :: rest => r.readObject rest
  | '[' :: rest => r.readArray rest
  | cs => .error (wrongType r.typeName cs)

theorem length_of_readObject {r : Record σ α} {a : α} {cs rest : List Char}
    (h : r.readObject cs = .ok (a, rest)) : rest.length < cs.length := by
  have hle := length_skipBlanks_le cs
  unfold readObject at h
  split at h
  next rest' hcs =>
    rw [hcs] at hle
    simp only [List.length_cons] at hle
    cases hf : r.finish r.empty with
    | error f => rw [hf] at h; cases h
    | ok a' => rw [hf] at h; cases h; omega
  · simp only [bind, Except.bind] at h
    split at h
    · cases h
    next p hp =>
      have h1 := length_of_readMembers hp
      split at h
      · cases h
      · cases h; omega

theorem length_of_readArray {r : Record σ α} {a : α} {cs rest : List Char}
    (h : r.readArray cs = .ok (a, rest)) : rest.length < cs.length := by
  unfold readArray at h
  simp only [bind, Except.bind] at h
  split at h
  · cases h
  next p hp =>
    have h1 := length_of_readPositions hp
    have h2 := length_skipBlanks_le p.2
    split at h
    · cases h
    · split at h
      · cases h
      next hb =>
        rw [hb] at h2
        simp only [List.length_cons] at h2
        cases h
        omega
      · cases h

theorem length_of_read {r : Record σ α} {a : α} {cs rest : List Char}
    (h : r.read cs = .ok (a, rest)) : rest.length < cs.length := by
  have hle := length_skipBlanks_le cs
  unfold read at h
  split at h
  next hcs =>
    rw [hcs] at hle
    have := length_of_readObject h
    simp only [List.length_cons] at hle
    omega
  next hcs =>
    rw [hcs] at hle
    have := length_of_readArray h
    simp only [List.length_cons] at hle
    omega
  · cases h

end Record

def record (r : Record σ α) : Decoder α := ⟨r.read, Record.length_of_read⟩

end DeviceLibs.Json.Decoder
