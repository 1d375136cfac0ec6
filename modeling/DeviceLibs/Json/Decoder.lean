import DeviceLibs.Json.Skip

/-!
# Decoders

A decoder reads one value of a type off the start of a text and leaves a shorter text. There are
decoders for strings, truth values and numbers of 32 bits, and for lists of what another decoder reads.
`decode` wants the whole text to be one value, with blanks around it.
-/

namespace DeviceLibs.Json

structure Decoder (α : Type) where
  read : List Char → Except Fault (α × List Char)
  shorter : ∀ {cs a rest}, read cs = .ok (a, rest) → rest.length < cs.length

/-- Decodes a text that is one value. -/
def decode {α : Type} (d : Decoder α) (text : String) : Except Fault α := do
  let (a, rest) ← d.read text.toList
  if skipBlanks rest = [] then return a else throw .malformed

/-- What is wrong with the value at the start of the text when one of type `expected` is due. It is read
as far as it takes to tell its own type. -/
def wrongType (expected : String) (cs : List Char) : Fault :=
  let found (f : Found) : Fault := .mismatch (.wrongType f expected)
  let word (w cs : List Char) (f : Found) : Fault :=
    match readWord w cs with
    | .ok _ => found f
    | .error e => e
  match cs with
  | [] => .ended
  | 'n' :: cs => word ['u', 'l', 'l'] cs .null
  | 't' :: cs => word ['r', 'u', 'e'] cs (.boolean true)
  | 'f' :: cs => word ['a', 'l', 's', 'e'] cs (.boolean false)
  | '[' :: _ => found .sequence
  | '\x7b' :: _ => found .map
  | '"' :: cs =>
    match readString cs with
    | .ok (s, _) => found (.text (.ofList s))
    | .error e => e
  | c :: cs =>
    if c = '-' ∨ c.isDigit then
      match readNumber (c :: cs) with
      | .ok (.integer n, _) => found (.integer n)
      | .ok (.float negative x, _) => found (.float negative x)
      | .error e => e
    else .malformed

namespace Decoder

/-- Reads what `d` reads and applies `f` to it. -/
def map {α β : Type} (f : α → β) (d : Decoder α) : Decoder β where
  read cs := (d.read cs).map fun p => (f p.1, p.2)
  shorter {cs b rest} h := by
    cases hd : d.read cs with
    | error e => rw [hd] at h; cases h
    | ok p => rw [hd] at h; cases h; exact d.shorter (a := p.1) hd

def readText (cs : List Char) : Except Fault (String × List Char) :=
  match skipBlanks cs with
  | '"' :: rest => (readString rest).map fun p => (.ofList p.1, p.2)
  | cs => .error (wrongType "a string" cs)

theorem length_of_readText {s : String} {cs rest : List Char}
    (h : readText cs = .ok (s, rest)) : rest.length < cs.length := by
  have hle := length_skipBlanks_le cs
  unfold readText at h
  split at h
  next rest' hcs =>
    rw [hcs] at hle
    cases hs : readString rest' with
    | error f => rw [hs] at h; cases h
    | ok p =>
      rw [hs] at h
      cases h
      have := length_of_readString hs
      simp only [List.length_cons] at hle
      omega
  · cases h

def string : Decoder String := ⟨readText, length_of_readText⟩

def readBoolean (cs : List Char) : Except Fault (Bool × List Char) :=
  match skipBlanks cs with
  | 't' :: rest => (readWord ['r', 'u', 'e'] rest).map (true, ·)
  | 'f' :: rest => (readWord ['a', 'l', 's', 'e'] rest).map (false, ·)
  | cs => .error (wrongType "a boolean" cs)

theorem length_of_readBoolean {b : Bool} {cs rest : List Char}
    (h : readBoolean cs = .ok (b, rest)) : rest.length < cs.length := by
  have hle := length_skipBlanks_le cs
  unfold readBoolean at h
  split at h
  next rest' hcs =>
    rw [hcs] at hle
    cases hs : readWord ['r', 'u', 'e'] rest' with
    | error f => rw [hs] at h; cases h
    | ok r =>
      rw [hs] at h
      cases h
      have := length_of_readWord hs
      simp only [List.length_cons] at hle
      omega
  next rest' hcs =>
    rw [hcs] at hle
    cases hs : readWord ['a', 'l', 's', 'e'] rest' with
    | error f => rw [hs] at h; cases h
    | ok r =>
      rw [hs] at h
      cases h
      have := length_of_readWord hs
      simp only [List.length_cons] at hle
      omega
  · cases h

def boolean : Decoder Bool := ⟨readBoolean, length_of_readBoolean⟩

/-- The number, if it is a whole number of 32 bits. -/
def toUInt32 : Number → Except Fault UInt32
  | .integer n =>
    if 0 ≤ n ∧ n.toNat < UInt32.size then .ok (.ofNat n.toNat) else .error (.mismatch (.outOfRange n "u32"))
  | .float negative x => .error (.mismatch (.wrongType (.float negative x) "u32"))

def readUInt32 (cs : List Char) : Except Fault (UInt32 × List Char) :=
  let cs := skipBlanks cs
  if (cs.head?.map fun c => c = '-' || c.isDigit).getD false then do
    let (n, rest) ← readNumber cs
    return (← toUInt32 n, rest)
  else .error (wrongType "u32" cs)

theorem length_of_readUInt32 {v : UInt32} {cs rest : List Char}
    (h : readUInt32 cs = .ok (v, rest)) : rest.length < cs.length := by
  have hle := length_skipBlanks_le cs
  unfold readUInt32 at h
  simp only at h
  split at h
  · cases hn : readNumber (skipBlanks cs) with
    | error f => rw [hn] at h; cases h
    | ok p =>
      have := length_of_readNumber hn
      rw [hn] at h
      cases hv : toUInt32 p.1 with
      | error f => simp [bind, Except.bind, hv] at h
      | ok v =>
        simp only [bind, Except.bind, hv, pure, Except.pure, Except.ok.injEq, Prod.mk.injEq] at h
        obtain ⟨-, rfl⟩ := h
        omega
  · cases h

def uint32 : Decoder UInt32 := ⟨readUInt32, length_of_readUInt32⟩

/-! ## Lists -/

variable {α : Type}

/-- Reads elements with commas between them, up to the closing bracket. -/
def readElements (d : Decoder α) (cs : List Char) : Except Fault (List α × List Char) :=
  match _h : d.read cs with
  | .error f => .error f
  | .ok (a, rest) =>
    match _hb : skipBlanks rest with
    | [] => .error .ended
    | ',' :: rest' => (readElements d rest').map fun p => (a :: p.1, p.2)
    | ']' :: rest' => .ok ([a], rest')
    | _ => .error .malformed
termination_by cs.length
decreasing_by
  have h1 := d.shorter _h
  have h2 := length_skipBlanks_le rest
  rw [_hb] at h2
  simp only [List.length_cons] at h2
  omega

theorem length_of_readElements {d : Decoder α} {cs rest : List Char} {l : List α}
    (h : readElements d cs = .ok (l, rest)) : rest.length < cs.length := by
  fun_induction readElements d cs generalizing l with
  | case1 => cases h
  | case2 => cases h
  | case3 cs a r ha r' hb ih =>
    have h1 := d.shorter ha
    have h2 := length_skipBlanks_le r
    rw [hb] at h2
    simp only [List.length_cons] at h2
    cases hs : readElements d r' with
    | error f => rw [hs] at h; cases h
    | ok p =>
      rw [hs] at h
      simp only [Except.map, Except.ok.injEq, Prod.mk.injEq] at h
      have := ih (l := p.1) (by rw [hs, ← h.2])
      omega
  | case4 cs a r ha r' hb =>
    have h1 := d.shorter ha
    have h2 := length_skipBlanks_le r
    rw [hb] at h2
    simp only [List.length_cons] at h2
    cases h
    omega
  | case5 => cases h

def readList (d : Decoder α) (cs : List Char) : Except Fault (List α × List Char) :=
  match skipBlanks cs with
  | '[' :: rest =>
    match skipBlanks rest with
    | ']' :: rest' => .ok ([], rest')
    | _ => readElements d rest
  | cs => .error (wrongType "a sequence" cs)

theorem length_of_readList {d : Decoder α} {cs rest : List Char} {l : List α}
    (h : readList d cs = .ok (l, rest)) : rest.length < cs.length := by
  have hle := length_skipBlanks_le cs
  unfold readList at h
  split at h
  next rest' hcs =>
    rw [hcs] at hle
    simp only [List.length_cons] at hle
    have hle' := length_skipBlanks_le rest'
    split at h
    next rest'' hb =>
      rw [hb] at hle'
      simp only [List.length_cons] at hle'
      cases h
      omega
    · have := length_of_readElements h
      omega
  · cases h

def list (d : Decoder α) : Decoder (List α) := ⟨readList d, length_of_readList⟩

end Decoder

end DeviceLibs.Json
