import DeviceLibs.Json.Number

/-!
# Skipping a value

A value that nobody asked for is checked and passed over, at any depth of nesting. `step` takes one
token at a time; beside the text it knows the brackets that are open and what is due next. Numbers may
be of any size here, and halves of surrogate pairs may stand alone.
-/

namespace DeviceLibs.Json

inductive Bracket where
  | list
  | object
  deriving DecidableEq, Repr

/-- What the next token has to be. -/
inductive Due where
  | value
  /-- A value, or the end of a list that has none. -/
  | valueOrEnd
  | key
  /-- A key, or the end of an object that has none. -/
  | keyOrEnd
  /-- A comma or the closing bracket, behind a value. -/
  | separator
  deriving DecidableEq, Repr

/-- The brackets open after a token, what is due, the rest of the text. -/
abbrev Progress := List Bracket × Due × List Char

def skipEscape : List Char → Except Fault (List Char)
  | [] => .error .ended
  | 'u' :: cs => (readHex cs).map (·.2)
  | c :: cs => if (simpleEscape? c).isSome then .ok cs else .error .malformed

theorem length_of_skipEscape {cs rest : List Char} (h : skipEscape cs = .ok rest) :
    rest.length < cs.length := by
  unfold skipEscape at h
  split at h
  · cases h
  · next cs' =>
    cases hx : readHex cs' with
    | error f => rw [hx] at h; cases h
    | ok p =>
      rw [hx] at h
      cases h
      have := length_of_readHex hx
      simp only [List.length_cons]
      omega
  · split at h
    · cases h; simp
    · cases h

/-- Passes over a string from behind its opening quote. -/
def skipString (cs : List Char) : Except Fault (List Char) :=
  match cs with
  | [] => .error .ended
  | '"' :: rest => .ok rest
  | '\\' :: rest =>
    match _h : skipEscape rest with
    | .error f => .error f
    | .ok rest' => skipString rest'
  | c :: rest => if c < ' ' then .error .malformed else skipString rest
termination_by cs.length
decreasing_by
  · have := length_of_skipEscape ‹_›
    simp only [List.length_cons]
    omega
  · simp

theorem length_of_skipString {cs rest : List Char} (h : skipString cs = .ok rest) :
    rest.length < cs.length := by
  fun_induction skipString cs with
  | case1 => cases h
  | case2 => cases h; simp
  | case3 => cases h
  | case4 rest' cs' hc ih =>
    have h1 := ih h
    have h2 := length_of_skipEscape hc
    simp only [List.length_cons]
    omega
  | case5 => cases h
  | case6 c rest' _ _ _ ih =>
    have h1 := ih h
    simp only [List.length_cons]
    omega

/-- Passes over a number; where its text ends too early it is no number. -/
def skipNumber (cs : List Char) : Except Fault (List Char) :=
  match readNumeral cs with
  | .ok (_, rest) => .ok rest
  | .error _ => .error .malformed

/-- Passes over a value that is no list and no object. -/
def skipScalar (cs : List Char) : Except Fault (List Char) :=
  match cs with
  | [] => .error .ended
  | 'n' :: cs => readWord ['u', 'l', 'l'] cs
  | 't' :: cs => readWord ['r', 'u', 'e'] cs
  | 'f' :: cs => readWord ['a', 'l', 's', 'e'] cs
  | '"' :: cs => skipString cs
  | '-' :: cs => skipNumber cs
  | c :: cs => if c.isDigit then skipNumber (c :: cs) else .error .malformed

theorem length_of_skipNumber {cs rest : List Char} (h : skipNumber cs = .ok rest) :
    rest.length < cs.length := by
  unfold skipNumber at h
  split at h
  next n r hr => cases h; exact length_of_readNumeral hr
  · cases h

theorem length_of_skipScalar {cs rest : List Char} (h : skipScalar cs = .ok rest) :
    rest.length < cs.length := by
  unfold skipScalar at h
  split at h
  · cases h
  · have := length_of_readWord h; simp only [List.length_cons]; omega
  · have := length_of_readWord h; simp only [List.length_cons]; omega
  · have := length_of_readWord h; simp only [List.length_cons]; omega
  · have := length_of_skipString h; simp only [List.length_cons]; omega
  · have := length_of_skipNumber h; simp only [List.length_cons]; omega
  · split at h
    · exact length_of_skipNumber h
    · cases h

/-- The colon that stands between a key and its value. -/
def readColon (cs : List Char) : Except Fault (List Char) :=
  match skipBlanks cs with
  | [] => .error .ended
  | ':' :: rest => .ok rest
  | _ => .error .malformed

theorem length_of_readColon {cs rest : List Char} (h : readColon cs = .ok rest) :
    rest.length < cs.length := by
  have hle := length_skipBlanks_le cs
  unfold readColon at h
  split at h
  · cases h
  · next hcs => cases h; rw [hcs] at hle; simp only [List.length_cons] at hle; omega
  · cases h

/-- A value, or the bracket that opens one. -/
def stepValue (opened : List Bracket) (cs : List Char) : Except Fault Progress :=
  match cs with
  | '[' :: rest => .ok (.list :: opened, .valueOrEnd, rest)
  | '\x7b' :: rest => .ok (.object :: opened, .keyOrEnd, rest)
  | cs => (skipScalar cs).map fun rest => (opened, .separator, rest)

/-- A key with its colon. -/
def stepKey (opened : List Bracket) (cs : List Char) : Except Fault Progress :=
  match cs with
  | [] => .error .ended
  | '"' :: cs => do
    let rest ← skipString cs
    let rest ← readColon rest
    return (opened, .value, rest)
  | _ => .error .malformed

/-- A comma, or the bracket that closes the innermost open one. -/
def stepSeparator (opened : List Bracket) (cs : List Char) : Except Fault Progress :=
  match opened, cs with
  | _, [] => .error .ended
  | .list :: _, ',' :: rest => .ok (opened, .value, rest)
  | .object :: _, ',' :: rest => .ok (opened, .key, rest)
  | .list :: outer, ']' :: rest => .ok (outer, .separator, rest)
  | .object :: outer, '\x7d' :: rest => .ok (outer, .separator, rest)
  | _, _ => .error .malformed

/-- One token, from its first character on. -/
def step (opened : List Bracket) (due : Due) (cs : List Char) : Except Fault Progress :=
  match due with
  | .value => stepValue opened cs
  | .valueOrEnd =>
    match cs with
    | ']' :: rest => .ok (opened.tail, .separator, rest)
    | cs => stepValue opened cs
  | .key => stepKey opened cs
  | .keyOrEnd =>
    match cs with
    | '\x7d' :: rest => .ok (opened.tail, .separator, rest)
    | cs => stepKey opened cs
  | .separator => stepSeparator opened cs

theorem length_of_stepValue {opened : List Bracket} {cs : List Char} {p : Progress}
    (h : stepValue opened cs = .ok p) : p.2.2.length < cs.length := by
  unfold stepValue at h
  split at h
  · cases h; simp
  · cases h; simp
  · cases hs : skipScalar cs with
    | error f => rw [hs] at h; cases h
    | ok rest => rw [hs] at h; cases h; exact length_of_skipScalar hs

theorem length_of_stepKey {opened : List Bracket} {cs : List Char} {p : Progress}
    (h : stepKey opened cs = .ok p) : p.2.2.length < cs.length := by
  unfold stepKey at h
  split at h
  · cases h
  · simp only [bind, Except.bind] at h
    split at h
    · cases h
    next rest hs =>
      split at h
      · cases h
      next rest' hc =>
        cases h
        have h1 := length_of_skipString hs
        have h2 := length_of_readColon hc
        simp only [List.length_cons]
        omega
  · cases h

theorem length_of_stepSeparator {opened : List Bracket} {cs : List Char} {p : Progress}
    (h : stepSeparator opened cs = .ok p) : p.2.2.length < cs.length := by
  unfold stepSeparator at h
  split at h <;> cases h <;> simp

theorem length_of_step {opened : List Bracket} {due : Due} {cs : List Char} {p : Progress}
    (h : step opened due cs = .ok p) : p.2.2.length < cs.length := by
  unfold step at h
  split at h
  · exact length_of_stepValue h
  · split at h
    · cases h; simp
    · exact length_of_stepValue h
  · exact length_of_stepKey h
  · split at h
    · cases h; simp
    · exact length_of_stepKey h
  · exact length_of_stepSeparator h

/-- Takes tokens until every bracket is closed and a value has been passed. -/
def skipFrom (opened : List Bracket) (due : Due) (cs : List Char) : Except Fault (List Char) :=
  if opened = [] ∧ due = .separator then .ok cs
  else
    match _h : step opened due (skipBlanks cs) with
    | .error f => .error f
    | .ok p => skipFrom p.1 p.2.1 p.2.2
termination_by cs.length
decreasing_by
  have h1 := length_of_step ‹_›
  have h2 := length_skipBlanks_le cs
  omega

/-- Passes over one value. -/
def skipValue (cs : List Char) : Except Fault (List Char) := skipFrom [] .value cs

theorem length_of_skipFrom {opened : List Bracket} {due : Due} {cs rest : List Char}
    (h : skipFrom opened due cs = .ok rest) : rest.length ≤ cs.length := by
  fun_induction skipFrom opened due cs with
  | case1 => cases h; simp
  | case2 => cases h
  | case3 opened due cs _ p hp ih =>
    have h1 := ih h
    have h2 := length_of_step hp
    have h3 := length_skipBlanks_le cs
    omega

theorem length_of_skipValue {cs rest : List Char} (h : skipValue cs = .ok rest) :
    rest.length < cs.length := by
  rw [skipValue, skipFrom] at h
  simp only [reduceCtorEq, and_false, if_false] at h
  split at h
  · cases h
  next p hp =>
    have h1 := length_of_skipFrom h
    have h2 := length_of_step hp
    have h3 := length_skipBlanks_le cs
    omega

end DeviceLibs.Json
