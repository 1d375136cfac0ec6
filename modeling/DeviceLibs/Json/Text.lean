import DeviceLibs.Json.Fault
import DeviceLibs.Text.Hexadecimal

/-!
# Blanks, words and strings of JSON

The smallest parts of a JSON text. `quote` writes a string and `readString` reads one, from behind its
opening quote. Every reader returns what follows, and that is shorter than what it was given.
-/

namespace DeviceLibs.Json

def isBlank (c : Char) : Bool := c = ' ' || c = '\n' || c = '\t' || c = '\r'

def skipBlanks (cs : List Char) : List Char := cs.dropWhile isBlank

theorem length_skipBlanks_le (cs : List Char) : (skipBlanks cs).length ≤ cs.length :=
  (List.dropWhile_sublist _).length_le

/-- Reads the characters of `word`, one by one. -/
def readWord : List Char → List Char → Except Fault (List Char)
  | [], cs => .ok cs
  | _ :: _, [] => .error .ended
  | w :: word, c :: cs => if c = w then readWord word cs else .error .malformed

theorem length_of_readWord {word cs rest : List Char} (h : readWord word cs = .ok rest) :
    rest.length + word.length = cs.length := by
  induction word generalizing cs with
  | nil => simp only [readWord, Except.ok.injEq] at h; simp [h]
  | cons w word ih =>
    cases cs with
    | nil => simp [readWord] at h
    | cons c cs =>
      rw [readWord] at h
      split at h
      · have := ih h
        simp only [List.length_cons]
        omega
      · cases h

/-! ## Strings -/

/-- A character as it stands between the quotes. Beside the quote and the backslash only the
characters below the space are escaped. -/
def escaped (c : Char) : List Char :=
  match c with
  | '"' => ['\\', '"']
  | '\\' => ['\\', '\\']
  | '\x08' => ['\\', 'b']
  | '\x0c' => ['\\', 'f']
  | '\n' => ['\\', 'n']
  | '\r' => ['\\', 'r']
  | '\t' => ['\\', 't']
  | c =>
    if c < ' ' then ['\\', 'u', '0', '0', (c.toNat / 16).digitChar, (c.toNat % 16).digitChar]
    else [c]

def quoteChars (cs : List Char) : List Char := '"' :: cs.flatMap escaped ++ ['"']

/-- The JSON string that stands for `s`. -/
def quote (s : String) : String := .ofList (quoteChars s.toList)

/-- Reads four hexadecimal digits. They take four bytes: where fewer are left, the text has ended. -/
def readHex : List Char → Except Fault (Nat × List Char)
  | a :: b :: c :: d :: rest =>
    match Text.hexValue? a, Text.hexValue? b, Text.hexValue? c, Text.hexValue? d with
    | some a, some b, some c, some d => .ok (((a * 16 + b) * 16 + c) * 16 + d, rest)
    | _, _, _, _ => .error .malformed
  | cs => .error (if (String.ofList cs).utf8ByteSize < 4 then .ended else .malformed)

theorem length_of_readHex {cs rest : List Char} {n : Nat} (h : readHex cs = .ok (n, rest)) :
    rest.length + 4 = cs.length := by
  unfold readHex at h
  split at h
  · split at h
    · cases h; simp
    · cases h
  · cases h

/-- The character of a surrogate pair. -/
def surrogatePair (high low : Nat) : Char :=
  .ofNat ((high - 0xD800) * 0x400 + (low - 0xDC00) + 0x10000)

/-- Reads the character that `\u` stands for: from four digits, or from twice four that are the halves
of a surrogate pair. Half a pair is not accepted. -/
def readUnicode (cs : List Char) : Except Fault (Char × List Char) := do
  let (n, cs) ← readHex cs
  if 0xDC00 ≤ n ∧ n ≤ 0xDFFF then throw .malformed
  else if n < 0xD800 ∨ 0xDBFF < n then return (.ofNat n, cs)
  else
    let cs ← readWord ['\\', 'u'] cs
    let (n', cs) ← readHex cs
    if n' < 0xDC00 ∨ 0xDFFF < n' then throw .malformed
    return (surrogatePair n n', cs)

/-- The characters of the escapes of two characters. -/
def simpleEscape? : Char → Option Char
  | '"' => some '"'
  | '\\' => some '\\'
  | '/' => some '/'
  | 'b' => some '\x08'
  | 'f' => some '\x0c'
  | 'n' => some '\n'
  | 'r' => some '\r'
  | 't' => some '\t'
  | _ => none

/-- Reads the character that an escape stands for, from behind its backslash. -/
def readEscape : List Char → Except Fault (Char × List Char)
  | [] => .error .ended
  | 'u' :: cs => readUnicode cs
  | c :: cs =>
    match simpleEscape? c with
    | some e => .ok (e, cs)
    | none => .error .malformed

theorem length_of_readUnicode {cs rest : List Char} {c : Char}
    (h : readUnicode cs = .ok (c, rest)) : rest.length < cs.length := by
  simp only [readUnicode, bind, Except.bind] at h
  split at h
  · cases h
  next p hp =>
    have h4 := length_of_readHex hp
    split at h
    · cases h
    · split at h
      · cases h; omega
      · split at h
        · cases h
        next cs' hw =>
          have h2 := length_of_readWord hw
          split at h
          · cases h
          next q hq =>
            have h4' := length_of_readHex hq
            split at h
            · cases h
            · injection h with h
              injection h with _ h
              subst h
              simp only [List.length_cons, List.length_nil] at h2
              omega

theorem length_of_readEscape {cs rest : List Char} {c : Char}
    (h : readEscape cs = .ok (c, rest)) : rest.length < cs.length := by
  unfold readEscape at h
  split at h
  · cases h
  · have := length_of_readUnicode h
    simp only [List.length_cons]
    omega
  · split at h
    · cases h; simp
    · cases h

/-- Reads a string from behind its opening quote. Characters below the space have to be escaped. -/
def readString (cs : List Char) : Except Fault (List Char × List Char) :=
  match cs with
  | [] => .error .ended
  | '"' :: rest => .ok ([], rest)
  | '\\' :: rest =>
    match _h : readEscape rest with
    | .error f => .error f
    | .ok (c, rest') => (readString rest').map fun p => (c :: p.1, p.2)
  | c :: rest =>
    if c < ' ' then .error .malformed else (readString rest).map fun p => (c :: p.1, p.2)
termination_by cs.length
decreasing_by
  · have := length_of_readEscape ‹_›
    simp only [List.length_cons]
    omega
  · simp

theorem length_of_readString {cs s rest : List Char} (h : readString cs = .ok (s, rest)) :
    rest.length < cs.length := by
  fun_induction readString cs generalizing s with
  | case1 => cases h
  | case2 rest' => cases h; simp
  | case3 rest' f hf => cases h
  | case4 rest' c cs' hc ih =>
    cases hs : readString cs' with
    | error f => rw [hs] at h; cases h
    | ok p =>
      rw [hs] at h
      simp only [Except.map, Except.ok.injEq, Prod.mk.injEq] at h
      have h1 := ih (s := p.1) (by rw [hs, ← h.2])
      have h2 := length_of_readEscape hc
      simp only [List.length_cons]
      omega
  | case5 => cases h
  | case6 c rest' hc1 hc2 hc3 ih =>
    cases hs : readString rest' with
    | error f => rw [hs] at h; cases h
    | ok p =>
      rw [hs] at h
      simp only [Except.map, Except.ok.injEq, Prod.mk.injEq] at h
      have h1 := ih (s := p.1) (by rw [hs, ← h.2])
      simp only [List.length_cons]
      omega

end DeviceLibs.Json
