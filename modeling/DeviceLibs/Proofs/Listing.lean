import DeviceLibs.Exchange
import DeviceLibs.Listing
import DeviceLibs.Proofs.Json.Value

/-!
# Listings in JSON

The JSON listing of a set is read back as its entries (`decode_renderJson`). It is read by a decoder
for lists of records, which does not know how a listing is laid out. A decoder that does not know what is
listed takes it for a list of objects with these members in their order (`decode_value_renderJson`); so
sets have the same listing exactly if they have the same names, kinds and sizes.
-/

namespace DeviceLibs

open Json Json.Decoder.Record

namespace Json.Decoder

/-- Reads a number without a sign, a point or an exponent, however large it is. -/
def readNatural (cs : List Char) : Except Fault (Nat × List Char) := do
  let (n, rest) ← readNumeral (skipBlanks cs)
  if n.fraction = [] ∧ n.exponent = none then return (Nat.ofDigitChars 10 n.whole 0, rest)
  else throw .malformed

theorem length_of_readNatural {n : Nat} {cs rest : List Char} (h : readNatural cs = .ok (n, rest)) :
    rest.length < cs.length := by
  have hle := length_skipBlanks_le cs
  simp only [readNatural, bind, Except.bind] at h
  split at h
  · cases h
  next p hp =>
    have hlt := length_of_readNumeral hp
    split at h <;> cases h
    omega

def natural : Decoder Nat := ⟨readNatural, length_of_readNatural⟩

end Json.Decoder

/-! ### Lines -/

theorem Json.cons_intercalate (c sep : Char) {texts : List (List Char)} (hne : texts ≠ []) :
    c :: [sep, c].intercalate texts = [sep].intercalate (texts.map (c :: ·)) := by
  induction texts with
  | nil => exact absurd rfl hne
  | cons text texts ih =>
    cases texts with
    | nil => simp
    | cons text' texts' =>
      have hrest := ih (List.cons_ne_nil _ _)
      rw [List.map_cons] at hrest
      rw [List.intercalate_cons_cons, List.map_cons, List.map_cons, List.intercalate_cons_cons,
        ← hrest]
      simp

theorem Json.toList_lines {parts : List String} (hne : parts ≠ []) :
    (lines parts).toList = [','].intercalate (parts.map fun p => '\n' :: p.toList) ++ ['\n'] := by
  have hbreak : "\n".toList = ['\n'] := rfl
  have hcomma : ",\n".toList = [',', '\n'] := rfl
  rw [lines, String.toList_append, String.toList_append, String.toList_intercalate, hbreak, hcomma,
    List.singleton_append, cons_intercalate '\n' ',' (by simpa using hne), List.map_map]
  rfl

/-! ### Entries -/

theorem Json.spells_natural (n : Nat) : Spells Decoder.natural (Nat.toDigits 10 n) n where
  read b rest hb hr := by
    refine ⟨rest, ?_, rfl⟩
    obtain ⟨c, cs, hcs, hc⟩ := exists_digit_toDigits n
    have hread := readNumeral_toDigits n hr
    show Decoder.readNatural _ = _
    rw [hcs] at hread
    rw [Decoder.readNatural, hcs, skipBlanks_opened hb (isBlank_of_isDigit hc), ← List.cons_append,
      hread]
    show Except.ok (Nat.ofDigitChars 10 (c :: cs) 0, rest) = _
    rw [← hcs, Nat.ofDigitChars_ten_toDigits]
  opens := opens_toDigits n

namespace DataSet

namespace Entry

/-- The fields read so far. -/
structure Draft where
  index : Option Nat := none
  name : Option String := none
  kind : Option DataKind := none
  size : Option Nat := none

def Draft.complete (draft : Draft) : Except String Entry := do
  return {
    index := ← requireField "index" draft.index
    name := ← requireField "name" draft.name
    kind := ← requireField "kind" draft.kind
    size := ← requireField "size" draft.size }

def record : Decoder.Record Draft Entry where
  name := "ObjectEntry"
  fields := [
    .of "index" (·.index.isSome) .natural fun d n => { d with index := n },
    .of "name" (·.name.isSome) .string fun d s => { d with name := s },
    .of "kind" (·.kind.isSome) (.variant (.ofNames DataKind.all DataKind.name))
      fun d k => { d with kind := k },
    .of "size" (·.size.isSome) .natural fun d n => { d with size := n }]
  empty := {}
  complete := Draft.complete

def decoder : Decoder Entry := .record record

/-- A member on a line of its own. -/
def lineChars (m : String × String) : List Char :=
  "\n    ".toList ++ (quoteChars m.1.toList ++ ':' :: ([' '] ++ m.2.toList))

theorem toList_toJson (e : Entry) :
    e.toJson.toList =
      [' ', ' '] ++ '\x7b' :: ([','].intercalate (e.members.map lineChars) ++
        (['\n', ' ', ' '] ++ ['\x7d'])) := by
  have hopen : "  \x7b".toList = [' ', ' ', '\x7b'] := rfl
  have hclose : "  \x7d".toList = [' ', ' ', '\x7d'] := rfl
  have hline (m : String × String) :
      '\n' :: ("    " ++ quote m.1 ++ ": " ++ m.2).toList = lineChars m := by
    have hindent : "\n    ".toList = '\n' :: "    ".toList := rfl
    have hcolon : ": ".toList = [':', ' '] := rfl
    unfold lineChars
    simp only [String.toList_append, toList_quote, hindent, hcolon, List.append_assoc,
      List.cons_append, List.nil_append]
  have hlines : (e.members.map fun m => "    " ++ quote m.1 ++ ": " ++ m.2) ≠ [] :=
    List.cons_ne_nil _ _
  rw [toJson, String.toList_append, String.toList_append, toList_lines hlines, List.map_map, hopen,
    hclose]
  simp only [Function.comp_def, hline, List.append_assoc, List.cons_append, List.nil_append]

theorem toList_toString (n : Nat) : (toString n).toList = Nat.toDigits 10 n := by simp

theorem blank_indent : Blank "\n    ".toList := by decide

theorem blank_space : Blank [' '] := by decide

theorem spells (e : Entry) : Spells decoder e.toJson.toList e := by
  have hnatural (n : Nat) : Spells Decoder.natural (toString n).toList n := by
    rw [toList_toString]
    exact spells_natural n
  have hfills : Fills record record.empty (e.members.map lineChars)
      { index := e.index, name := e.name, kind := e.kind, size := e.size } := by
    refine .field blank_indent blank_space rfl rfl (hnatural e.index) ?_
    refine .field blank_indent blank_space rfl rfl (spells_quote e.name) ?_
    refine .field blank_indent blank_space rfl rfl (spells_variant e.kind.ofName?_name) ?_
    refine .field blank_indent blank_space rfl rfl (hnatural e.size) ?_
    exact .nil _
  rw [toList_toJson]
  exact (spells_record hfills rfl (by decide)).blank_append (by decide)

/-- The value that an entry is in JSON. -/
def value (e : Entry) : Value :=
  .object [("index", .natural e.index), ("name", .string e.name), ("kind", .string e.kind.name),
    ("size", .natural e.size)]

theorem spells_value (e : Entry) (depth : Nat) :
    Spells (Decoder.value (depth + 1)) e.toJson.toList e.value := by
  have hmember {v : Value} {m : String × String}
      (h : Spells (Decoder.value depth) m.2.toList v) :
      Spells (Decoder.pair (Decoder.value depth)) (lineChars m) (m.1, v) :=
    spells_pair blank_indent blank_space m.1 h
  have hnatural (n : Nat) : Spells (Decoder.value depth) (toString n).toList (.natural n) := by
    rw [toList_toString]
    exact spells_number n depth
  have hmembers : List.Forall₂ (Spells (Decoder.pair (Decoder.value depth)))
      (e.members.map lineChars)
      [("index", .natural e.index), ("name", .string e.name), ("kind", .string e.kind.name),
        ("size", .natural e.size)] := by
    refine .cons (hmember (hnatural e.index)) ?_
    refine .cons (hmember (spells_string e.name depth)) ?_
    refine .cons (hmember (spells_string e.kind.name depth)) ?_
    exact .cons (hmember (hnatural e.size)) .nil
  rw [toList_toJson]
  exact (spells_members hmembers (by decide)).blank_append (by decide)

end Entry

/-! ### Listings -/

/-- The entries stand in brackets, each on lines of its own. -/
theorem exists_toList_renderJson (s : DataSet) : ∃ b, Blank b ∧ s.renderJson.toList =
    '[' :: ([','].intercalate (s.entries.map fun e => '\n' :: e.toJson.toList) ++ (b ++ [']'])) := by
  by_cases hentries : s.entries = []
  · refine ⟨[], blank_nil, ?_⟩
    rw [renderJson, if_pos hentries, hentries]
    rfl
  · refine ⟨['\n'], by decide, ?_⟩
    have hopen : "[".toList = ['['] := rfl
    have hclose : "]".toList = [']'] := rfl
    have hparts : s.entries.map Entry.toJson ≠ [] := by simpa using hentries
    rw [renderJson, if_neg hentries, String.toList_append, String.toList_append, toList_lines hparts,
      hopen, hclose, List.map_map, List.singleton_append, List.cons_append, List.append_assoc]
    rfl

/-- The entries of a set are read back from its listing in JSON. -/
theorem decode_renderJson (s : DataSet) :
    decode (Decoder.list Entry.decoder) s.renderJson = .ok s.entries := by
  obtain ⟨b, hb, htext⟩ := s.exists_toList_renderJson
  have hspelt : List.Forall₂ (Spells Entry.decoder)
      (s.entries.map fun e => '\n' :: e.toJson.toList) s.entries := by
    refine List.forall₂_map_left_iff.mpr (List.forall₂_same.mpr fun e _ => ?_)
    exact e.spells.blank_append (b := ['\n']) (by decide)
  refine Spells.decode_eq_ok ?_
  rw [htext]
  exact spells_list hspelt hb

/-- Without knowing what is listed, the listing is read as the values of the entries. -/
theorem decode_value_renderJson (s : DataSet) (depth : Nat) :
    decode (Decoder.value (depth + 2)) s.renderJson =
      .ok (.array (s.entries.map Entry.value)) := by
  obtain ⟨b, hb, htext⟩ := s.exists_toList_renderJson
  have hspelt : List.Forall₂ (Spells (Decoder.value (depth + 1)))
      (s.entries.map fun e => '\n' :: e.toJson.toList) (s.entries.map Entry.value) := by
    refine List.forall₂_map_left_iff.mpr (List.forall₂_map_right_iff.mpr ?_)
    refine List.forall₂_same.mpr fun e _ => ?_
    exact (e.spells_value depth).blank_append (b := ['\n']) (by decide)
  refine Spells.decode_eq_ok ?_
  rw [htext]
  exact spells_elements hspelt hb

theorem entries_eq_mapIdx (s : DataSet) :
    s.entries = (s.objects.map fun o => (o.name, o.kind, o.size)).mapIdx
      fun i p => ⟨i, p.1, p.2.1, p.2.2⟩ := by
  refine List.ext_getElem? fun i => ?_
  rw [entries, List.getElem?_mapIdx, List.getElem?_mapIdx, List.getElem?_map, Option.map_map]
  rfl

theorem map_entries (s : DataSet) :
    s.entries.map (fun e => (e.name, e.kind, e.size)) =
      s.objects.map fun o => (o.name, o.kind, o.size) := by
  refine List.ext_getElem? fun i => ?_
  rw [List.getElem?_map, entries, List.getElem?_mapIdx, Option.map_map, List.getElem?_map]
  rfl

/-- The JSON listing is a text of JSON, a list of as many objects as the set has. The one in place `i` has
the index `i` and the name, the kind and the size of the object in that place, in this order and nothing
else. Two sets have the same listing exactly if their names, kinds and sizes are the same. -/
theorem render_json_reads_back :
    (∀ (s : DataSet) (depth : Nat), ∃ elements,
      decode (Decoder.value (depth + 2)) (s.render .json) = .ok (.array elements) ∧
      elements.length = s.size ∧
      ∀ i : Nat, elements[i]? = (s.get? i).map fun o =>
        .object [("index", .natural i), ("name", .string o.name), ("kind", .string o.kind.name),
          ("size", .natural o.size)]) ∧
    ∀ s₁ s₂ : DataSet, s₁.render .json = s₂.render .json ↔
      s₁.objects.map (fun o => (o.name, o.kind, o.size)) =
        s₂.objects.map fun o => (o.name, o.kind, o.size) := by
  constructor
  · intro s depth
    refine ⟨s.entries.map Entry.value, decode_value_renderJson s depth, ?_, fun i => ?_⟩
    · rw [List.length_map, entries, List.length_mapIdx, size]
    · rw [List.getElem?_map, entries, List.getElem?_mapIdx, Option.map_map, get?]
      rfl
  · intro s₁ s₂
    constructor
    · intro h
      have hlisting : s₁.renderJson = s₂.renderJson := h
      have hentries : s₁.entries = s₂.entries := by
        have hdecoded := decode_renderJson s₁
        rw [hlisting, decode_renderJson s₂] at hdecoded
        exact (Except.ok.inj hdecoded).symm
      rw [← map_entries, ← map_entries, hentries]
    · intro h
      have hentries : s₁.entries = s₂.entries := by
        rw [entries_eq_mapIdx, entries_eq_mapIdx, h]
      show s₁.renderJson = s₂.renderJson
      rw [renderJson, renderJson, hentries]

end DataSet

end DeviceLibs
