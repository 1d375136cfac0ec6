import DeviceLibs.Proofs.Json.Contained
import DeviceLibs.Proofs.Json.Grammar
import DeviceLibs.Proofs.Json.Members
import Mathlib.Data.List.Sigma

/-!
# The content of a record

A `Shape` says which fields a type has, in order, with their values and defaults. It says nothing of how
they are read. `Reads` picks the fields out of the members of an object, whatever else the object has, and
`Elements` the fields out of an array. `DecodesContent` is what a decoder of the type then owes: what it
answers follows from the fields alone, in whichever form they come, and a field that comes twice is
refused.

`Layout` ties a record to a shape through the draft that is filled while it is read, and
`Layout.decodesContent` is the result. The members of an object fill the draft (`Layout.exists_fills`),
unless one of them meets a field that is filled already (`Layout.readMembers_of_repeats`). The values of an
array fill it in order (`Layout.readPositions_elements`).
-/

namespace DeviceLibs.Json

open Decoder Decoder.Record

/-- The fields of the type `α`, where `ι` are their labels. -/
structure Shape (ι α : Type) where
  all : List ι
  name : ι → String
  Value : ι → Type
  decoder : (i : ι) → Decoder (Value i)
  /-- What a field that is left out has. There is nothing for a field that is required. -/
  default? : (i : ι) → Option (Value i)
  field : α → (i : ι) → Value i
  /-- The fields may be anything. -/
  of : ((i : ι) → Value i) → α
  field_of : ∀ values, field (of values) = values
  mem_all : ∀ i, i ∈ all
  nodup_names : (all.map name).Nodup

/-- The text is an object with these members, with blanks where they may be. -/
def IsObject (members : List Member) (text : String) : Prop :=
  ∃ b b' b'', Blank b ∧ Blank b' ∧ Blank b'' ∧
    text.toList = b ++ '\x7b' :: ([','].intercalate (members.map Member.text) ++ (b' ++ '\x7d' :: b''))

/-- The text is an array of these texts, with blanks where they may be. -/
def IsArray (texts : List (List Char)) (text : String) : Prop :=
  ∃ b b' b'', Blank b ∧ Blank b' ∧ Blank b'' ∧
    text.toList = b ++ '[' :: ([','].intercalate texts ++ (b' ++ ']' :: b''))

theorem isObject_of_eq {members : List Member} {text : String}
    (h : text.toList = '\x7b' :: ([','].intercalate (members.map Member.text) ++ ['\x7d'])) :
    IsObject members text :=
  ⟨[], [], [], blank_nil, blank_nil, blank_nil, h⟩

theorem isArray_of_eq {texts : List (List Char)} {text : String}
    (h : text.toList = '[' :: ([','].intercalate texts ++ [']'])) : IsArray texts text :=
  ⟨[], [], [], blank_nil, blank_nil, blank_nil, h⟩

namespace Shape

variable {ι α : Type}

theorem nodup (s : Shape ι α) : s.all.Nodup := .of_map s.name s.nodup_names

theorem name_injective (s : Shape ι α) : Function.Injective s.name :=
  fun i j h => List.inj_on_of_nodup_map s.nodup_names (s.mem_all i) (s.mem_all j) h

variable [DecidableEq ι] (s : Shape ι α)

/-- The fields among the members, with their values. Other members may have any value. -/
inductive Reads : List Member → List (Sigma s.Value) → Prop where
  | nil : Reads [] []
  | field {m : Member} {i : ι} {v : s.Value i} {members : List Member}
    {values : List (Sigma s.Value)} (hkey : m.key = s.name i)
    (hvalue : decode (s.decoder i) (.ofList m.value) = .ok v) (h : Reads members values) :
    Reads (m :: members) (⟨i, v⟩ :: values)
  | other {m : Member} {members : List Member} {values : List (Sigma s.Value)}
    (hkey : ∀ i, m.key ≠ s.name i) (hvalue : IsValue m.value) (h : Reads members values) :
    Reads (m :: members) values

/-- Each text is a value of the field next to it. -/
def Elements (texts : List (List Char)) (values : List (Sigma s.Value)) : Prop :=
  List.Forall₂ (fun text v => decode (s.decoder v.1) (.ofList text) = .ok v.2) texts values

/-- The value of a field, or its default. -/
def content (values : List (Sigma s.Value)) (i : ι) : Option (s.Value i) :=
  (values.dlookup i).or (s.default? i)

/-- The fields of `a` are the values, and the defaults of those left out. -/
def Holds (values : List (Sigma s.Value)) (a : α) : Prop :=
  ∀ i, s.content values i = some (s.field a i)

/-- The fields that have no default are there. -/
def Complete (values : List (Sigma s.Value)) : Prop :=
  ∀ i, s.default? i = none → i ∈ values.keys

variable {s}

theorem exists_holds_iff {values : List (Sigma s.Value)} :
    (∃ a, s.Holds values a) ↔ s.Complete values := by
  have hsome : s.Complete values ↔ ∀ i, (s.content values i).isSome = true := by
    refine forall_congr' fun i => ?_
    rw [content, Option.isSome_or, Bool.or_eq_true, List.dlookup_isSome,
      ← Option.isSome_iff_ne_none.not_left]
    tauto
  rw [hsome]
  constructor
  · rintro ⟨a, ha⟩ i
    rw [ha i]
    rfl
  · intro h
    refine ⟨s.of fun i => (s.content values i).get (h i), fun i => ?_⟩
    rw [s.field_of, Option.some_get]

end Shape

/-- What is decoded is the content of a text, not how it is spelt. -/
structure DecodesContent {ι α : Type} [DecidableEq ι] (s : Shape ι α) (d : Decoder α) : Prop where
  /-- An object is decoded exactly if the fields that have no default are there. -/
  succeeds : ∀ {members values text}, s.Reads members values → IsObject members text →
    values.NodupKeys → ((∃ a, decode d text = .ok a) ↔ s.Complete values)
  /-- The order of the fields does not count, and neither does any other member. -/
  object : ∀ {members values text}, s.Reads members values → IsObject members text →
    values.NodupKeys → ∀ a, decode d text = .ok a ↔ s.Holds values a
  /-- An array has the fields in order and may leave out those at its end that have a default. -/
  array : ∀ {texts values text}, s.Elements texts values → IsArray texts text →
    values.keys <+: s.all → ∀ a, decode d text = .ok a ↔ s.Holds values a
  /-- An object and an array of one content are decoded to the same. -/
  agrees : ∀ {members values text texts values' text'}, s.Reads members values →
    IsObject members text → values.NodupKeys → s.Elements texts values' → IsArray texts text' →
    values'.keys <+: s.all → s.content values = s.content values' → s.Complete values →
      decode d text = decode d text'
  /-- A field that comes twice is refused. Other members may come as often as they like. -/
  repeated : ∀ {members values text}, s.Reads members values → IsObject members text →
    ¬ values.NodupKeys →
      ∃ i, decode d text = .error (.mismatch (.duplicateField (s.name i)))

/-- The field of a record for a field of the shape. -/
def Shape.fieldOf {ι σ α : Type} (s : Shape ι α) (get : σ → (i : ι) → Option (s.Value i))
    (put : σ → (i : ι) → s.Value i → σ) (i : ι) : Decoder.Field σ :=
  .of (s.name i) (fun draft => (get draft i).isSome) (s.decoder i) (fun draft => put draft i)
    (s.default? i).isSome

/-- A record with the fields of the shape, and where its draft has them. -/
structure Layout {ι σ α : Type} [DecidableEq ι] (s : Shape ι α) (r : Record σ α) where
  get : σ → (i : ι) → Option (s.Value i)
  put : σ → (i : ι) → s.Value i → σ
  fields_eq : r.fields = s.all.map (s.fieldOf get put)
  get_empty : ∀ i, get r.empty i = none
  get_put : ∀ draft i v, get (put draft i v) = Function.update (get draft) i (some v)
  complete_iff : ∀ draft a,
    r.complete draft = .ok a ↔ ∀ i, (get draft i).or (s.default? i) = some (s.field a i)
  contained : ∀ i, (s.decoder i).Contained

namespace Layout

variable {ι σ α : Type} [DecidableEq ι] {s : Shape ι α} {r : Record σ α} (l : Layout s r)
variable {m : Member} {members : List Member} {values : List (Sigma s.Value)} {draft : σ} {i : ι}
variable {v : s.Value i} {texts : List (List Char)} {b cs rest : List Char} {text : String}

/-! ### Drafts -/

theorem get_put_self (draft : σ) (i : ι) (v : s.Value i) : l.get (l.put draft i v) i = some v := by
  rw [l.get_put, Function.update_self]

theorem get_put_of_ne {j : ι} (h : j ≠ i) (draft : σ) (v : s.Value i) :
    l.get (l.put draft i v) j = l.get draft j := by
  rw [l.get_put, Function.update_of_ne h]

/-- A field put in front counts unless it is among the values behind it. -/
theorem or_get_put (hi : i ∉ values.keys) (draft : σ) (v : s.Value i) (j : ι) :
    (values.dlookup j).or (l.get (l.put draft i v) j) =
      ((⟨i, v⟩ :: values : List (Sigma s.Value)).dlookup j).or (l.get draft j) := by
  by_cases hj : j = i
  · subst hj
    rw [List.dlookup_eq_none.mpr hi, l.get_put_self, List.dlookup_cons_eq]
    rfl
  · rw [l.get_put_of_ne hj, List.dlookup_cons_ne _ _ hj]

/-- A draft filled with the values is finished as what they are the content of. -/
theorem finish_eq_ok_iff_holds
    (h : ∀ i, l.get draft i = (values.dlookup i).or (l.get r.empty i)) (a : α) :
    r.finish draft = .ok a ↔ s.Holds values a := by
  rw [finish_eq_ok_iff, l.complete_iff]
  refine forall_congr' fun i => ?_
  rw [h, l.get_empty, Option.or_none, Shape.content]

/-! ### Members -/

theorem find?_name (i : ι) :
    r.fields.find? (·.name = s.name i) = some (s.fieldOf l.get l.put i) := by
  have hlabel : s.all.find? (fun j => s.name j = s.name i) = some i := by
    cases hfind : s.all.find? (fun j => s.name j = s.name i) with
    | none =>
      have hne := List.find?_eq_none.mp hfind i (s.mem_all i)
      simp at hne
    | some j =>
      have hname := List.find?_some hfind
      rw [s.name_injective (of_decide_eq_true hname)]
  rw [l.fields_eq, List.find?_map, Function.comp_def]
  show (s.all.find? (fun j => s.name j = s.name i)).map _ = _
  rw [hlabel]
  rfl

theorem find?_other (l : Layout s r) {key : String} (h : ∀ i, key ≠ s.name i) :
    r.fields.find? (·.name = key) = none := by
  rw [l.fields_eq, List.find?_eq_none]
  intro field hfield
  obtain ⟨i, -, rfl⟩ := List.mem_map.mp hfield
  exact fun hname => h i (of_decide_eq_true hname).symm

theorem readsMember_field (hkey : m.key = s.name i)
    (hvalue : decode (s.decoder i) (.ofList m.value) = .ok v) (hunset : l.get draft i = none) :
    r.ReadsMember draft m.text (l.put draft i v) := by
  have hset : (s.fieldOf l.get l.put i).isSet draft = false := by
    show (l.get draft i).isSome = false
    rw [hunset]
    rfl
  have hspells := ((l.contained i).spells hvalue).map (l.put draft i)
  refine (readsMember_of_key (readString_of_spelt m.spelt) fun b c rest hb hc => ?_).blank_append
    m.blank_before
  rw [String.ofList_toList, hkey]
  exact readMember_field (l.find?_name i) hset hspells m.blank_behind hb hc rest

theorem readsMember_other (l : Layout s r) (hkey : ∀ i, m.key ≠ s.name i)
    (hvalue : IsValue m.value) (draft : σ) : r.ReadsMember draft m.text draft := by
  refine (readsMember_of_key (readString_of_spelt m.spelt) fun b c rest hb hc => ?_).blank_append
    m.blank_before
  have hnumber : c.isDigit = false ∧ c ≠ '.' ∧ c ≠ 'e' ∧ c ≠ 'E' := by
    rcases hc with rfl | rfl <;> decide
  have hblank : isBlank c = false := by rcases hc with rfl | rfl <;> decide
  obtain ⟨b', hb', hskip⟩ :=
    skipValue_of_isValue hvalue (endsNumber_append hb (endsNumber_cons hnumber rest))
  have hcolon : readColon (m.behind ++ ':' :: m.value ++ (b ++ c :: rest)) =
      .ok (m.value ++ (b ++ c :: rest)) := by
    rw [List.append_assoc]
    exact readColon_append m.blank_behind _
  refine ⟨b' ++ (b ++ c :: rest), ?_, ?_⟩
  · rw [String.ofList_toList, readMember, l.find?_other hkey]
    simp only [hcolon, hskip, bind, Except.bind]
    rfl
  · rw [skipBlanks_append hb', skipBlanks_append hb, skipBlanks_cons hblank]

/-- Members that have each field once fill a draft that has none of them. -/
theorem exists_fills (h : s.Reads members values) (hnodup : values.NodupKeys)
    (hfresh : ∀ i ∈ values.keys, l.get draft i = none) :
    ∃ draft', r.Fills draft (members.map Member.text) draft' ∧
      ∀ i, l.get draft' i = (values.dlookup i).or (l.get draft i) := by
  induction h generalizing draft with
  | nil => exact ⟨draft, .nil draft, fun i => rfl⟩
  | @field m i v members values hkey hvalue _ ih =>
    obtain ⟨hi, hnodup⟩ := List.nodupKeys_cons.mp hnodup
    obtain ⟨hunset, hfresh⟩ := List.forall_mem_cons.mp hfresh
    -- the fields to come are still missing, since none of them is this one again
    have hfresh' : ∀ j ∈ values.keys, l.get (l.put draft i v) j = none := by
      intro j hj
      rw [l.get_put_of_ne (ne_of_mem_of_not_mem hj hi)]
      exact hfresh j hj
    obtain ⟨draft', hfills, hget⟩ := ih hnodup hfresh'
    refine ⟨draft', .cons (l.readsMember_field hkey hvalue hunset) hfills, fun j => ?_⟩
    rw [hget, l.or_get_put hi]
  | other hkey hvalue _ ih =>
    obtain ⟨draft', hfills, hget⟩ := ih hnodup hfresh
    exact ⟨draft', .cons (l.readsMember_other hkey hvalue draft) hfills, hget⟩

/-- The draft has one of the fields, or one of them comes twice. -/
def Repeats (draft : σ) (values : List (Sigma s.Value)) : Prop :=
  (∃ i ∈ values.keys, l.get draft i ≠ none) ∨ ¬ values.NodupKeys

theorem not_repeats_nil (draft : σ) : ¬ l.Repeats draft [] := by
  rintro (⟨i, hi, -⟩ | hdup)
  · cases hi
  · exact hdup List.nodupKeys_nil

theorem Repeats.put {l : Layout s r} (h : l.Repeats draft (⟨i, v⟩ :: values))
    (hunset : l.get draft i = none) : l.Repeats (l.put draft i v) values := by
  rcases h with ⟨j, hj, hset⟩ | hdup
  · have hne : j ≠ i := by
      rintro rfl
      exact hset hunset
    refine .inl ⟨j, (List.mem_cons.mp hj).resolve_left hne, ?_⟩
    rw [l.get_put_of_ne hne]
    exact hset
  · by_cases hi : i ∈ values.keys
    · refine .inl ⟨i, hi, ?_⟩
      rw [l.get_put_self]
      exact Option.some_ne_none v
    · exact .inr fun hnodup => hdup (List.nodupKeys_cons.mpr ⟨hi, hnodup⟩)

/-- There are members as long as one of them is repeated. -/
theorem Repeats.texts_ne_nil {l : Layout s r} (hr : l.Repeats draft values)
    (h : s.Reads members values) : members.map Member.text ≠ [] := by
  cases h with
  | nil => exact absurd hr (l.not_repeats_nil draft)
  | field => exact List.cons_ne_nil _ _
  | other => exact List.cons_ne_nil _ _

theorem readMembers_of_isSet (hkey : m.key = s.name i) (hset : l.get draft i ≠ none)
    (texts : List (List Char)) (more : List Char) :
    r.readMembers draft ([','].intercalate (m.text :: texts) ++ more) =
      .error (.mismatch (.duplicateField (s.name i))) := by
  obtain ⟨more', hmore⟩ := exists_intercalate_cons [','] m.text texts
  rw [hmore, List.append_assoc]
  refine readMembers_of_error (skipBlanks_member m _) (readString_of_spelt m.spelt _) ?_
  have hisSet : (s.fieldOf l.get l.put i).isSet draft = true := Option.isSome_iff_ne_none.mpr hset
  rw [String.ofList_toList, hkey, readMember, l.find?_name]
  simp only [hisSet, if_true]

theorem readMembers_of_repeats (h : s.Reads members values) (hr : l.Repeats draft values)
    (more : List Char) :
    ∃ i, r.readMembers draft ([','].intercalate (members.map Member.text) ++ more) =
      .error (.mismatch (.duplicateField (s.name i))) := by
  induction h generalizing draft with
  | nil => exact absurd hr (l.not_repeats_nil draft)
  | @field m i v members values hkey hvalue h ih =>
    by_cases hset : l.get draft i = none
    · -- a new field leaves the repeated one among the rest
      have hr' := hr.put hset
      obtain ⟨j, hj⟩ := ih hr'
      refine ⟨j, ?_⟩
      rw [List.map_cons, readMembers_cons (l.readsMember_field hkey hvalue hset) (hr'.texts_ne_nil h),
        hj]
    · exact ⟨i, l.readMembers_of_isSet hkey hset _ more⟩
  | other hkey hvalue h ih =>
    obtain ⟨j, hj⟩ := ih hr
    refine ⟨j, ?_⟩
    rw [List.map_cons, readMembers_cons (l.readsMember_other hkey hvalue draft) (hr.texts_ne_nil h),
      hj]

/-! ### Elements -/

theorem exists_read (hvalue : decode (s.decoder i) (.ofList cs) = .ok v) (draft : σ)
    (hr : EndsNumber rest) :
    ∃ rest', ((s.fieldOf l.get l.put i).value draft).read (cs ++ rest) =
      .ok (l.put draft i v, rest') ∧ skipBlanks rest' = skipBlanks rest :=
  (((l.contained i).spells hvalue).map (l.put draft i)).read [] rest blank_nil hr

theorem read_skipBlanks (i : ι) (draft : σ) (cs : List Char) :
    ((s.fieldOf l.get l.put i).value draft).read (skipBlanks cs) =
      ((s.fieldOf l.get l.put i).value draft).read cs := by
  show ((s.decoder i).read (skipBlanks cs)).map _ = ((s.decoder i).read cs).map _
  rw [(l.contained i).blanks]

/-- The values behind the first, in the order of their fields. -/
theorem readPositions_items (draft : σ) (h : s.Elements texts values) (hnodup : values.NodupKeys)
    (hb : Blank b)
    (hcs : skipBlanks cs = skipBlanks (texts.flatMap (',' :: ·) ++ (b ++ ']' :: rest)))
    (index : Nat) (fields : List (Decoder.Field σ)) :
    ∃ draft' cs' index', r.readPositions draft cs (index + 1)
        (values.keys.map (s.fieldOf l.get l.put) ++ fields) =
          r.readPositions draft' cs' index' fields ∧
      skipBlanks cs' = ']' :: rest ∧ ∀ i, l.get draft' i = (values.dlookup i).or (l.get draft i) := by
  induction h generalizing draft cs index with
  | nil =>
    refine ⟨draft, cs, index + 1, rfl, ?_, fun i => rfl⟩
    rw [hcs, List.flatMap_nil, List.nil_append, skipBlanks_append hb, skipBlanks_cons (by decide)]
  | @cons text v texts values hvalue _ ih =>
    obtain ⟨hi, hnodup⟩ := List.nodupKeys_cons.mp hnodup
    obtain ⟨rest', hread, hrest⟩ := l.exists_read hvalue draft
      (endsNumber_items .list hb texts rest)
    obtain ⟨draft', cs', index', hpositions, hcs', hget⟩ :=
      ih (l.put draft v.1 v.2) hnodup hrest (index + 1)
    refine ⟨draft', cs', index', ?_, hcs', fun j => ?_⟩
    · have hcomma : skipBlanks cs =
          ',' :: (text ++ (texts.flatMap (',' :: ·) ++ (b ++ ']' :: rest))) := by
        rw [hcs, List.flatMap_cons, List.append_assoc, List.cons_append, skipBlanks_cons (by decide)]
      rw [← hpositions]
      exact readPositions_next hcomma hread
    · rw [hget, l.or_get_put hi]

/-- All the values, in the order of their fields. The other fields are looked for at the bracket. -/
theorem readPositions_elements {others : List ι} (h : s.Elements texts values)
    (hfields : values.keys ++ others = s.all) (hb : Blank b) (rest : List Char) :
    ∃ draft cs' index', r.readPositions r.empty ([','].intercalate texts ++ (b ++ ']' :: rest)) 0
        r.fields = r.readPositions draft cs' index' (others.map (s.fieldOf l.get l.put)) ∧
      skipBlanks cs' = ']' :: rest ∧
        ∀ i, l.get draft i = (values.dlookup i).or (l.get r.empty i) := by
  have hnodup : values.NodupKeys := (hfields ▸ s.nodup).of_append_left
  rw [l.fields_eq, ← hfields, List.map_append]
  cases h with
  | nil =>
    refine ⟨r.empty, _, 0, rfl, ?_, fun i => rfl⟩
    rw [List.intercalate_nil, List.nil_append, skipBlanks_append hb, skipBlanks_cons (by decide)]
  | @cons text v texts values hvalue hvalues =>
    obtain ⟨hi, hnodup⟩ := List.nodupKeys_cons.mp hnodup
    obtain ⟨rest', hread, hrest⟩ := l.exists_read hvalue r.empty (endsNumber_items .list hb texts rest)
    obtain ⟨draft, cs', index', hpositions, hcs', hget⟩ :=
      l.readPositions_items (l.put r.empty v.1 v.2) hvalues hnodup hb hrest 0
        (others.map (s.fieldOf l.get l.put))
    obtain ⟨c, cs, hopen, hc⟩ := ((l.contained v.1).spells hvalue).opens
    refine ⟨draft, cs', index', ?_, hcs', fun j => ?_⟩
    · have hfirst := skipBlanks_append_of_cons hopen
        (texts.flatMap (',' :: ·) ++ (b ++ ']' :: rest))
      rw [← hpositions, Text.intercalate_cons, List.append_assoc]
      refine readPositions_first hfirst hc ?_
      rw [← hfirst, l.read_skipBlanks]
      exact hread
    · rw [hget, l.or_get_put hi]

/-! ### Whole texts -/

theorem decode_of_fills (hfills : r.Fills r.empty (members.map Member.text) draft)
    (htext : IsObject members text) : decode (.record r) text = r.finish draft := by
  obtain ⟨b, b', b'', hb, hb', hb'', htext⟩ := htext
  refine decode_of_read ?_ hb''
  show r.read text.toList = _
  rw [htext, Record.read, skipBlanks_append hb, skipBlanks_cons (by decide)]
  exact readObject_intercalate hfills hb' b''

/-- An object with a field that comes twice is refused where it comes again. -/
theorem decode_object_of_repeated (l : Layout s r) (h : s.Reads members values)
    (htext : IsObject members text) (hdup : ¬ values.NodupKeys) :
    ∃ i, decode (.record r) text = .error (.mismatch (.duplicateField (s.name i))) := by
  obtain ⟨b, b', b'', hb, -, -, htext⟩ := htext
  obtain ⟨i, hi⟩ := l.readMembers_of_repeats h (.inr hdup) (b' ++ '\x7d' :: b'')
  refine ⟨i, decode_of_read_error ?_⟩
  show r.read text.toList = _
  rw [htext, Record.read, skipBlanks_append hb, skipBlanks_cons (by decide)]
  exact readObject_of_mismatch hi

theorem read_array (htext : text.toList = b ++ '[' :: cs) (hb : Blank b) :
    r.read text.toList = r.readArray cs := by
  rw [htext, Record.read, skipBlanks_append hb, skipBlanks_cons (by decide)]
  rfl

/-- An array of the first fields, where only optional ones are left out. -/
theorem decode_array_of_complete (l : Layout s r) (h : s.Elements texts values)
    (htext : IsArray texts text) (hfields : values.keys <+: s.all) (hcomplete : s.Complete values)
    (a : α) : decode (.record r) text = .ok a ↔ s.Holds values a := by
  obtain ⟨b, b', b'', hb, hb', hb'', htext⟩ := htext
  obtain ⟨others, hothers⟩ := hfields
  obtain ⟨draft, cs', index', hpositions, hcs', hget⟩ :=
    l.readPositions_elements h hothers hb' b''
  have hoptional : ∀ field ∈ others.map (s.fieldOf l.get l.put), field.optional = true := by
    intro field hfield
    obtain ⟨i, hi, rfl⟩ := List.mem_map.mp hfield
    refine Option.isSome_iff_ne_none.mpr fun hnone => ?_
    exact List.disjoint_of_nodup_append (hothers ▸ s.nodup) (hcomplete i hnone) hi
  obtain ⟨cs, hended, hcs⟩ := exists_readPositions_of_optional hcs' hoptional
  have harray := readArray_of_readPositions (hpositions.trans hended) hcs
  have hread : (Decoder.record r).read text.toList = (r.finish draft).map (·, b'') :=
    (read_array htext hb).trans harray
  rw [decode_of_read hread hb'', l.finish_eq_ok_iff_holds hget]

/-- An array that ends too early. -/
theorem decode_array_of_not_complete (l : Layout s r) (h : s.Elements texts values)
    (htext : IsArray texts text) (hfields : values.keys <+: s.all)
    (hcomplete : ¬ s.Complete values) : ∃ f, decode (.record r) text = .error f := by
  obtain ⟨b, b', b'', hb, hb', hb'', htext⟩ := htext
  obtain ⟨others, hothers⟩ := hfields
  obtain ⟨draft, cs', index', hpositions, hcs', -⟩ := l.readPositions_elements h hothers hb' b''
  obtain ⟨i, hnone, hi⟩ : ∃ i, s.default? i = none ∧ i ∉ values.keys := by
    simpa only [Shape.Complete, not_forall, exists_prop] using hcomplete
  have hmem : i ∈ values.keys ++ others := hothers ▸ s.mem_all i
  have hrequired : (s.fieldOf l.get l.put i).optional = false := by
    show (s.default? i).isSome = false
    rw [hnone]
    rfl
  obtain ⟨f, hf⟩ := exists_readPositions_eq_error hcs'
    ⟨_, List.mem_map_of_mem ((List.mem_append.mp hmem).resolve_left hi), hrequired⟩
  refine ⟨f, decode_of_read_error ((read_array htext hb).trans ?_)⟩
  rw [readArray, hpositions, hf]
  rfl

theorem decode_array (l : Layout s r) (h : s.Elements texts values) (htext : IsArray texts text)
    (hfields : values.keys <+: s.all) (a : α) :
    decode (.record r) text = .ok a ↔ s.Holds values a := by
  by_cases hcomplete : s.Complete values
  · exact l.decode_array_of_complete h htext hfields hcomplete a
  · obtain ⟨f, hf⟩ := l.decode_array_of_not_complete h htext hfields hcomplete
    have hholds : ¬ s.Holds values a := fun ha => hcomplete (Shape.exists_holds_iff.mp ⟨a, ha⟩)
    rw [hf]
    exact iff_of_false nofun hholds

/-- An object whose fields come once each. -/
theorem decode_object (l : Layout s r) (h : s.Reads members values) (htext : IsObject members text)
    (hnodup : values.NodupKeys) (a : α) :
    decode (.record r) text = .ok a ↔ s.Holds values a := by
  obtain ⟨draft, hfills, hget⟩ := l.exists_fills h hnodup fun i _ => l.get_empty i
  rw [decode_of_fills hfills htext, l.finish_eq_ok_iff_holds hget]

theorem decodesContent (l : Layout s r) : DecodesContent s (.record r) where
  succeeds h htext hnodup := by
    rw [← Shape.exists_holds_iff]
    exact exists_congr (l.decode_object h htext hnodup)
  object := l.decode_object
  array := l.decode_array
  agrees h htext hnodup h' htext' hfields hsame hcomplete := by
    obtain ⟨a, ha⟩ := Shape.exists_holds_iff.mpr hcomplete
    have ha' : s.Holds _ a := fun i => (congrFun hsame i).symm.trans (ha i)
    rw [(l.decode_object h htext hnodup a).mpr ha, (l.decode_array h' htext' hfields a).mpr ha']
  repeated := l.decode_object_of_repeated

end Layout

end DeviceLibs.Json
