import DeviceLibs.Json.Record
import DeviceLibs.Proofs.Json.Spelling

/-!
# Spellings of records

A record is filled member by member. `ReadsMember` says what the text of one member does to the draft,
`Fills` what a run of members does, and `spells_record` puts a whole object together. The member of a
field that the draft lacks is `readsMember_field`. An array is read position by position
(`readPositions_first`, `readPositions_next`), and its bracket decides on the fields that are left.
-/

namespace DeviceLibs.Json.Decoder.Record

variable {σ α : Type} {r : Record σ α} {draft draft' : σ} {text b cs rest : List Char}

/-- The member `text` turns `draft` into `draft'`, with a comma or the closing bracket behind it. -/
def ReadsMember (r : Record σ α) (draft : σ) (text : List Char) (draft' : σ) : Prop :=
  ∀ b c rest, Blank b → (c = ',' ∨ c = '\x7d') →
    ∃ cs key cs' rest', skipBlanks (text ++ (b ++ c :: rest)) = '"' :: cs ∧
      readString cs = .ok (key, cs') ∧ r.readMember draft (.ofList key) cs' = .ok (draft', rest') ∧
      skipBlanks rest' = c :: rest

/-- The members turn the first draft into the last one. -/
inductive Fills (r : Record σ α) : σ → List (List Char) → σ → Prop where
  | nil (draft : σ) : Fills r draft [] draft
  | cons {draft draft' draft'' : σ} {text : List Char} {texts : List (List Char)} :
    ReadsMember r draft text draft' → Fills r draft' texts draft'' →
      Fills r draft (text :: texts) draft''

/-! ### One member -/

/-- A member is read by its key, however that is spelt, and what is behind the key. -/
theorem readsMember_of_key {spelling key value : List Char}
    (hkey : ∀ rest, readString (spelling ++ '"' :: rest) = .ok (key, rest))
    (hvalue : ∀ b c rest, Blank b → (c = ',' ∨ c = '\x7d') →
      ∃ rest', r.readMember draft (.ofList key) (value ++ (b ++ c :: rest)) = .ok (draft', rest') ∧
        skipBlanks rest' = c :: rest) :
    ReadsMember r draft ('"' :: (spelling ++ '"' :: value)) draft' := by
  intro b c rest hb hc
  obtain ⟨rest', hread, hrest⟩ := hvalue b c rest hb hc
  have hquote : skipBlanks ('"' :: (spelling ++ '"' :: value) ++ (b ++ c :: rest)) =
      '"' :: (spelling ++ '"' :: (value ++ (b ++ c :: rest))) := by
    rw [List.cons_append, List.append_assoc, skipBlanks_cons (by decide)]
    rfl
  exact ⟨_, key, _, rest', hquote, hkey _, hread, hrest⟩

/-- A field that the draft lacks takes its value. -/
theorem readMember_field {field : Field σ} {key : String} {value : List Char}
    (hfield : r.fields.find? (·.name = key) = some field) (hset : field.isSet draft = false)
    (hvalue : Spells (field.value draft) value draft') {b' : List Char} (hb' : Blank b') {c : Char}
    (hb : Blank b) (hc : c = ',' ∨ c = '\x7d') (rest : List Char) :
    ∃ rest', r.readMember draft key (b' ++ ':' :: value ++ (b ++ c :: rest)) = .ok (draft', rest') ∧
      skipBlanks rest' = c :: rest := by
  have hends : c = ',' ∨ c = ']' ∨ c = '\x7d' := hc.elim .inl fun h => .inr (.inr h)
  obtain ⟨rest', hread, hrest⟩ := read_element hvalue hb hends rest
  refine ⟨rest', ?_, hrest⟩
  have hcolon : readColon (b' ++ ':' :: value ++ (b ++ c :: rest)) =
      .ok (value ++ (b ++ c :: rest)) := by
    rw [List.append_assoc]
    exact readColon_append hb' _
  rw [readMember, hfield]
  simp only [hset, Bool.false_eq_true, if_false, hcolon, bind, Except.bind]
  exact hread

theorem readsMember_field {field : Field σ} {key : String} {value : List Char}
    (hfield : r.fields.find? (·.name = key) = some field) (hset : field.isSet draft = false)
    (hvalue : Spells (field.value draft) value draft') :
    ReadsMember r draft (quoteChars key.toList ++ ':' :: value) draft' := by
  rw [quoteChars_append]
  refine readsMember_of_key (readString_flatMap_escaped key.toList) fun b c rest hb hc => ?_
  rw [String.ofList_toList]
  exact readMember_field hfield hset hvalue blank_nil hb hc rest

theorem ReadsMember.blank_append (hb : Blank b) (h : ReadsMember r draft text draft') :
    ReadsMember r draft (b ++ text) draft' := by
  intro b' c rest hb' hc
  rw [List.append_assoc, skipBlanks_append hb]
  exact h b' c rest hb' hc

theorem Fills.field {β : Type} {name : String} {isSet : σ → Bool} {d : Decoder β} {put : σ → β → σ}
    {optional : Bool} {key : String} {value b' : List Char} {a : β} {texts : List (List Char)}
    (hb : Blank b) (hb' : Blank b')
    (hfield : r.fields.find? (·.name = key) = some (.of name isSet d put optional))
    (hset : isSet draft = false) (hvalue : Spells d value a)
    (h : Fills r (put draft a) texts draft') :
    Fills r draft ((b ++ (quoteChars key.toList ++ ':' :: (b' ++ value))) :: texts) draft' := by
  have hmember := readsMember_field hfield hset ((hvalue.map (put draft)).blank_append hb')
  exact .cons (hmember.blank_append hb) h

/-! ### Runs of members -/

theorem readMembers_of_key {key cs' rest' : List Char} (hquote : skipBlanks cs = '"' :: cs')
    (hkey : readString cs' = .ok (key, rest')) :
    r.readMembers draft cs =
      match r.readMember draft (.ofList key) rest' with
      | .error f => .error f
      | .ok (draft', rest) =>
        match skipBlanks rest with
        | [] => .error .ended
        | ',' :: rest => r.readMembers draft' rest
        | '\x7d' :: rest => .ok (draft', rest)
        | _ => .error .malformed := by
  rw [readMembers]
  split
  next h => rw [hquote] at h; cases h
  next h =>
    rw [hquote] at h
    cases h
    split
    next h => rw [hkey] at h; cases h
    next h =>
      rw [hkey] at h
      cases h
      split
      next h => rw [h]
      next h =>
        rw [h]
        dsimp only
        split <;> simp_all only
  next h => exact absurd hquote (h cs')

/-- Behind a member a comma carries on and a brace ends. -/
theorem readMembers_step {key cs' rest' rest'' : List Char} (hquote : skipBlanks cs = '"' :: cs')
    (hkey : readString cs' = .ok (key, rest'))
    (hmember : r.readMember draft (.ofList key) rest' = .ok (draft', rest'')) :
    r.readMembers draft cs =
      match skipBlanks rest'' with
      | [] => .error .ended
      | ',' :: rest => r.readMembers draft' rest
      | '\x7d' :: rest => .ok (draft', rest)
      | _ => .error .malformed := by
  rw [readMembers_of_key hquote hkey, hmember]

/-- Nothing is read behind a member that is refused. -/
theorem readMembers_of_error {key cs' rest' : List Char} {f : Fault}
    (hquote : skipBlanks cs = '"' :: cs') (hkey : readString cs' = .ok (key, rest'))
    (hmember : r.readMember draft (.ofList key) rest' = .error f) :
    r.readMembers draft cs = .error f := by
  rw [readMembers_of_key hquote hkey, hmember]

/-- A member with others behind it. -/
theorem readMembers_cons {texts : List (List Char)} (hm : ReadsMember r draft text draft')
    (hne : texts ≠ []) (more : List Char) :
    r.readMembers draft ([','].intercalate (text :: texts) ++ more) =
      r.readMembers draft' ([','].intercalate texts ++ more) := by
  obtain ⟨text', texts', rfl⟩ := List.exists_cons_of_ne_nil hne
  obtain ⟨cs, key, cs', rest', hquote, hkey, hmember, hrest⟩ :=
    hm [] ',' ([','].intercalate (text' :: texts') ++ more) blank_nil (.inl rfl)
  have hsplit : [','].intercalate (text :: text' :: texts') ++ more =
      text ++ ([] ++ ',' :: ([','].intercalate (text' :: texts') ++ more)) := by simp
  rw [hsplit, readMembers_step hquote hkey hmember, hrest]
  rfl

theorem readMembers_intercalate {texts : List (List Char)} (h : Fills r draft texts draft')
    (hne : texts ≠ []) (hb : Blank b) (rest : List Char) :
    r.readMembers draft ([','].intercalate texts ++ (b ++ '\x7d' :: rest)) = .ok (draft', rest) := by
  induction h with
  | nil => exact absurd rfl hne
  | @cons draft _ _ text texts hm hf ih =>
    -- the brace stands behind the last member, a comma behind any other
    cases hf with
    | nil =>
      obtain ⟨cs, key, cs', rest', hquote, hkey, hmember, hrest⟩ := hm b '\x7d' rest hb (.inr rfl)
      rw [List.intercalate_singleton]
      rw [readMembers_step hquote hkey hmember, hrest]
      rfl
    | cons hm' hf' =>
      rw [readMembers_cons hm (List.cons_ne_nil _ _)]
      exact ih (List.cons_ne_nil _ _)

/-! ### Records -/

/-- Members are not taken for the end of the record. -/
theorem skipBlanks_members {texts : List (List Char)} (h : Fills r draft texts draft')
    (hne : texts ≠ []) (hb : Blank b) (rest : List Char) :
    ∃ cs, skipBlanks ([','].intercalate texts ++ (b ++ '\x7d' :: rest)) = '"' :: cs := by
  cases h with
  | nil => exact absurd rfl hne
  | @cons _ _ _ text texts hm hf =>
    cases texts with
    | nil =>
      obtain ⟨cs, -, -, -, hquote, -⟩ := hm b '\x7d' rest hb (.inr rfl)
      exact ⟨cs, by rw [List.intercalate_singleton, hquote]⟩
    | cons text' texts' =>
      obtain ⟨cs, -, -, -, hquote, -⟩ :=
        hm [] ',' ([','].intercalate (text' :: texts') ++ (b ++ '\x7d' :: rest)) blank_nil (.inl rfl)
      refine ⟨cs, ?_⟩
      rw [← hquote, List.intercalate_cons_cons]
      simp only [List.append_assoc, List.nil_append, List.cons_append]

theorem finish_eq_ok_iff {a : α} : r.finish draft = .ok a ↔ r.complete draft = .ok a := by
  rw [finish]
  cases r.complete draft <;> simp [Except.mapError]

/-- An object is read from the members that fill its record. -/
theorem readObject_intercalate {texts : List (List Char)} (h : Fills r r.empty texts draft)
    (hb : Blank b) (rest : List Char) :
    r.readObject ([','].intercalate texts ++ (b ++ '\x7d' :: rest)) =
      (r.finish draft).map (·, rest) := by
  by_cases hne : texts = []
  · subst hne
    cases h
    rw [readObject, List.intercalate_nil, List.nil_append, skipBlanks_append hb,
      skipBlanks_cons (by decide)]
    rfl
  · obtain ⟨cs, hquote⟩ := skipBlanks_members h hne hb rest
    have hmembers := readMembers_intercalate h hne hb rest
    rw [readObject, hquote]
    simp only [hmembers, bind, Except.bind]
    cases r.finish draft <;> rfl

theorem readObject_of_mismatch {m : Mismatch} (h : r.readMembers r.empty cs = .error (.mismatch m)) :
    r.readObject cs = .error (.mismatch m) := by
  rw [readObject]
  split
  next hend =>
    -- members do not begin with the brace
    rw [readMembers] at h
    split at h
    next hcs => rw [hend] at hcs; cases hcs
    next hcs => rw [hend] at hcs; cases hcs
    next => cases h
  next =>
    rw [h]
    rfl

theorem spells_record {texts : List (List Char)} {a : α} (h : Fills r r.empty texts draft)
    (ha : r.complete draft = .ok a) (hb : Blank b) :
    Spells (.record r) ('\x7b' :: ([','].intercalate texts ++ (b ++ ['\x7d']))) a where
  read b' rest hb' _ := by
    refine ⟨rest, ?_, rfl⟩
    show r.read _ = _
    rw [read, skipBlanks_opened hb' (by decide)]
    simp only [List.append_assoc, List.singleton_append]
    rw [readObject_intercalate h hb, finish_eq_ok_iff.mpr ha]
    rfl
  opens := ⟨'\x7b', _, rfl, by decide⟩

/-! ### Arrays -/

section

variable {field : Field σ} {fields : List (Field σ)} {c : Char} {index : Nat}

theorem readPositions_first {rest' : List Char} (hopen : skipBlanks cs = c :: rest) (hc : c ≠ ']')
    (hread : (field.value draft).read (c :: rest) = .ok (draft', rest')) :
    r.readPositions draft cs 0 (field :: fields) = r.readPositions draft' rest' 1 fields := by
  rw [readPositions, hopen]
  split
  next h => cases h
  next h => exact absurd (List.cons_eq_cons.mp h).1 hc
  next h =>
    cases h
    rw [if_pos rfl, hread]
    rfl

theorem readPositions_next {rest' : List Char} (hcomma : skipBlanks cs = ',' :: rest)
    (hread : (field.value draft).read rest = .ok (draft', rest')) :
    r.readPositions draft cs (index + 1) (field :: fields) =
      r.readPositions draft' rest' (index + 2) fields := by
  rw [readPositions, hcomma]
  show (if index + 1 = 0 then _ else _) = _
  rw [if_neg (Nat.succ_ne_zero index), if_pos rfl, hread]
  rfl

/-- At the bracket, optional fields are left out. -/
theorem exists_readPositions_of_optional (hcs : skipBlanks cs = ']' :: rest)
    (h : ∀ field ∈ fields, field.optional = true) :
    ∃ cs', r.readPositions draft cs index fields = .ok (draft, cs') ∧
      skipBlanks cs' = ']' :: rest := by
  induction fields generalizing cs index with
  | nil => exact ⟨cs, rfl, hcs⟩
  | cons field fields ih =>
    obtain ⟨hfield, hfields⟩ := List.forall_mem_cons.mp h
    obtain ⟨cs', hread, hcs'⟩ := ih (skipBlanks_cons (by decide) rest) hfields
    refine ⟨cs', ?_, hcs'⟩
    rw [readPositions, hcs]
    exact (if_pos hfield).trans hread

/-- At the bracket, a field that is not optional is missed. -/
theorem exists_readPositions_eq_error (hcs : skipBlanks cs = ']' :: rest)
    (h : ∃ field ∈ fields, field.optional = false) :
    ∃ f, r.readPositions draft cs index fields = .error f := by
  induction fields generalizing cs index with
  | nil =>
    obtain ⟨field, hfield, -⟩ := h
    cases hfield
  | cons field fields ih =>
    rw [readPositions, hcs]
    cases hoptional : field.optional with
    | false => exact ⟨_, if_neg Bool.false_ne_true⟩
    | true =>
      obtain ⟨field', hmem, hfield'⟩ := h
      have hne : field' ≠ field := by
        rintro rfl
        rw [hoptional] at hfield'
        cases hfield'
      obtain ⟨f, hf⟩ := ih (skipBlanks_cons (by decide) rest)
        ⟨field', (List.mem_cons.mp hmem).resolve_left hne, hfield'⟩
      exact ⟨f, (if_pos rfl).trans hf⟩

theorem readArray_of_readPositions {cs' : List Char}
    (hread : r.readPositions r.empty cs 0 r.fields = .ok (draft, cs'))
    (hcs' : skipBlanks cs' = ']' :: rest) : r.readArray cs = (r.finish draft).map (·, rest) := by
  simp only [readArray, hread, bind, Except.bind]
  cases r.finish draft with
  | error f => rfl
  | ok a =>
    dsimp only
    rw [hcs']
    rfl

end

/-! ### Objects without blanks -/

theorem toList_member (key value : String) :
    (member key value).toList = quoteChars key.toList ++ ':' :: value.toList := by
  have hcolon : ":".toList = [':'] := rfl
  rw [member, String.toList_append, String.toList_append, toList_quote, hcolon, List.append_assoc,
    List.singleton_append]

theorem toList_object (members : List (String × String)) :
    (object members).toList =
      '\x7b' :: ([','].intercalate (members.map fun m => (member m.1 m.2).toList) ++ ['\x7d']) := by
  have hopen : "\x7b".toList = ['\x7b'] := rfl
  have hcomma : ",".toList = [','] := rfl
  have hclose : "\x7d".toList = ['\x7d'] := rfl
  rw [object, String.toList_append, String.toList_append, String.toList_intercalate, hopen, hcomma,
    hclose, List.map_map, List.singleton_append]
  rfl

/-- The member of a field that the draft lacks, in front of the members that fill the rest. -/
theorem Fills.member {β : Type} {name : String} {isSet : σ → Bool} {d : Decoder β} {put : σ → β → σ}
    {optional : Bool} {key value : String} {a : β} {texts : List (List Char)}
    (hfield : r.fields.find? (·.name = key) = some (.of name isSet d put optional))
    (hset : isSet draft = false) (hvalue : Spells d value.toList a)
    (h : Fills r (put draft a) texts draft') :
    Fills r draft ((Json.member key value).toList :: texts) draft' := by
  rw [toList_member]
  exact .field blank_nil blank_nil hfield hset hvalue h

theorem spells_object {members : List (String × String)} {a : α} (draft : σ)
    (h : Fills r r.empty (members.map fun m => (member m.1 m.2).toList) draft)
    (ha : r.complete draft = .ok a) : Spells (.record r) (object members).toList a := by
  rw [toList_object]
  exact spells_record h ha blank_nil

end DeviceLibs.Json.Decoder.Record
