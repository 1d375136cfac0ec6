import DeviceLibs.Proofs.Listing
import DeviceLibs.Proofs.Pieces
import DeviceLibs.Text.Decimal

/-!
# Listings as a table

Columns of the table are padded and never cut, so where one ends depends on the line. A line is read from
its end: `lastWord` takes off the unit, the size and the kind, none of which holds a blank, and what is left
is the index and the name, which may hold anything but a line break and end in anything but a blank
(`Entry.read?_row`). The lines of a listing are its entries in order (`isJoined_renderHuman`), so the
entries are read back from the listing (`readTable_renderHuman`).
-/

namespace DeviceLibs.DataSet

/-- A name that is on one line, and of which it can be seen where it ends. -/
structure EndsInSight (name : String) : Prop where
  lineBreak : '\n' ∉ name.toList
  last : name.toList.getLast? ≠ some ' '

instance : DecidablePred EndsInSight := fun name =>
  decidable_of_iff ('\n' ∉ name.toList ∧ name.toList.getLast? ≠ some ' ')
    ⟨fun ⟨hbreak, hlast⟩ => ⟨hbreak, hlast⟩, fun h => ⟨h.lineBreak, h.last⟩⟩

/-! ### Words from the end -/

/-- The last word of a text in reverse, and what is in front of it, in reverse too. -/
def lastWord (rev : List Char) : List Char × List Char :=
  let rev := rev.dropWhile (· = ' ')
  ((rev.takeWhile (· ≠ ' ')).reverse, rev.dropWhile (· ≠ ' '))

theorem dropWhile_replicate_append (n : Nat) (cs : List Char) :
    (List.replicate n ' ' ++ cs).dropWhile (· = ' ') = cs.dropWhile (· = ' ') :=
  List.dropWhile_append_of_pos fun c hc => by simpa using List.eq_of_mem_replicate hc

theorem dropWhile_of_head {cs : List Char} (h : cs.head? ≠ some ' ') :
    cs.dropWhile (· = ' ') = cs := by
  cases cs with
  | nil => rfl
  | cons c cs =>
    rw [List.dropWhile_cons_of_neg]
    simpa using h

theorem lastWord_append {word : List Char} (hne : word ≠ []) (hword : ' ' ∉ word) (n : Nat)
    (rest : List Char) :
    lastWord (List.replicate n ' ' ++ (word.reverse ++ ' ' :: rest)) = (word, ' ' :: rest) := by
  have hchars : ∀ c ∈ word.reverse, decide (c ≠ ' ') = true := by
    intro c hc
    have hmem := List.mem_reverse.mp hc
    exact decide_eq_true fun heq => hword (heq ▸ hmem)
  have hhead : (word.reverse ++ ' ' :: rest).head? ≠ some ' ' := by
    rw [List.head?_append_of_ne_nil _ (List.reverse_ne_nil_iff.mpr hne)]
    intro hhead
    exact hword (List.mem_reverse.mp (List.mem_of_mem_head? hhead))
  rw [lastWord, dropWhile_replicate_append, dropWhile_of_head hhead,
    List.takeWhile_append_of_pos hchars, List.dropWhile_append_of_pos hchars]
  simp

/-! ### Rows -/

namespace Entry

/-- The line of the entry without its break. -/
def row (e : Entry) : String := .ofList e.line.toList.dropLast

/-- The entry that a line of the table shows. -/
def read? (row : String) : Option Entry := do
  let (_, rev) := lastWord row.toList.reverse
  let (size, rev) := lastWord rev
  let (kind, rev) := lastWord rev
  let front := (rev.dropWhile (· = ' ')).reverse.dropWhile (· = ' ')
  return {
    index := ← Text.ofDecimal? (front.takeWhile Char.isDigit)
    -- two blanks stand between the index and the name
    name := .ofList ((front.dropWhile Char.isDigit).drop 2)
    kind := ← DataKind.ofName? (.ofList kind)
    size := ← Text.ofDecimal? size }

theorem toList_padLeft (width : Nat) (text : String) :
    (padLeft width text).toList = List.replicate (width - text.length) ' ' ++ text.toList := by
  rw [padLeft, String.toList_append, String.toList_ofList]

theorem toList_padRight (width : Nat) (text : String) :
    (padRight width text).toList = text.toList ++ List.replicate (width - text.length) ' ' := by
  rw [padRight, String.toList_append, String.toList_ofList]

/-- A row with so many blanks in front of its columns. -/
def columns (e : Entry) (a b c : Nat) : List Char :=
  List.replicate a ' ' ++ (Nat.toDigits 10 e.index ++ (' ' :: ' ' :: (e.name.toList ++
    (List.replicate b ' ' ++ ' ' :: (e.kind.name.toList ++ (List.replicate c ' ' ++
      ' ' :: (Nat.toDigits 10 e.size ++ " bytes".toList)))))))

theorem exists_columns (e : Entry) : ∃ a b c, e.line.toList = e.columns a b c ++ ['\n'] := by
  refine ⟨2 - (toString e.index).length + 2, 42 - e.name.length,
    20 - e.kind.name.length + (8 - (toString e.size).length), ?_⟩
  have htwo : "  ".toList = [' ', ' '] := rfl
  have hone : " ".toList = [' '] := rfl
  have hunit : " bytes\n".toList = " bytes".toList ++ ['\n'] := rfl
  have hdigits (n : Nat) : (toString n).toList = Nat.toDigits 10 n := by simp
  have hblank (n : Nat) (cs : List Char) :
      ' ' :: (List.replicate n ' ' ++ cs) = List.replicate n ' ' ++ ' ' :: cs := by
    rw [← List.cons_append, ← List.replicate_succ, List.replicate_succ', List.append_assoc]
    rfl
  rw [line, columns]
  simp only [String.toList_append, toList_padLeft, toList_padRight, htwo, hone, hunit, hdigits,
    List.append_assoc, List.replicate_add, List.cons_append, List.nil_append, hblank]
  rfl

theorem exists_toList_row (e : Entry) :
    e.line = e.row ++ "\n" ∧ ∃ a b c, e.row.toList = e.columns a b c := by
  obtain ⟨a, b, c, hline⟩ := e.exists_columns
  have hrow : e.row.toList = e.columns a b c := by
    rw [row, String.toList_ofList, hline, List.dropLast_concat]
  refine ⟨?_, a, b, c, hrow⟩
  rw [← String.toList_inj, String.toList_append, hrow, hline]
  rfl

theorem blank_not_mem_toDigits (n : Nat) : ' ' ∉ Nat.toDigits 10 n := by
  intro h
  cases Text.isDigit_of_mem_toDigits h

theorem break_not_mem_toDigits (n : Nat) : '\n' ∉ Nat.toDigits 10 n := by
  intro h
  cases Text.isDigit_of_mem_toDigits h

theorem break_not_mem_row (e : Entry) (h : EndsInSight e.name) : '\n' ∉ e.row.toList := by
  obtain ⟨-, a, b, c, hrow⟩ := e.exists_toList_row
  have hkind : '\n' ∉ e.kind.name.toList := by cases e.kind <;> decide
  rw [hrow, columns]
  simp [h.lineBreak, hkind, break_not_mem_toDigits, List.mem_replicate]

/-- Without the blanks behind it a text that ends in none is itself. -/
theorem reverse_dropWhile_reverse {cs : List Char} (h : cs.getLast? ≠ some ' ') :
    (cs.reverse.dropWhile (· = ' ')).reverse = cs := by
  rw [dropWhile_of_head (by rwa [List.head?_reverse]), List.reverse_reverse]

/-- The blanks behind the name are not its own: a name that is there ends in none, and without a name
the index does. -/
theorem front_eq (n a : Nat) {name : List Char} (h : name.getLast? ≠ some ' ') :
    ((List.replicate a ' ' ++ (Nat.toDigits 10 n ++ ' ' :: ' ' :: name)).reverse.dropWhile
      (· = ' ')).reverse.dropWhile (· = ' ') =
      Nat.toDigits 10 n ++ if name = [] then [] else ' ' :: ' ' :: name := by
  have hdigits : ∀ rest, (List.replicate a ' ' ++ (Nat.toDigits 10 n ++ rest)).dropWhile (· = ' ') =
      Nat.toDigits 10 n ++ rest := by
    intro rest
    rw [dropWhile_replicate_append, dropWhile_of_head]
    rw [List.head?_append_of_ne_nil _ Nat.toDigits_ne_nil]
    exact fun hhead => blank_not_mem_toDigits n (List.mem_of_mem_head? hhead)
  by_cases hname : name = []
  · subst hname
    have hlast : (List.replicate a ' ' ++ Nat.toDigits 10 n).getLast? ≠ some ' ' := by
      rw [List.getLast?_append_of_ne_nil _ Nat.toDigits_ne_nil]
      exact fun hlast => blank_not_mem_toDigits n (List.mem_of_getLast? hlast)
    have hreverse : (List.replicate a ' ' ++ (Nat.toDigits 10 n ++ [' ', ' '])).reverse =
        List.replicate 2 ' ' ++ (List.replicate a ' ' ++ Nat.toDigits 10 n).reverse := by simp
    have hindex := hdigits []
    rw [List.append_nil] at hindex
    rw [hreverse, dropWhile_replicate_append, reverse_dropWhile_reverse hlast, if_pos rfl, hindex,
      List.append_nil]
  · have hlast : (List.replicate a ' ' ++ (Nat.toDigits 10 n ++ ' ' :: ' ' :: name)).getLast? ≠
        some ' ' := by
      rw [List.getLast?_append_of_ne_nil _ (by simp), List.getLast?_append_of_ne_nil _ (by simp),
        List.getLast?_cons_of_ne_nil (by simp), List.getLast?_cons_of_ne_nil hname]
      exact h
    rw [reverse_dropWhile_reverse hlast, if_neg hname, hdigits]

/-- A row is read as the entry that it shows. -/
theorem read?_row (e : Entry) (h : EndsInSight e.name) : read? e.row = some e := by
  obtain ⟨-, a, b, c, hrow⟩ := e.exists_toList_row
  have hunit : " bytes".toList = ' ' :: "bytes".toList := rfl
  have hkind : e.kind.name.toList ≠ [] ∧ ' ' ∉ e.kind.name.toList := by cases e.kind <;> decide
  have hreverse : e.row.toList.reverse = "bytes".toList.reverse ++ ' ' ::
      ((Nat.toDigits 10 e.size).reverse ++ ' ' :: (List.replicate c ' ' ++
        (e.kind.name.toList.reverse ++ ' ' :: (List.replicate b ' ' ++ (List.replicate a ' ' ++
          (Nat.toDigits 10 e.index ++ ' ' :: ' ' :: e.name.toList)).reverse)))) := by
    rw [hrow, columns, hunit]
    simp
  have hbytes (rest : List Char) :
      lastWord ("bytes".toList.reverse ++ ' ' :: rest) = ("bytes".toList, ' ' :: rest) :=
    lastWord_append (show "bytes".toList ≠ [] by decide) (by decide) 0 rest
  have hsize (rest : List Char) : lastWord (' ' :: ((Nat.toDigits 10 e.size).reverse ++ ' ' :: rest)) =
      (Nat.toDigits 10 e.size, ' ' :: rest) :=
    lastWord_append Nat.toDigits_ne_nil (blank_not_mem_toDigits _) 1 rest
  have hword (rest : List Char) :
      lastWord (' ' :: (List.replicate c ' ' ++ (e.kind.name.toList.reverse ++ ' ' :: rest))) =
        (e.kind.name.toList, ' ' :: rest) :=
    lastWord_append hkind.1 hkind.2 (c + 1) rest
  have hfront := front_eq e.index a h.last
  have hgap (rest : List Char) : (' ' :: (List.replicate b ' ' ++ rest)).dropWhile (· = ' ') =
      rest.dropWhile (· = ' ') := dropWhile_replicate_append (b + 1) rest
  have hindex : ∀ c ∈ Nat.toDigits 10 e.index, c.isDigit = true := fun c hc =>
    Text.isDigit_of_mem_toDigits hc
  have hnone : (if e.name.toList = [] then [] else ' ' :: ' ' :: e.name.toList).takeWhile
      Char.isDigit = [] := by
    split <;> rfl
  have hname : ((if e.name.toList = [] then [] else ' ' :: ' ' :: e.name.toList).dropWhile
      Char.isDigit).drop 2 = e.name.toList := by
    split
    next hempty => exact hempty.symm
    next => rfl
  unfold read?
  rw [hreverse]
  simp only [hbytes, hsize, hword, hgap, hfront, List.takeWhile_append_of_pos hindex,
    List.dropWhile_append_of_pos hindex, hnone, hname, List.append_nil, DataKind.ofName?_name,
    String.ofList_toList, Text.ofDecimal?_toDigits]
  rfl

end Entry

/-! ### Listings -/

variable {s : DataSet}

theorem endsInSight_of_mem_entries (hnames : ∀ o ∈ s.objects, EndsInSight o.name) {e : Entry}
    (he : e ∈ s.entries) : EndsInSight e.name := by
  obtain ⟨i, hi, rfl⟩ := List.mem_mapIdx.mp he
  exact hnames _ (List.getElem_mem hi)

/-- The table has a row for each entry and nothing behind the last break. -/
theorem isJoined_renderHuman (hnames : ∀ o ∈ s.objects, EndsInSight o.name) :
    Text.IsJoined '\n' s.renderHuman (s.entries.map Entry.row ++ [""]) := by
  have hlines : s.entries.map Entry.line = (s.entries.map Entry.row).map (· ++ "\n") := by
    rw [List.map_map]
    exact List.map_congr_left fun e _ => e.exists_toList_row.1
  rw [renderHuman, hlines]
  refine Text.isJoined_join fun row hrow => ?_
  obtain ⟨e, he, rfl⟩ := List.mem_map.mp hrow
  exact e.break_not_mem_row (endsInSight_of_mem_entries hnames he)

/-- The entries that a table shows. -/
def readTable (text : String) : Option (List Entry) :=
  ((text.toList.splitOn '\n').dropLast).mapM fun row => Entry.read? (.ofList row)

/-- The entries of a set are read back from its table. -/
theorem readTable_renderHuman (hnames : ∀ o ∈ s.objects, EndsInSight o.name) :
    readTable s.renderHuman = some s.entries := by
  have hrows : ∀ entries : List Entry, (∀ e ∈ entries, EndsInSight e.name) →
      (entries.map fun e => e.row.toList).mapM (fun row => Entry.read? (.ofList row)) =
        some entries := by
    intro entries hentries
    induction entries with
    | nil => rfl
    | cons e entries ih =>
      have hread := e.read?_row (hentries e List.mem_cons_self)
      have hrest := ih fun e' he' => hentries e' (List.mem_cons_of_mem _ he')
      rw [List.map_cons, List.mapM_cons, String.ofList_toList, hread, hrest]
      rfl
  rw [readTable, Text.isJoined_iff.mp (isJoined_renderHuman hnames), List.map_append,
    List.map_singleton, List.dropLast_concat, List.map_map]
  exact hrows _ fun e he => endsInSight_of_mem_entries hnames he

/-- If every name of a set is on one line and ends in sight, its table has as many lines as the set has
objects, and the one in place `i` is the line of the entry with the index `i` and the name, the kind and the
size of the object in that place; the line says so on its own. Two such sets have the same table exactly if
their names, kinds and sizes are the same. How long a name is, and what else is in it, does not matter. -/
theorem render_human_reads_back :
    (∀ s : DataSet, (∀ o ∈ s.objects, EndsInSight o.name) → ∃ rows,
      Text.IsJoined '\n' (s.render .human) (rows ++ [""]) ∧ rows.length = s.size ∧
      ∀ (i : Nat) (o : DataObject), s.get? i = some o → ∃ row, rows[i]? = some row ∧
        row ++ "\n" = Entry.line ⟨i, o.name, o.kind, o.size⟩ ∧
        Entry.read? row = some ⟨i, o.name, o.kind, o.size⟩) ∧
    ∀ s₁ s₂ : DataSet, (∀ o ∈ s₁.objects, EndsInSight o.name) →
      (∀ o ∈ s₂.objects, EndsInSight o.name) →
      (s₁.render .human = s₂.render .human ↔
        s₁.objects.map (fun o => (o.name, o.kind, o.size)) =
          s₂.objects.map fun o => (o.name, o.kind, o.size)) := by
  constructor
  · intro s hnames
    refine ⟨s.entries.map Entry.row, isJoined_renderHuman hnames, ?_, fun i o hget => ?_⟩
    · rw [List.length_map, entries, List.length_mapIdx, size]
    · have hentry : s.entries[i]? = some ⟨i, o.name, o.kind, o.size⟩ := by
        rw [entries, List.getElem?_mapIdx, ← get?, hget]
        rfl
      have hsight := endsInSight_of_mem_entries hnames (List.mem_of_getElem? hentry)
      refine ⟨Entry.row ⟨i, o.name, o.kind, o.size⟩, ?_, (Entry.exists_toList_row _).1.symm,
        Entry.read?_row _ hsight⟩
      rw [List.getElem?_map, hentry]
      rfl
  · intro s₁ s₂ hnames₁ hnames₂
    constructor
    · intro h
      have htable : s₁.renderHuman = s₂.renderHuman := h
      have hentries : s₁.entries = s₂.entries := by
        have hread := readTable_renderHuman hnames₁
        rw [htable, readTable_renderHuman hnames₂] at hread
        exact (Option.some.inj hread).symm
      rw [← map_entries, ← map_entries, hentries]
    · intro h
      have hentries : s₁.entries = s₂.entries := by
        rw [entries_eq_mapIdx, entries_eq_mapIdx, h]
      show s₁.renderHuman = s₂.renderHuman
      rw [renderHuman, renderHuman, hentries]

/-- Names that are wider than their column, that look like the columns behind them, and none at all. -/
def overlong : DataSet where
  objects := [⟨.bc, "  a name that is wider than its column by far.bc", .empty⟩,
    ⟨.log, "1  a.log                source                      7 bytes", "text".toUTF8⟩,
    ⟨.source, "", .empty⟩]

/-- The same names with one blank less in a name. -/
def overlongAlike : DataSet where
  objects := [⟨.bc, " a name that is wider than its column by far.bc", .empty⟩,
    ⟨.log, "1  a.log                source                      7 bytes", "text".toUTF8⟩,
    ⟨.source, "", .empty⟩]

theorem render_human_reads_back_of_overlong :
    (∀ o ∈ overlong.objects, EndsInSight o.name) ∧
    (∀ o ∈ overlongAlike.objects, EndsInSight o.name) ∧
    overlong.render .human ≠ overlongAlike.render .human ∧
    ∃ rows, Text.IsJoined '\n' (overlong.render .human) (rows ++ [""]) ∧ rows.length = 3 ∧
      ∃ row, rows[1]? = some row ∧ Entry.read? row =
        some ⟨1, "1  a.log                source                      7 bytes", .log, 4⟩ := by
  have hnames : ∀ o ∈ overlong.objects, EndsInSight o.name := by decide +kernel
  have halike : ∀ o ∈ overlongAlike.objects, EndsInSight o.name := by decide +kernel
  have hdiffer : overlong.objects.map (fun o => (o.name, o.kind, o.size)) ≠
      overlongAlike.objects.map fun o => (o.name, o.kind, o.size) := by decide +kernel
  have hget : overlong.get? 1 = some ⟨.log,
      "1  a.log                source                      7 bytes", "text".toUTF8⟩ := rfl
  have hsize : DataObject.size ⟨.log,
      "1  a.log                source                      7 bytes", "text".toUTF8⟩ = 4 := by
    decide +kernel
  obtain ⟨rows, hjoined, hlength, hrows⟩ := render_human_reads_back.1 overlong hnames
  obtain ⟨row, hrow, -, hread⟩ := hrows 1 _ hget
  refine ⟨hnames, halike, mt (render_human_reads_back.2 _ _ hnames halike).mp hdiffer, rows, hjoined,
    hlength, row, hrow, ?_⟩
  rw [hread, hsize]

end DeviceLibs.DataSet
