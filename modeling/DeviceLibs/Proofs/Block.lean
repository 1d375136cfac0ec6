import DeviceLibs.Action
import DeviceLibs.Proofs.Table

/-!
# Blocks

A block is what one successful call adds to a set: the precompiled header of a dialect, or the eight
libraries of a version and a set of flags. A block tells its kind and its names, and the table the
bytes.

* `Describes.eq_objects`: a block and the table leave nothing open, not even the bytes.
* `names_append_inj`: no block is a prefix of another, read by the names alone.
* `IsSplit.unique`: objects split into blocks in one way at most.
-/

namespace DeviceLibs

inductive Block where
  | header (language : Language)
  | libraries (version : ArchVersion) (flags : OptionFlags)
  deriving DecidableEq, Repr

namespace Block

/-- Whether the table has what the block calls for. -/
def IsSupported : Block → Prop
  | header language => language.isOpenCL = true
  | libraries version _ => version ∈ ArchVersion.supported

def kind : Block → DataKind
  | header _ => .precompiledHeader
  | libraries .. => .bc

def names : Block → List String
  | header .openCL12 => ["opencl1.2-c.pch"]
  | header .openCL20 => ["opencl2.0-c.pch"]
  | header _ => []
  | libraries version flags => Blob.bundleNames version flags

/-- The entries of the table under the names of the block. -/
def blobs (b : Block) : List Blob := b.names.filterMap Blob.find?

def objects (b : Block) : List DataObject := b.blobs.map (Blob.toObject b.kind)

/-- `objects` are those of a supported block, as far as kinds and names tell. -/
structure Describes (b : Block) (objects : List DataObject) : Prop where
  supported : b.IsSupported
  names : objects.map DataObject.name = b.names
  kind : ∀ o ∈ objects, o.kind = b.kind

end Block

/-- The object holds the bytes that the table has under its name. -/
def DataObject.IsFromTable (o : DataObject) : Prop :=
  ∃ b, Blob.find? o.name = some b ∧ o.data = b.bytes

namespace Block

variable {b c : Block}

/-! ### The objects of a block -/

theorem isSome_find?_names (hb : b.IsSupported) : ∀ n ∈ b.names, (Blob.find? n).isSome := by
  match b, hb with
  | header .openCL12, _ => decide +kernel
  | header .openCL20, _ => decide +kernel
  | libraries v flags, hb => exact Blob.isSome_find?_bundleNames hb flags

theorem map_name_blobs (hb : b.IsSupported) : b.blobs.map Blob.name = b.names :=
  Blob.map_name_filterMap_find? (isSome_find?_names hb)

theorem describes_objects (hb : b.IsSupported) : b.Describes b.objects where
  supported := hb
  names := by
    rw [objects, List.map_map, ← map_name_blobs hb]
    rfl
  kind := by
    intro o ho
    obtain ⟨blob, -, rfl⟩ := List.mem_map.mp ho
    rfl

theorem length_objects (hb : b.IsSupported) : b.objects.length = b.names.length := by
  rw [← (describes_objects hb).names, List.length_map]

theorem length_names_of_bc (hk : b.kind = .bc) : b.names.length = 8 := by
  cases b with
  | header language => cases hk
  | libraries v flags => exact Blob.length_bundleNames v flags

theorem length_names_of_header (hb : b.IsSupported) (hk : b.kind = .precompiledHeader) :
    b.names.length = 1 := by
  match b, hb with
  | header .openCL12, _ => rfl
  | header .openCL20, _ => rfl
  | libraries v flags, _ => cases hk

theorem countP_objects (hb : b.IsSupported) (k : DataKind) :
    b.objects.countP (·.kind = k) = if b.kind = k then b.names.length else 0 := by
  have hk := (describes_objects hb).kind
  rw [← length_objects hb]
  split_ifs with h
  · exact List.countP_eq_length.mpr fun o ho => by simp [hk o ho, h]
  · exact List.countP_eq_zero.mpr fun o ho => by simp [hk o ho, h]

/-- Blocks of one kind count by how many there are, if they are all of one size. -/
theorem countP_flatMap_objects {bs : List Block} {k : DataKind} {n : Nat}
    (h : ∀ b ∈ bs, b.IsSupported) (hn : ∀ b ∈ bs, b.kind = k → b.names.length = n) :
    (bs.flatMap objects).countP (·.kind = k) = n * bs.countP (·.kind = k) := by
  induction bs with
  | nil => rfl
  | cons b bs ih =>
    rw [List.flatMap_cons, List.countP_append, countP_objects (h b List.mem_cons_self),
      ih (fun c hc => h c (List.mem_cons_of_mem _ hc)) fun c hc => hn c (List.mem_cons_of_mem _ hc),
      List.countP_cons, Nat.mul_add, Nat.add_comm]
    by_cases hk : b.kind = k
    · simp [hk, hn b List.mem_cons_self hk]
    · simp [hk]

theorem isFromTable_of_mem_objects {o : DataObject} (ho : o ∈ b.objects) : o.IsFromTable := by
  obtain ⟨blob, hblob, rfl⟩ := List.mem_map.mp ho
  obtain ⟨n, -, hn⟩ := List.mem_filterMap.mp hblob
  exact ⟨blob, by rw [← hn]; exact congrArg Blob.find? (Blob.name_of_find? hn), rfl⟩

/-- Kind, name and origin are all that there is to an object. -/
theorem toObject_eq_of_isFromTable {o : DataObject} {k : DataKind} (hk : o.kind = k)
    (ho : o.IsFromTable) : (Blob.find? o.name).map (Blob.toObject k) = some o := by
  obtain ⟨blob, hblob, hd⟩ := ho
  rw [hblob, Option.map_some, Blob.toObject, Blob.name_of_find? hblob, ← hd, ← hk]

theorem Describes.eq_objects {os : List DataObject} (h : b.Describes os)
    (ht : ∀ o ∈ os, o.IsFromTable) : os = b.objects := by
  have key : ∀ l : List DataObject, (∀ o ∈ l, o.kind = b.kind ∧ o.IsFromTable) →
      ((l.map DataObject.name).filterMap Blob.find?).map (Blob.toObject b.kind) = l := by
    intro l hl
    rw [List.filterMap_map, List.map_filterMap]
    refine (List.filterMap_congr (g := some) fun o ho => ?_).trans List.filterMap_some
    exact toObject_eq_of_isFromTable (hl o ho).1 (hl o ho).2
  rw [objects, blobs, ← h.names]
  exact (key os fun o ho => ⟨h.kind o ho, ht o ho⟩).symm

/-- The objects of a block are told by their names, their kind and where their bytes are from. -/
theorem eq_objects_iff (hb : b.IsSupported) {os : List DataObject} : os = b.objects ↔
    os.map DataObject.name = b.names ∧ ∀ o ∈ os, o.kind = b.kind ∧ o.IsFromTable := by
  constructor
  · rintro rfl
    exact ⟨(describes_objects hb).names,
      fun o ho => ⟨(describes_objects hb).kind o ho, isFromTable_of_mem_objects ho⟩⟩
  · rintro ⟨hn, ho⟩
    exact Describes.eq_objects ⟨hb, hn, fun o h => (ho o h).1⟩ fun o h => (ho o h).2

theorem selectHeader_eq_require {language : Language} (hl : language.isOpenCL = true) :
    ∃ n, (header language).names = [n] ∧ Blob.selectHeader language = Blob.require n := by
  match language, hl with
  | .openCL12, _ => exact ⟨_, rfl, rfl⟩
  | .openCL20, _ => exact ⟨_, rfl, rfl⟩

theorem result_stageHeader {language : Language} (hl : language.isOpenCL = true) :
    (Blob.stageHeader language).result = .ok (header language).objects := by
  obtain ⟨n, hn, hsel⟩ := selectHeader_eq_require hl
  have hsome : (Blob.find? n).isSome := isSome_find?_names (b := header language) hl n (by simp [hn])
  obtain ⟨b, hb⟩ := Option.isSome_iff_exists.mp hsome
  rw [Blob.stageHeader, hsel, Blob.require_of_find? hb, objects, blobs, hn,
    List.filterMap_cons_some hb]
  rfl

theorem result_stageHeader_of_not {language : Language} (hl : language.isOpenCL = false) :
    (Blob.stageHeader language).result = .error (.unsupportedLanguage language) := by
  match language, hl with
  | .none, _ => rfl
  | .hc, _ => rfl

/-! ### Names tell blocks apart -/

theorem controlName_injective (f : OptionFlag) : Function.Injective (Blob.controlName f) := by
  intro x y
  revert x y
  cases f <;> decide +kernel

theorem bundleNames_inj {v w : ArchVersion} {f g : OptionFlags}
    (h : Blob.bundleNames v f = Blob.bundleNames w g) : v = w ∧ f = g := by
  obtain ⟨hv, hf⟩ := List.cons_eq_cons.mp (List.append_cancel_left h)
  refine ⟨Blob.isaVersionName_injective hv, OptionFlags.ext_get fun flag => ?_⟩
  exact controlName_injective flag (List.map_inj_left.mp hf flag (OptionFlag.mem_all flag))

theorem names_ne_nil (hb : b.IsSupported) : b.names ≠ [] := by
  match b, hb with
  | header .openCL12, _ => decide
  | header .openCL20, _ => decide
  | libraries v flags, _ => exact List.cons_ne_nil _ _

/-- No block is a prefix of another. -/
theorem names_append_inj (hb : b.IsSupported) (hc : c.IsSupported) {r r' : List String}
    (h : b.names ++ r = c.names ++ r') : b = c ∧ r = r' := by
  match b, c, hb, hc with
  | header .openCL12, header .openCL12, _, _ => exact ⟨rfl, List.append_cancel_left h⟩
  | header .openCL20, header .openCL20, _, _ => exact ⟨rfl, List.append_cancel_left h⟩
  | libraries v f, libraries w g, _, _ =>
    obtain ⟨hn, hr⟩ := List.append_inj h (by rw [names, names, Blob.length_bundleNames,
      Blob.length_bundleNames])
    obtain ⟨rfl, rfl⟩ := bundleNames_inj hn
    exact ⟨rfl, hr⟩
  -- blocks of two kinds, or of two dialects, differ in their first names
  | header .openCL12, header .openCL20, _, _ | header .openCL20, header .openCL12, _, _
  | header .openCL12, libraries .., _, _ | header .openCL20, libraries .., _, _
  | libraries .., header .openCL12, _, _ | libraries .., header .openCL20, _, _ =>
    simp [names, Blob.bundleNames, Blob.commonNames] at h

/-! ### Splitting objects into blocks -/

/-- Consecutive parts of `objects`, each described by the block beside it. -/
structure IsSplit (parts : List (Block × List DataObject)) (objects : List DataObject) : Prop where
  describes : ∀ p ∈ parts, p.1.Describes p.2
  flatten : (parts.map Prod.snd).flatten = objects

/-- The objects of blocks, one block after the other, split into these blocks. -/
theorem isSplit_flatMap_objects {bs : List Block} (h : ∀ b ∈ bs, b.IsSupported) :
    IsSplit (bs.map fun b => (b, b.objects)) (bs.flatMap objects) where
  describes := by
    intro p hp
    obtain ⟨b, hb, rfl⟩ := List.mem_map.mp hp
    exact describes_objects (h b hb)
  flatten := by
    rw [List.map_map, List.flatMap_def]
    rfl

theorem IsSplit.nil_of_nil {ps : List (Block × List DataObject)} (h : IsSplit ps []) : ps = [] := by
  cases ps with
  | nil => rfl
  | cons p ps =>
    have hp := h.describes p (by simp)
    have hnil : p.2 = [] := by
      have hf := h.flatten
      rw [List.map_cons, List.flatten_cons] at hf
      exact (List.append_eq_nil_iff.mp hf).1
    exact absurd (hp.names.symm.trans (by rw [hnil]; rfl)) (names_ne_nil hp.supported)

theorem IsSplit.unique {ps qs : List (Block × List DataObject)} {os : List DataObject}
    (hp : IsSplit ps os) (hq : IsSplit qs os) : ps = qs := by
  induction ps generalizing qs os with
  | nil =>
    obtain rfl : os = [] := hp.flatten.symm
    exact hq.nil_of_nil.symm
  | cons p ps ih =>
    cases qs with
    | nil =>
      obtain rfl : os = [] := hq.flatten.symm
      exact hp.nil_of_nil
    | cons q qs =>
      have hpd := hp.describes p (by simp)
      have hqd := hq.describes q (by simp)
      have hos : p.2 ++ (ps.map Prod.snd).flatten = q.2 ++ (qs.map Prod.snd).flatten := by
        simpa using hp.flatten.trans hq.flatten.symm
      have hblock : p.1 = q.1 := by
        have hn := congrArg (List.map DataObject.name) hos
        rw [List.map_append, List.map_append, hpd.names, hqd.names] at hn
        exact (names_append_inj hpd.supported hqd.supported hn).1
      have hlen : p.2.length = q.2.length := by
        rw [← List.length_map DataObject.name, hpd.names, hblock, ← hqd.names, List.length_map]
      obtain ⟨hpart, hrest⟩ := List.append_inj hos hlen
      have htail : ps = qs := ih ⟨fun r hr => hp.describes r (by simp [hr]), rfl⟩
        ⟨fun r hr => hq.describes r (by simp [hr]), hrest.symm⟩
      rw [htail, Prod.ext hblock hpart]

end Block

end DeviceLibs
