import DeviceLibs.Data.Bytes
import DeviceLibs.Files.Path

/-!
# File trees

A file tree holds files and directories at locations, and whatever it holds lies in a directory. Paths
are resolved name by name, from the root or from a working directory: each name but the last has to
lead to a directory, `..` leads up.

* `lookup_put`, `lookup_put_of_ne`: an entry is put at its location, and nothing else changes.
-/

namespace DeviceLibs

/-- Why an operation on files fails. -/
inductive FileError where
  | notFound
  | alreadyExists
  | notADirectory
  | isADirectory
  | nameTooLong
  | invalidUtf8
  | nulInName
  /-- Anything else that an operating system may say. -/
  | system (text : String)
  deriving DecidableEq, Repr

def FileError.message : FileError → String
  | notFound => "No such file or directory (os error 2)"
  | alreadyExists => "File exists (os error 17)"
  | notADirectory => "Not a directory (os error 20)"
  | isADirectory => "Is a directory (os error 21)"
  | nameTooLong => "File name too long (os error 36)"
  | invalidUtf8 => "stream did not contain valid UTF-8"
  | nulInName => "file name contained an unexpected NUL byte"
  | system text => text

inductive FileEntry where
  | file (data : ByteArray)
  | directory
  deriving DecidableEq

/-- The names that lead from the root to a place, the last one first. -/
abbrev Location := List String

namespace Location

/-- The absolute path of a location. -/
def path (l : Location) : Path := ⟨"/" ++ "/".intercalate l.reverse⟩

end Location

/-- The entry at a location. The root is always a directory. -/
def entryAt (entries : List (Location × FileEntry)) : Location → Option FileEntry
  | [] => some .directory
  | l => entries.lookup l

structure FileTree where
  entries : List (Location × FileEntry)
  /-- What exists lies in a directory. -/
  closed : ∀ name parent, (entryAt entries (name :: parent)).isSome →
    entryAt entries parent = some .directory

namespace FileTree

def empty : FileTree := ⟨[], by simp [entryAt]⟩

instance : Inhabited FileTree := ⟨empty⟩

def lookup (t : FileTree) (l : Location) : Option FileEntry := entryAt t.entries l

theorem lookup_parent {t : FileTree} {name : String} {parent : Location}
    (h : (t.lookup (name :: parent)).isSome) : t.lookup parent = some .directory :=
  t.closed name parent h

theorem entryAt_cons_eq {entries : List (Location × FileEntry)} (name : String)
    (parent l : Location) (e : FileEntry) :
    entryAt ((name :: parent, e) :: entries) l =
      if l = name :: parent then some e else entryAt entries l := by
  cases l with
  | nil => simp [entryAt]
  | cons n p =>
    by_cases h : n :: p = name :: parent
    · simp [entryAt, h]
    · have hb : ((n :: p) == (name :: parent)) = false := by simpa using h
      simp [entryAt, List.lookup_cons, h, hb]

/-- Puts an entry into a directory. A directory is not replaced by a file. -/
def put (t : FileTree) (name : String) (parent : Location) (e : FileEntry)
    (hp : t.lookup parent = some .directory)
    (he : e = .directory ∨ t.lookup (name :: parent) ≠ some .directory) : FileTree where
  entries := (name :: parent, e) :: t.entries
  closed n p h := by
    rw [entryAt_cons_eq] at h ⊢
    have hold : entryAt t.entries p = some .directory := by
      split at h
      next heq =>
        cases heq
        exact hp
      · exact t.closed n p h
    split
    next heq =>
      subst heq
      cases he with
      | inl he => rw [he]
      | inr he => exact absurd hold he
    · exact hold

theorem lookup_put {t : FileTree} {name : String} {parent : Location} {e : FileEntry}
    (hp : t.lookup parent = some .directory)
    (he : e = .directory ∨ t.lookup (name :: parent) ≠ some .directory) (l : Location) :
    (t.put name parent e hp he).lookup l = if l = name :: parent then some e else t.lookup l :=
  entryAt_cons_eq name parent l e

theorem lookup_put_of_ne {t : FileTree} {name : String} {parent l : Location} {e : FileEntry}
    (hp : t.lookup parent = some .directory)
    (he : e = .directory ∨ t.lookup (name :: parent) ≠ some .directory)
    (hl : l ≠ name :: parent) : (t.put name parent e hp he).lookup l = t.lookup l := by
  rw [lookup_put, if_neg hl]

/-- Every location that holds something, the root apart, with what it holds. -/
def contents (t : FileTree) : List (Location × FileEntry) :=
  (t.entries.map (·.1)).eraseDups.filterMap fun l => (t.lookup l).map (l, ·)

/-! ## Resolving paths -/

/-- Bytes that a name may have. -/
def nameBound : Nat := 255

/-- Bytes that a path may have. -/
def pathBound : Nat := 4095

/-- Follows names from a location. Whatever has a name after it has to be a directory. -/
def walk (t : FileTree) (l : Location) : List String → Except FileError Location
  | [] => .ok l
  | name :: rest =>
    if t.lookup l ≠ some .directory then .error .notADirectory
    else if name = "." then t.walk l rest
    else if name = ".." then t.walk l.tail rest
    else if nameBound < name.utf8ByteSize then .error .nameTooLong
    else if (t.lookup (name :: l)).isSome then t.walk (name :: l) rest
    else .error .notFound

/-- Refuses the texts that lead nowhere in any tree. -/
def checkPath (p : Path) : Except FileError Unit :=
  if '\x00' ∈ p.text.toList then .error .nulInName
  else if p.text = "" then .error .notFound
  else if pathBound < p.text.utf8ByteSize then .error .nameTooLong
  else .ok ()

/-- Where the names of a path are followed from. -/
def start (cwd : Location) (p : Path) : Location := if p.isAbsolute then [] else cwd

/-- The location and entry that a path leads to. A slash at the end asks for a directory. -/
def resolve (t : FileTree) (cwd : Location) (p : Path) : Except FileError (Location × FileEntry) := do
  checkPath p
  let l ← t.walk (start cwd p) p.names
  match t.lookup l with
  | none => throw .notFound
  | some .directory => return (l, .directory)
  | some (.file data) => if p.endsInSlash then throw .notADirectory else return (l, .file data)

/-- What a path leads to. -/
def view (t : FileTree) (cwd : Location) (p : Path) : Except FileError FileEntry :=
  (t.resolve cwd p).map (·.2)

def isDirectory (t : FileTree) (cwd : Location) (p : Path) : Bool :=
  match t.view cwd p with
  | .ok .directory => true
  | _ => false

/-- The directory that the last name of a path is in, and that name. The name is missing when the path
ends in `.` or `..` or has no names. -/
def resolveLast (t : FileTree) (cwd : Location) (p : Path) :
    Except FileError (Location × Option String) := do
  checkPath p
  match p.names.getLast? with
  | none => return ([], none)
  | some name =>
    let l ← t.walk (start cwd p) p.names.dropLast
    if t.lookup l ≠ some .directory then throw .notADirectory
    else if name = "." ∨ name = ".." then return (l, none)
    else return (l, some name)

/-! ## Changing the tree -/

/-- Makes a directory where nothing is, in a directory that exists. -/
def makeDirectory (t : FileTree) (cwd : Location) (p : Path) : Except FileError FileTree := do
  match ← t.resolveLast cwd p with
  | (_, none) => throw .alreadyExists
  | (l, some name) =>
    if nameBound < name.utf8ByteSize then throw .nameTooLong
    else if (t.lookup (name :: l)).isSome then throw .alreadyExists
    else if hp : t.lookup l = some .directory then
      return t.put name l .directory hp (.inl rfl)
    else throw .notADirectory

/-- Writes a file, new or in place of an old one, in a directory that exists. -/
def writeFile (t : FileTree) (cwd : Location) (p : Path) (data : ByteArray) :
    Except FileError FileTree := do
  match ← t.resolveLast cwd p with
  | (_, none) => throw .isADirectory
  | (l, some name) =>
    if p.endsInSlash then throw .isADirectory
    else if nameBound < name.utf8ByteSize then throw .nameTooLong
    else if hd : t.lookup (name :: l) = some .directory then throw .isADirectory
    else if hp : t.lookup l = some .directory then
      return t.put name l (.file data) hp (.inr hd)
    else throw .notADirectory

/-- Makes the first path of the list a directory, and first the next ones as far as they are missing.
What is made before a failure remains. -/
def makeChain (t : FileTree) (cwd : Location) : List Path → FileTree × Except FileError Unit
  | [] => (t, .ok ())
  | p :: above =>
    match t.makeDirectory cwd p with
    | .ok t' => (t', .ok ())
    | .error .notFound =>
      match t.makeChain cwd above with
      | (t', .error e) => (t', .error e)
      | (t', .ok ()) =>
        match t'.makeDirectory cwd p with
        | .ok t'' => (t'', .ok ())
        | .error e =>
          if e = .alreadyExists ∧ t'.isDirectory cwd p then (t', .ok ()) else (t', .error e)
    | .error e =>
      if e = .alreadyExists ∧ t.isDirectory cwd p then (t, .ok ()) else (t, .error e)

/-- Makes a directory and its missing parents. The root and the empty path are there already. -/
def makeDirectories (t : FileTree) (cwd : Location) (p : Path) : FileTree × Except FileError Unit :=
  t.makeChain cwd (p.ancestors.takeWhile fun a => a.text ≠ "" && a.parents ≠ [])

end FileTree

end DeviceLibs
