/-!
# Paths

A path is a text. `join` and `parents` work on the text alone: a parent is what is left when the last
name is taken off, `..` is a name like any other, and nothing has to exist. What a path leads to is a
matter of the file tree.
-/

namespace DeviceLibs

structure Path where
  text : String
  deriving DecidableEq, Repr

namespace Path

def isAbsolute (p : Path) : Bool := p.text.toList.head? = some '/'

def endsInSlash (p : Path) : Bool := p.text.toList.getLast? = some '/'

/-- The path of `name` in the directory `p`. An absolute name stands for itself. -/
def join (p : Path) (name : String) : Path :=
  if (Path.mk name).isAbsolute then ⟨name⟩
  else if p.text = "" || p.endsInSlash then ⟨p.text ++ name⟩
  else ⟨p.text ++ "/" ++ name⟩

/-- The names of a path, `.` and `..` included. -/
def names (p : Path) : List String :=
  ((p.text.toList.splitOn '/').filter (· ≠ [])).map .ofList

/-! ## Parents -/

/-- Whether a piece between slashes does not count: it is empty or a single dot. -/
def isIdle (piece : List Char) : Bool := piece = [] || piece = ['.']

/-- The slash of an absolute path or the dot that a relative path starts with, and what follows. -/
def splitRoot : List Char → List Char × List Char
  | '/' :: body => (['/'], body)
  | ['.'] => (['.'], [])
  | '.' :: '/' :: body => (['.'], '/' :: body)
  | body => ([], body)

/-- The paths with the last name taken off, with the last two, and so on, from the pieces in reverse.
A dot at the start is taken off last, a slash is not. -/
def parentsOf (root : List Char) : List (List Char) → List Path
  | [] => if root = ['.'] then [⟨""⟩] else []
  | piece :: before =>
    if isIdle piece then parentsOf root before
    else
      ⟨.ofList (root ++ ['/'].intercalate (before.dropWhile isIdle).reverse)⟩ ::
        parentsOf root before

/-- The parent of a path, the parent of that, and so on to the last. -/
def parents (p : Path) : List Path :=
  let (root, body) := splitRoot p.text.toList
  parentsOf root (body.splitOn '/').reverse

/-- The path itself and its parents. -/
def ancestors (p : Path) : List Path := p :: p.parents

end Path

end DeviceLibs
