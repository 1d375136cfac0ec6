import DeviceLibs.Files.Tree
import DeviceLibs.Trace

/-!
# Effects on files

What a command does to a file tree is a list of effects. They are carried out in order up to the first
that fails; those before it remain. Each file that is written is an event.
-/

namespace DeviceLibs

inductive FileEffect where
  /-- Makes a directory with its missing parents. -/
  | makeDirectories (path : Path)
  | write (path : Path) (data : ByteArray)
  deriving DecidableEq

namespace FileEffect

/-- What is being done when the effect fails. -/
def context : FileEffect → String
  | makeDirectories path => s!"creating {path.text}"
  | write path _ => s!"writing {path.text}"

def perform (t : FileTree) (cwd : Location) : FileEffect → FileTree × Except FileError Unit
  | makeDirectories path => t.makeDirectories cwd path
  | write path data =>
    match t.writeFile cwd path data with
    | .ok t' => (t', .ok ())
    | .error e => (t, .error e)

/-- An effect that failed, and why. -/
structure Failure where
  effect : FileEffect
  error : FileError
  deriving DecidableEq

def Failure.message (f : Failure) : String := s!"{f.effect.context}: {f.error.message}"

/-- What is told of an effect once it is carried out. -/
def events : FileEffect → List Event
  | makeDirectories _ => []
  | write path data => [.wroteFile path.text data.size]

/-- The tree after the effects, or after those before the first that fails. -/
def performAll (t : FileTree) (cwd : Location) : List FileEffect → FileTree × Traced Failure Unit
  | [] => (t, pure ())
  | effect :: rest =>
    match effect.perform t cwd with
    | (t', .ok ()) =>
      let (t'', others) := performAll t' cwd rest
      (t'', ⟨effect.events ++ others.events, others.result⟩)
    | (t', .error error) => (t', .ofExcept (.error ⟨effect, error⟩))

end FileEffect

end DeviceLibs
