import DeviceLibs.Action

/-!
# Sessions

A session is a data set and a list of steps taken on it, one after the other. It goes on after a step
that fails, with the set that the step left.
-/

namespace DeviceLibs

/-- A question about a set. -/
inductive Query where
  | get (index : Nat)
  | find (name : String)
  | countKind (kind : DataKind)
  | isEmpty
  | objects
  deriving DecidableEq, Repr

inductive Step where
  | insert (object : DataObject)
  | commit (objects : List DataObject)
  | reserve (additional : Nat)
  | addHeader (language : Language)
  | addDeviceLibraries (isaName options : String) (language : Language)
  /-- Goes on with a copy of the set. -/
  | clone
  | query (question : Query)
  deriving DecidableEq

/-- What a step answers. -/
inductive Answer where
  | done
  | failed (error : SelectionError)
  | object (object : Option DataObject)
  | objects (objects : List DataObject)
  | count (n : Nat)
  | truth (b : Bool)
  deriving DecidableEq

/-- A step taken: the set after it, its answer, its events. -/
structure Outcome where
  set : DataSet
  answer : Answer
  events : List Event := []
  deriving DecidableEq

/-- The steps that do what an action asks for: its header first, then its libraries. -/
def Action.steps (a : Action) : List Step :=
  [.addHeader a.language, .addDeviceLibraries a.isaName a.options a.language]

def Query.answer (s : DataSet) : Query → Answer
  | get index => .object (s.get? index)
  | find name => .object (s.find? name)
  | countKind kind => .count (s.countKind kind)
  | isEmpty => .truth s.objects.isEmpty
  | objects => .objects s.objects

/-- The outcome of a step that edits the set. -/
def Outcome.ofEdited (x : Edited Unit) : Outcome where
  set := x.set
  answer :=
    match x.result with
    | .ok () => .done
    | .error e => .failed e
  events := x.events

namespace Step

def run (s : DataSet) : Step → Outcome
  | insert object => .ofEdited (Edit.insert object s)
  | commit objects => .ofEdited (Edit.commit objects s)
  | reserve additional => .ofEdited (Edit.reserve additional s)
  | addHeader language => .ofEdited (Edit.addHeader language s)
  | addDeviceLibraries isaName options language =>
    .ofEdited (Edit.addDeviceLibraries isaName options language s)
  | clone => ⟨s, .done, []⟩
  | query question => ⟨s, question.answer s, []⟩

/-- The outcomes of the steps, each taken on the set that the one before it left. -/
def runAll (s : DataSet) : List Step → List Outcome
  | [] => []
  | step :: rest => step.run s :: runAll (step.run s).set rest

/-- The set after all the steps. -/
def finalSet (s : DataSet) (steps : List Step) : DataSet := steps.foldl (fun s step => (step.run s).set) s

end Step

end DeviceLibs
