import DeviceLibs.Data.Object
import DeviceLibs.OptionFlags
import DeviceLibs.Target.Identifier
import DeviceLibs.Text.Quoted

/-!
# Events

What is told of the work while it goes on. A `Traced` computation is a result, good or bad, with the
events on the way to it; the events of an earlier part come before those of a later one, and an error
ends both.
-/

namespace DeviceLibs

inductive Event where
  | parsedTarget (isaName processor : String) (features : List String)
  | optionEnabled (token : String)
  | selectedLibraries (isaName : String) (version : ArchVersion) (options : OptionFlags)
  | stagedBlob (name : String) (size : Nat) (kind : DataKind)
  | committedObjects (count total : Nat)
  | loadedConfig (path : String)
  | wroteFile (path : String) (size : Nat)
  deriving DecidableEq, Repr

inductive EventLevel where
  | trace
  | debug
  deriving DecidableEq, Repr

/-- A value that an event reports. -/
inductive EventValue where
  /-- A text that a log shows in quotes. -/
  | quoted (text : String)
  /-- A text that stands in a log as it is: a number, a fixed name, a path. -/
  | plain (text : String)
  deriving DecidableEq, Repr

namespace EventValue

def text : EventValue → String
  | quoted s | plain s => s

/-- The value as a log shows it. -/
def logged : EventValue → String
  | quoted s => Text.quoted s
  | plain s => s

end EventValue

/-- A text in a style of a terminal, which is reset behind it. -/
def styled (code : Nat) (text : String) : String := s!"\x1b[{code}m{text}\x1b[0m"

/-- The name of a level in its colour. -/
def EventLevel.logged : EventLevel → String
  | trace => styled 35 "TRACE"
  | debug => styled 34 "DEBUG"

namespace Event

def level : Event → EventLevel
  | parsedTarget .. | optionEnabled .. => .trace
  | selectedLibraries .. | stagedBlob .. | committedObjects .. | loadedConfig .. | wroteFile .. =>
    .debug

def message : Event → String
  | parsedTarget .. => "parsed target identifier"
  | optionEnabled .. => "option enabled"
  | selectedLibraries .. => "selected device libraries"
  | stagedBlob .. => "staging embedded object"
  | committedObjects .. => "committing data objects"
  | loadedConfig .. => "loaded configuration"
  | wroteFile .. => "wrote object"

/-- The named values that an event reports. -/
def fields : Event → List (String × EventValue)
  | parsedTarget isaName processor features =>
    [("isa_name", .quoted isaName), ("processor", .quoted processor),
      ("features", .plain (Text.quotedList features))]
  | optionEnabled token => [("option", .quoted token)]
  | selectedLibraries isaName version options =>
    [("isa_name", .quoted isaName), ("version", .plain version.digits),
      ("options", .plain options.options)]
  | stagedBlob name size kind =>
    [("name", .quoted name), ("size", .plain (toString size)), ("kind", .plain kind.name)]
  | committedObjects count total =>
    [("count", .plain (toString count)), ("total", .plain (toString total))]
  | loadedConfig path => [("path", .plain path)]
  | wroteFile path size => [("path", .plain path), ("size", .plain (toString size))]

/-- An event as a line of a log: the level in a colour, names in italics, the sign behind them dimmed.
A path that holds a line break breaks the line. -/
def line (e : Event) : String :=
  let fields := e.fields.map fun (name, value) =>
    " " ++ styled 3 name ++ styled 2 "=" ++ value.logged
  e.level.logged ++ " " ++ e.message ++ String.join fields ++ "\n"

end Event

structure Traced (ε α : Type) where
  events : List Event
  result : Except ε α

namespace Traced

variable {ε ε' α β : Type}

instance : Monad (Traced ε) where
  pure a := ⟨[], .ok a⟩
  bind x f :=
    match x.result with
    | .error e => ⟨x.events, .error e⟩
    | .ok a => ⟨x.events ++ (f a).events, (f a).result⟩

/-- A result that is reached without events. -/
def ofExcept (result : Except ε α) : Traced ε α := ⟨[], result⟩

def emit (e : Event) : Traced ε Unit := ⟨[e], .ok ()⟩

def mapError (f : ε → ε') (x : Traced ε α) : Traced ε' α := ⟨x.events, x.result.mapError f⟩

@[simp] theorem result_pure (a : α) : (pure a : Traced ε α).result = .ok a := rfl

@[simp] theorem events_pure (a : α) : (pure a : Traced ε α).events = [] := rfl

@[simp] theorem result_ofExcept (r : Except ε α) : (ofExcept r).result = r := rfl

@[simp] theorem events_ofExcept (r : Except ε α) : (ofExcept r).events = [] := rfl

@[simp] theorem result_emit (e : Event) : (emit e : Traced ε Unit).result = .ok () := rfl

@[simp] theorem events_emit (e : Event) : (emit e : Traced ε Unit).events = [e] := rfl

@[simp] theorem result_mapError (f : ε → ε') (x : Traced ε α) :
    (x.mapError f).result = x.result.mapError f := rfl

@[simp] theorem events_mapError (f : ε → ε') (x : Traced ε α) :
    (x.mapError f).events = x.events := rfl

theorem result_bind (x : Traced ε α) (f : α → Traced ε β) :
    (x >>= f).result = x.result >>= fun a => (f a).result := by
  cases x with | mk events result => cases result <;> rfl

theorem events_bind (x : Traced ε α) (f : α → Traced ε β) :
    (x >>= f).events = x.events ++
      match x.result with
      | .ok a => (f a).events
      | .error _ => [] := by
  cases x with
  | mk events result =>
    cases result with
    | error e => exact (List.append_nil events).symm
    | ok a => rfl

theorem bind_of_ok {x : Traced ε α} {a : α} (h : x.result = .ok a) (f : α → Traced ε β) :
    x >>= f = ⟨x.events ++ (f a).events, (f a).result⟩ := by
  cases x with | mk events result => cases h; rfl

theorem bind_of_error {x : Traced ε α} {e : ε} (h : x.result = .error e) (f : α → Traced ε β) :
    x >>= f = ⟨x.events, .error e⟩ := by
  cases x with | mk events result => cases h; rfl

/-- A result that is reached in two parts is reached through that of the first. -/
theorem exists_of_bind {x : Except ε α} {f : α → Except ε β} {b : β} (h : x >>= f = .ok b) :
    ∃ a, x = .ok a ∧ f a = .ok b := by
  cases x with
  | error e => cases h
  | ok a => exact ⟨a, rfl, h⟩

end Traced

end DeviceLibs
