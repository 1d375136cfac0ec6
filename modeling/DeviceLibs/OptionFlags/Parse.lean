import DeviceLibs.Error
import DeviceLibs.Trace

/-!
# Reading option strings

An option string is a list of tokens with commas between them; empty pieces do not count. Each token
has to be one of the four and may be given once. Reading goes from left to right, tells of each token
that it accepts and stops at the first that it does not.
-/

namespace DeviceLibs.OptionFlags

/-- The pieces between the commas that are not empty. -/
def tokens (options : String) : List String :=
  ((options.toList.splitOn ',').filter (· ≠ [])).map .ofList

/-- Switches on the flag of one more token. -/
def accept (flags : OptionFlags) (token : String) : Except SelectionError OptionFlags :=
  match OptionFlag.ofToken? token with
  | none => .error (.unknownOption token)
  | some flag =>
    if flags.get flag then .error (.duplicateOption token) else .ok (flags.enable flag)

def acceptAll (flags : OptionFlags) : List String → Traced SelectionError OptionFlags
  | [] => pure flags
  | token :: rest => do
    let flags ← .ofExcept (flags.accept token)
    .emit (.optionEnabled token)
    acceptAll flags rest

/-- Reads an option string, with the events. -/
def read (options : String) : Traced SelectionError OptionFlags := acceptAll allOff (tokens options)

def parse (options : String) : Except SelectionError OptionFlags := (read options).result

theorem acceptAll_of_error {flags : OptionFlags} {token : String} {e : SelectionError}
    (h : flags.accept token = .error e) (rest : List String) :
    acceptAll flags (token :: rest) = ⟨[], .error e⟩ :=
  Traced.bind_of_error (x := .ofExcept (flags.accept token)) h _

theorem acceptAll_of_ok {flags flags' : OptionFlags} {token : String}
    (h : flags.accept token = .ok flags') (rest : List String) :
    acceptAll flags (token :: rest) =
      ⟨.optionEnabled token :: (acceptAll flags' rest).events, (acceptAll flags' rest).result⟩ := by
  rw [acceptAll, Traced.bind_of_ok (x := .ofExcept (flags.accept token)) h]
  rfl

end DeviceLibs.OptionFlags
