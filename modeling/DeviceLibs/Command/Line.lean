import DeviceLibs.Command.Basic
import DeviceLibs.Text.Cut

/-!
# Command lines

A command line is read from left to right. It names a command, some commands by two words, and gives
options before and after each word; what an option means where it stands is a matter of the words before
it. An option stands once between two words at most. One that is known everywhere may be given again
after a word, and then the later one counts.
-/

namespace DeviceLibs.CommandLine

inductive OptionName where
  | verbose
  | help
  | version
  | config
  | isa
  | options
  | language
  | out
  | format
  deriving DecidableEq, Repr

namespace OptionName

/-- The name after two dashes. -/
def name : OptionName → String
  | verbose => "verbose"
  | help => "help"
  | version => "version"
  | config => "config"
  | isa => "isa"
  | options => "options"
  | language => "language"
  | out => "out"
  | format => "format"

/-- The letter after a single dash. -/
def letter? : OptionName → Option Char
  | verbose => some 'v'
  | help => some 'h'
  | version => some 'V'
  | _ => none

def takesValue : OptionName → Bool
  | verbose | help | version => false
  | _ => true

/-- Whether a text can be the value of an option. A path is not empty. -/
def accepts (o : OptionName) (value : String) : Bool :=
  match o with
  | config | out => value ≠ ""
  | language => (Language.ofName? value).isSome
  | _ => true

end OptionName

/-- How far the words of a command line have led. -/
inductive Level where
  | program
  | init
  | isa
  | isaList
  | devlibs
  | pch
  deriving DecidableEq, Repr

namespace Level

/-- The options that may be given after the words that have led here. -/
def known : Level → List OptionName
  | program => [.verbose, .config, .help, .version]
  | devlibs => [.isa, .options, .language, .out, .format, .verbose, .config, .help]
  | pch => [.language, .out, .format, .verbose, .config, .help]
  | init | isa | isaList => [.verbose, .config, .help]

/-- The words that lead on. -/
def words : Level → List (String × Level)
  | program => [("init", init), ("isa", isa), ("devlibs", devlibs), ("pch", pch)]
  | isa => [("list", isaList)]
  | _ => []

/-- The word that asks for an explanation, known wherever there are words. -/
def helpWord : String := "help"

def option? (l : Level) (name : String) : Option OptionName := l.known.find? (·.name = name)

def letter? (l : Level) (c : Char) : Option OptionName := l.known.find? (·.letter? = some c)

end Level

/-- Why a command line asks for nothing to be done. -/
inductive Stop where
  | usage
  | help
  | version
  deriving DecidableEq, Repr

/-- What the help word asks for with the words after it. -/
def Level.explain (l : Level) : List String → Stop
  | [] => .help
  | word :: rest =>
    match l.words.lookup word with
    | some l' => l'.explain rest
    | none => if word = helpWord ∧ l.words ≠ [] ∧ rest = [] then .help else .usage

/-- What an argument is by its own text. -/
inductive Argument where
  /-- A word, or a value where one is awaited. The empty text and a dash alone are words. -/
  | word
  /-- Two dashes alone: only words may follow. -/
  | terminator
  | long (name : String) (value : Option String)
  | letters (letters : List Char)
  deriving DecidableEq, Repr

def Argument.ofText (text : String) : Argument :=
  match text.toList with
  | ['-', '-'] => .terminator
  | '-' :: '-' :: body =>
    match Text.cut '=' body with
    | none => .long (.ofList body) none
    | some (name, value) => .long (.ofList name) (some (.ofList value))
  | '-' :: c :: cs => .letters (c :: cs)
  | _ => .word

/-- What has been read of a command line. -/
structure Reading where
  level : Level := .program
  /-- The options since the last word. -/
  given : List OptionName := []
  /-- The values of all options, the last one first. -/
  values : List (OptionName × String) := []
  verbose : Bool := false
  deriving DecidableEq, Repr

namespace Reading

/-- The value of an option: the one that was given last. -/
def value? (r : Reading) (o : OptionName) : Option String := r.values.lookup o

/-- Goes on behind a word. -/
def enter (r : Reading) (l : Level) : Reading := { r with level := l, given := [] }

/-- Gives an option without a value. -/
def giveSwitch (r : Reading) (o : OptionName) : Except Stop Reading :=
  match o with
  | .help => .error .help
  | .version => .error .version
  | _ =>
    if o ∈ r.given then .error .usage
    else .ok { r with given := o :: r.given, verbose := true }

/-- Gives options by their letters, from left to right. -/
def giveLetters (r : Reading) : List Char → Except Stop Reading
  | [] => .ok r
  | c :: cs =>
    match r.level.letter? c with
    | none => .error .usage
    | some o => do giveLetters (← r.giveSwitch o) cs

/-- Gives an option with a value. -/
def giveValue (r : Reading) (o : OptionName) (value : String) : Except Stop Reading :=
  if o ∈ r.given ∨ o.accepts value = false then .error .usage
  else .ok { r with given := o :: r.given, values := (o, value) :: r.values }

/-- Reads on to the end. The value of an option stands behind an equals sign or is the next argument,
if that is a word. -/
def complete (r : Reading) : List String → Except Stop Reading
  | [] => .ok r
  | text :: rest =>
    match Argument.ofText text with
    | .word =>
      match r.level.words.lookup text with
      | some l => (r.enter l).complete rest
      | none =>
        if text = Level.helpWord ∧ r.level.words ≠ [] then .error (r.level.explain rest)
        else .error .usage
    | .terminator => if rest = [] then .ok r else .error .usage
    | .letters cs => do (← r.giveLetters cs).complete rest
    | .long name value =>
      match r.level.option? name with
      | none => .error .usage
      | some o =>
        match o.takesValue, value with
        | false, none => do (← r.giveSwitch o).complete rest
        | false, some _ => .error .usage
        | true, some v => do (← r.giveValue o v).complete rest
        | true, none =>
          match rest with
          | [] => .error .usage
          | v :: rest' =>
            if Argument.ofText v = .word then do (← r.giveValue o v).complete rest'
            else .error .usage

/-- The language that was given. -/
def language? (r : Reading) : Option Language := (r.value? .language).bind Language.ofName?

def path? (r : Reading) (o : OptionName) : Option Path := (r.value? o).map .mk

/-- The command that the words name. -/
def command? (r : Reading) : Option Command :=
  match r.level with
  | .program | .isa => none
  | .init => some .init
  | .isaList => some .isaList
  | .devlibs => some <|
    .devlibs (r.value? .isa) (r.value? .options) r.language? (r.path? .out) (r.value? .format)
  | .pch => some (.pch r.language? (r.path? .out) (r.value? .format))

end Reading

/-- The request that a command line makes. -/
def parse (arguments : List String) : Except Stop Request := do
  let r ← Reading.complete {} arguments
  match r.command? with
  | none => throw .usage
  | some command => return { command, config := r.path? .config, verbose := r.verbose }

end DeviceLibs.CommandLine
