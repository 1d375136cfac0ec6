import DeviceLibs.Text.Case

/-!
# Option flags

Four switches govern the arithmetic of a kernel. Each has a token that switches it on, and the flags
that are on are written as their tokens with commas between them.
-/

namespace DeviceLibs

inductive OptionFlag where
  | correctlyRoundedSqrt
  | dazOpt
  | finiteOnly
  | unsafeMath
  deriving DecidableEq, Repr

namespace OptionFlag

/-- Every flag, in the order in which its control library is linked. -/
def all : List OptionFlag := [correctlyRoundedSqrt, dazOpt, finiteOnly, unsafeMath]

def token : OptionFlag → String
  | correctlyRoundedSqrt => "correctly_rounded_sqrt"
  | dazOpt => "daz_opt"
  | finiteOnly => "finite_only"
  | unsafeMath => "unsafe_math"

/-- The name of the flag, a capital at the start of each word. -/
def title : OptionFlag → String
  | correctlyRoundedSqrt => "CorrectlyRoundedSqrt"
  | dazOpt => "DazOpt"
  | finiteOnly => "FiniteOnly"
  | unsafeMath => "UnsafeMath"

/-- The name in JSON. -/
def encodedName (f : OptionFlag) : String := Text.snakeCase f.title

/-- The flag of that exact token. -/
def ofToken? (token : String) : Option OptionFlag := all.find? (·.token = token)

theorem mem_all (f : OptionFlag) : f ∈ all := by cases f <;> decide

theorem ofToken?_token (f : OptionFlag) : ofToken? f.token = some f := by cases f <;> decide

theorem token_injective {f g : OptionFlag} (h : f.token = g.token) : f = g := by
  have hsome := congrArg ofToken? h
  rw [ofToken?_token, ofToken?_token] at hsome
  exact Option.some.inj hsome

end OptionFlag

structure OptionFlags where
  correctlyRoundedSqrt : Bool := false
  dazOpt : Bool := false
  finiteOnly : Bool := false
  unsafeMath : Bool := false
  deriving DecidableEq, Repr

namespace OptionFlags

/-- No flag is on. -/
def allOff : OptionFlags := {}

instance : Inhabited OptionFlags := ⟨allOff⟩

def get (flags : OptionFlags) : OptionFlag → Bool
  | .correctlyRoundedSqrt => flags.correctlyRoundedSqrt
  | .dazOpt => flags.dazOpt
  | .finiteOnly => flags.finiteOnly
  | .unsafeMath => flags.unsafeMath

def enable (flags : OptionFlags) : OptionFlag → OptionFlags
  | .correctlyRoundedSqrt => { flags with correctlyRoundedSqrt := true }
  | .dazOpt => { flags with dazOpt := true }
  | .finiteOnly => { flags with finiteOnly := true }
  | .unsafeMath => { flags with unsafeMath := true }

/-- The flags that are on, in link order. -/
def enabled (flags : OptionFlags) : List OptionFlag := OptionFlag.all.filter flags.get

/-- The option string that switches on exactly these flags. -/
def options (flags : OptionFlags) : String := ",".intercalate (flags.enabled.map OptionFlag.token)

theorem get_enable (flags : OptionFlags) (f g : OptionFlag) :
    (flags.enable f).get g = (flags.get g || decide (f = g)) := by
  cases f <;> cases g <;> simp [enable, get]

theorem ext_get {a b : OptionFlags} (h : ∀ f, a.get f = b.get f) : a = b := by
  have h1 := h .correctlyRoundedSqrt
  have h2 := h .dazOpt
  have h3 := h .finiteOnly
  have h4 := h .unsafeMath
  cases a; cases b
  simp_all [get]

end OptionFlags

end DeviceLibs
