/-!
# What can be wrong with a target

A target identifier names an architecture, a vendor, an operating system, an environment and a
processor. `TargetError` lists the reasons why an identifier, or the processor in it, is refused.
-/

namespace DeviceLibs

/-- What is missing in an identifier that does not have its five components. -/
inductive IdentifierFault where
  /-- The identifier has only `found` components between its dashes. -/
  | componentCount (found : Nat)
  /-- Nothing stands before the first feature. -/
  | emptyProcessor
  deriving DecidableEq, Repr

def IdentifierFault.message : IdentifierFault → String
  | componentCount found => s!"expected 5 '-' separated components, found {found}"
  | emptyProcessor => "empty processor name"

inductive TargetError where
  | malformedIdentifier (identifier : String) (fault : IdentifierFault)
  /-- The architecture is not `amdgcn`. -/
  | unsupportedArch (arch : String)
  | missingGfxPrefix (processor : String)
  /-- What follows `gfx` is not a decimal numeral below `2 ^ 32`. -/
  | invalidArchVersion (processor : String)
  deriving DecidableEq, Repr

def TargetError.message : TargetError → String
  | malformedIdentifier identifier fault =>
    s!"malformed target identifier '{identifier}': {fault.message}"
  | unsupportedArch arch => s!"unsupported target architecture '{arch}'"
  | missingGfxPrefix processor => s!"processor '{processor}' does not start with 'gfx'"
  | invalidArchVersion processor => s!"processor '{processor}' has no valid architecture version"

end DeviceLibs
