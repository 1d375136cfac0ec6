import DeviceLibs.Target.ArchVersion
import DeviceLibs.Text.Cut

/-!
# Target identifiers

An ISA name has the form `arch-vendor-os-environ-processor`, and `+feature` may follow any number of
times. Only the first four dashes separate, so the processor and the features may hold more of them;
features that are empty are dropped. `parse` reads such a name and `TargetIdentifier.name` writes it.
-/

namespace DeviceLibs

structure TargetIdentifier where
  arch : String
  vendor : String
  os : String
  /-- Environment, empty in most names. -/
  environ : String
  processor : String
  features : List String
  deriving DecidableEq, Repr

namespace TargetIdentifier

/-- The one architecture that device libraries exist for. -/
def amdgcn : String := "amdgcn"

/-- The texts between the first four dashes of an ISA name, and all that follows. -/
def components? (cs : List Char) :
    Option (List Char × List Char × List Char × List Char × List Char) := do
  let (arch, cs) ← Text.cut '-' cs
  let (vendor, cs) ← Text.cut '-' cs
  let (os, cs) ← Text.cut '-' cs
  let (environ, cs) ← Text.cut '-' cs
  return (arch, vendor, os, environ, cs)

/-- A processor and its features: the pieces between the plus signs, less the empty features. -/
def processorAndFeatures (cs : List Char) : List Char × List (List Char) :=
  match cs.splitOn '+' with
  | [] => ([], [])
  | processor :: features => (processor, features.filter (· ≠ []))

/-- Reads an ISA name. A missing component is found first, then a foreign architecture, then a
missing processor. -/
def parse (isaName : String) : Except TargetError TargetIdentifier :=
  match components? isaName.toList with
  | none =>
    .error (.malformedIdentifier isaName (.componentCount (isaName.toList.count '-' + 1)))
  | some (arch, vendor, os, environ, cs) =>
    if arch ≠ amdgcn.toList then .error (.unsupportedArch (.ofList arch))
    else
      let (processor, features) := processorAndFeatures cs
      if processor = [] then .error (.malformedIdentifier isaName .emptyProcessor)
      else .ok {
        arch := .ofList arch, vendor := .ofList vendor, os := .ofList os
        environ := .ofList environ, processor := .ofList processor
        features := features.map .ofList }

/-- The identifier written as an ISA name. -/
def name (t : TargetIdentifier) : String :=
  s!"{t.arch}-{t.vendor}-{t.os}-{t.environ}-{t.processor}"
    ++ String.join (t.features.map ("+" ++ ·))

def archVersion (t : TargetIdentifier) : Except TargetError ArchVersion :=
  ArchVersion.ofProcessor t.processor

def hasFeature (t : TargetIdentifier) (feature : String) : Bool := t.features.contains feature

end TargetIdentifier

/-- The ISA name of a version, without features. -/
def ArchVersion.hsaIsaName (v : ArchVersion) : String := s!"amdgcn-amd-amdhsa--{v.processorName}"

end DeviceLibs
