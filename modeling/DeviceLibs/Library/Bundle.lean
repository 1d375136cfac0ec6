import DeviceLibs.Error
import DeviceLibs.Library.Blob
import DeviceLibs.OptionFlags

/-!
# Choice of libraries and headers

Which blobs a language, a version and a set of flags call for. Eight libraries are linked into a
kernel: three that every kernel needs, the one of the version, and one for each flag, in its `on` or
its `off` variant.
-/

namespace DeviceLibs

namespace Blob

/-- A blob that the table has to hold. -/
def require (name : String) : Except SelectionError Blob :=
  match find? name with
  | some b => .ok b
  | none => .error (.missingBlob name)

def isaVersionBlob (v : ArchVersion) : Except SelectionError Blob :=
  match find? (isaVersionName v) with
  | some b => .ok b
  | none => .error (.unsupportedArchVersion v)

/-- The library that tells a kernel whether a flag is on. -/
def controlName (flag : OptionFlag) (isOn : Bool) : String :=
  "oclc_" ++ flag.token ++ (if isOn then "_on" else "_off") ++ "_lib.bc"

/-- Libraries that every kernel is linked with: runtime, mathematics, kernel functions. -/
def commonNames : List String := ["opencl_lib.bc", "ocml_lib.bc", "ockl_lib.bc"]

/-- Names of a bundle, in link order. -/
def bundleNames (v : ArchVersion) (flags : OptionFlags) : List String :=
  commonNames ++ isaVersionName v :: OptionFlag.all.map fun f => controlName f (flags.get f)

/-- The device libraries for a language, a version and a set of flags, in link order. The language
is looked at first and the version next. -/
def selectDeviceLibraries (language : Language) (v : ArchVersion) (flags : OptionFlags) :
    Except SelectionError (List Blob) := do
  if !language.isOpenCL then throw (.unsupportedLanguage language)
  let isaVersion ← isaVersionBlob v
  let controls ← OptionFlag.all.mapM fun f => require (controlName f (flags.get f))
  let common ← commonNames.mapM require
  return common ++ isaVersion :: controls

/-- The precompiled header of an OpenCL dialect. -/
def selectHeader : Language → Except SelectionError Blob
  | .openCL12 => require "opencl1.2-c.pch"
  | .openCL20 => require "opencl2.0-c.pch"
  | language => .error (.unsupportedLanguage language)

/-- Bytes that the blobs take together. -/
def totalSize (blobs : List Blob) : Nat := blobs.foldr (fun b total => b.size + total) 0

end Blob

end DeviceLibs
