import DeviceLibs.Data.Bytes
import DeviceLibs.Target.ArchVersion

/-!
# The library table

The table holds, under their file names, the bitcode libraries that are linked into a kernel and the
precompiled headers of the OpenCL dialects. The versions that it supports are read off the names of
its ISA version libraries.
-/

namespace DeviceLibs

/-- A library or header of the table. -/
structure Blob where
  name : String
  bytes : ByteArray
  deriving DecidableEq

namespace Blob

def size (b : Blob) : Nat := b.bytes.size

/-- A bitcode library: four characters of magic, its name, a line feed. -/
def bitcode (name : String) : Blob := ⟨name, s!"BC\uFFFD\uFFFD{name}\n".toUTF8⟩

/-- A precompiled header: four characters of magic, its name, a line feed. -/
def header (name : String) : Blob := ⟨name, s!"CPCH{name}\n".toUTF8⟩

/-- Every blob, in ascending order of the names. -/
def table : List Blob := [
  bitcode "ockl_lib.bc",
  bitcode "oclc_correctly_rounded_sqrt_off_lib.bc",
  bitcode "oclc_correctly_rounded_sqrt_on_lib.bc",
  bitcode "oclc_daz_opt_off_lib.bc",
  bitcode "oclc_daz_opt_on_lib.bc",
  bitcode "oclc_finite_only_off_lib.bc",
  bitcode "oclc_finite_only_on_lib.bc",
  bitcode "oclc_isa_version_700_lib.bc",
  bitcode "oclc_isa_version_701_lib.bc",
  bitcode "oclc_isa_version_702_lib.bc",
  bitcode "oclc_isa_version_703_lib.bc",
  bitcode "oclc_isa_version_704_lib.bc",
  bitcode "oclc_isa_version_801_lib.bc",
  bitcode "oclc_isa_version_802_lib.bc",
  bitcode "oclc_isa_version_803_lib.bc",
  bitcode "oclc_isa_version_810_lib.bc",
  bitcode "oclc_isa_version_900_lib.bc",
  bitcode "oclc_isa_version_902_lib.bc",
  bitcode "oclc_isa_version_904_lib.bc",
  bitcode "oclc_isa_version_906_lib.bc",
  bitcode "oclc_unsafe_math_off_lib.bc",
  bitcode "oclc_unsafe_math_on_lib.bc",
  bitcode "ocml_lib.bc",
  header "opencl1.2-c.pch",
  header "opencl2.0-c.pch",
  bitcode "opencl_lib.bc"]

/-- The blob of that exact name. -/
def find? (name : String) : Option Blob := table.find? (·.name = name)

/-- What stands before and behind the version in the name of an ISA version library. -/
def isaVersionAffixes : String × String := ("oclc_isa_version_", "_lib.bc")

/-- Name that the ISA version library of a version would have, whether there is one or not. -/
def isaVersionName (v : ArchVersion) : String :=
  isaVersionAffixes.1 ++ v.digits ++ isaVersionAffixes.2

/-- The version in the name of an ISA version library. It may be written with zeros or a plus sign in
front. -/
def isaVersion? (b : Blob) : Option ArchVersion := do
  let rest ← isaVersionAffixes.1.toList.isPrefixOf? b.name.toList
  let digits ← isaVersionAffixes.2.toList.isSuffixOf? rest
  let n ← Text.ofSigned32? digits
  return ⟨n⟩

end Blob

namespace ArchVersion

/-- Versions that have an ISA version library, in ascending order. -/
def supported : List ArchVersion := ascending (Blob.table.filterMap Blob.isaVersion?)

end ArchVersion

end DeviceLibs
