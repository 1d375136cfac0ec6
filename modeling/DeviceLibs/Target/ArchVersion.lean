import DeviceLibs.Target.Error
import DeviceLibs.Text.Decimal

/-!
# Architecture versions

The version of a processor is the number behind `gfx` in its name: `gfx906` has version 906. Main
statement: `ofProcessor_processorName`, the name of a version leads back to it.
-/

namespace DeviceLibs

structure ArchVersion where
  number : UInt32
  deriving DecidableEq, Repr

namespace ArchVersion

/-- Version of a processor name. Nothing is trimmed, and leading zeros do not count. -/
def ofProcessor (processor : String) : Except TargetError ArchVersion :=
  match processor.toList with
  | 'g' :: 'f' :: 'x' :: digits =>
    match Text.ofDecimal32? digits with
    | some n => .ok ⟨n⟩
    | none => .error (.invalidArchVersion processor)
  | _ => .error (.missingGfxPrefix processor)

/-- Numeral of the version, as it stands in names. -/
def digits (v : ArchVersion) : String := toString v.number.toNat

def processorName (v : ArchVersion) : String := "gfx" ++ v.digits

/-- The versions in ascending order. -/
def ascending (versions : List ArchVersion) : List ArchVersion :=
  versions.mergeSort fun a b => a.number ≤ b.number

theorem toList_digits (v : ArchVersion) : v.digits.toList = Nat.toDigits 10 v.number.toNat := by
  simp [digits]

theorem toList_processorName (v : ArchVersion) :
    v.processorName.toList = 'g' :: 'f' :: 'x' :: Nat.toDigits 10 v.number.toNat := by
  simp [processorName, toList_digits]

theorem ofProcessor_processorName (v : ArchVersion) : ofProcessor v.processorName = .ok v := by
  simp [ofProcessor, toList_processorName, Text.ofDecimal32?_toDigits]

end ArchVersion

end DeviceLibs
