import DeviceLibs.Action
import DeviceLibs.Json.Record
import DeviceLibs.Json.Variant
import DeviceLibs.Json.Writer

/-!
# Exchange as JSON

How the types of the library are written as JSON and read from it. Languages, kinds and flags are
written by their encoded names, versions as their numbers, the rest as objects with the fields in order.
-/

namespace DeviceLibs

open Json

namespace Language

def toJson (l : Language) : String := quote l.encodedName

def decoder : Decoder Language := .variant (.ofNames all encodedName)

end Language

namespace DataKind

def toJson (k : DataKind) : String := quote k.encodedName

def decoder : Decoder DataKind := .variant (.ofNames all encodedName)

end DataKind

namespace OptionFlag

def toJson (f : OptionFlag) : String := quote f.encodedName

def decoder : Decoder OptionFlag := .variant (.ofNames all encodedName)

end OptionFlag

namespace ArchVersion

def toJson (v : ArchVersion) : String := v.digits

def decoder : Decoder ArchVersion := Decoder.uint32.map ArchVersion.mk

end ArchVersion

/-! ## Records -/

/-- A field that a record needs: its value, or its name where it is missing. -/
def requireField {α : Type} (field : String) : Option α → Except String α
  | some a => .ok a
  | none => .error field

namespace OptionFlags

/-- The name of the field for a flag. -/
def fieldName : OptionFlag → String
  | .correctlyRoundedSqrt => "correctly_rounded_sqrt"
  | .dazOpt => "daz_opt"
  | .finiteOnly => "finite_only"
  | .unsafeMath => "unsafe_math"

def toJson (flags : OptionFlags) : String :=
  object (OptionFlag.all.map fun f => (fieldName f, boolean (flags.get f)))

/-- The flags read so far. -/
abbrev Draft := OptionFlag → Option Bool

def Draft.set (draft : Draft) (flag : OptionFlag) (b : Bool) : Draft :=
  fun f => if f = flag then some b else draft f

def Draft.complete (draft : Draft) : Except String OptionFlags := do
  let value (flag : OptionFlag) := requireField (fieldName flag) (draft flag)
  return {
    correctlyRoundedSqrt := ← value .correctlyRoundedSqrt
    dazOpt := ← value .dazOpt
    finiteOnly := ← value .finiteOnly
    unsafeMath := ← value .unsafeMath }

def flagField (flag : OptionFlag) : Decoder.Field Draft :=
  .of (fieldName flag) (fun draft => (draft flag).isSome) .boolean (·.set flag)

def record : Decoder.Record Draft OptionFlags where
  name := "OptionFlags"
  fields := OptionFlag.all.map flagField
  empty := fun _ => none
  complete := Draft.complete

def decoder : Decoder OptionFlags := .record record

end OptionFlags

namespace TargetIdentifier

def toJson (t : TargetIdentifier) : String :=
  object [
    ("arch", quote t.arch),
    ("vendor", quote t.vendor),
    ("os", quote t.os),
    ("environ", quote t.environ),
    ("processor", quote t.processor),
    ("features", array (t.features.map quote))]

/-- The fields read so far. -/
structure Draft where
  arch : Option String := none
  vendor : Option String := none
  os : Option String := none
  environ : Option String := none
  processor : Option String := none
  features : Option (List String) := none

def Draft.complete (draft : Draft) : Except String TargetIdentifier := do
  return {
    arch := ← requireField "arch" draft.arch
    vendor := ← requireField "vendor" draft.vendor
    os := ← requireField "os" draft.os
    environ := ← requireField "environ" draft.environ
    processor := ← requireField "processor" draft.processor
    features := ← requireField "features" draft.features }

def record : Decoder.Record Draft TargetIdentifier where
  name := "TargetIdentifier"
  fields := [
    .of "arch" (·.arch.isSome) .string fun d s => { d with arch := s },
    .of "vendor" (·.vendor.isSome) .string fun d s => { d with vendor := s },
    .of "os" (·.os.isSome) .string fun d s => { d with os := s },
    .of "environ" (·.environ.isSome) .string fun d s => { d with environ := s },
    .of "processor" (·.processor.isSome) .string fun d s => { d with processor := s },
    .of "features" (·.features.isSome) (.list .string) fun d l => { d with features := l }]
  empty := {}
  complete := Draft.complete

def decoder : Decoder TargetIdentifier := .record record

end TargetIdentifier

namespace Action

def toJson (a : Action) : String :=
  object [("language", a.language.toJson), ("isa-name", quote a.isaName),
    ("options", quote a.options)]

/-- The fields read so far. -/
structure Draft where
  language : Option Language := none
  isaName : Option String := none
  options : Option String := none

def Draft.complete (draft : Draft) : Except String Action := do
  return {
    language := ← requireField "language" draft.language
    isaName := draft.isaName.getD ""
    options := draft.options.getD "" }

def record : Decoder.Record Draft Action where
  name := "DataAction"
  fields := [
    .of "language" (·.language.isSome) Language.decoder fun d l => { d with language := l },
    .of "isa-name" (·.isaName.isSome) .string (fun d s => { d with isaName := s }) true,
    .of "options" (·.options.isSome) .string (fun d s => { d with options := s }) true]
  empty := {}
  complete := Draft.complete

def decoder : Decoder Action := .record record

end Action

end DeviceLibs
