import DeviceLibs.Data.Edit
import DeviceLibs.Library.Bundle
import DeviceLibs.OptionFlags.Parse

/-!
# Adding libraries and headers to a data set

`addDeviceLibraries` adds the eight libraries of a target, `addHeader` the one precompiled header of a
language. Everything is chosen and staged before the set is touched.
-/

namespace DeviceLibs

namespace TargetIdentifier

/-- Reads an ISA name, with the event. -/
def read (isaName : String) : Traced TargetError TargetIdentifier := do
  let t ← .ofExcept (parse isaName)
  .emit (.parsedTarget isaName t.processor t.features)
  return t

@[simp] theorem result_read (isaName : String) : (read isaName).result = parse isaName := by
  rw [read, Traced.result_bind, Traced.result_ofExcept]
  cases parse isaName <;> rfl

theorem events_read {isaName : String} {t : TargetIdentifier} (h : parse isaName = .ok t) :
    (read isaName).events = [.parsedTarget isaName t.processor t.features] := by
  rw [read, h]
  rfl

theorem events_read_of_error {isaName : String} {e : TargetError} (h : parse isaName = .error e) :
    (read isaName).events = [] := by
  rw [read, h]
  rfl

end TargetIdentifier

namespace Blob

/-- The object that a blob becomes. -/
def toObject (kind : DataKind) (b : Blob) : DataObject := ⟨kind, b.name, b.bytes⟩

/-- Makes objects of blobs, one after the other. Each object gets a copy of the bytes; the memory for
the copies is taken for granted, so that staging does not fail. Only the growth of a set asks for memory
(`DataSet.grow`). -/
def stage (kind : DataKind) (blobs : List Blob) : Traced SelectionError (List DataObject) :=
  ⟨blobs.map fun b => .stagedBlob b.name b.size kind, .ok (blobs.map (toObject kind))⟩

@[simp] theorem result_stage (kind : DataKind) (blobs : List Blob) :
    (stage kind blobs).result = .ok (blobs.map (toObject kind)) := rfl

@[simp] theorem events_stage (kind : DataKind) (blobs : List Blob) :
    (stage kind blobs).events = blobs.map fun b => .stagedBlob b.name b.size kind := rfl

/-- Stages the precompiled header of a language. -/
def stageHeader (language : Language) : Traced SelectionError (List DataObject) := do
  let header ← .ofExcept (selectHeader language)
  stage .precompiledHeader [header]

/-- Stages the device libraries for an ISA name, an option string and a language, in link order. The
language is judged first, then the ISA name, its version, whether that is supported, and the options
last. -/
def stageDeviceLibraries (isaName options : String) (language : Language) :
    Traced SelectionError (List DataObject) := do
  if !language.isOpenCL then .ofExcept (.error (.unsupportedLanguage language))
  let target ← (TargetIdentifier.read isaName).mapError .invalidTarget
  let version ← .ofExcept (target.archVersion.mapError .invalidTarget)
  let _ ← .ofExcept (isaVersionBlob version)
  let flags ← OptionFlags.read options
  let bundle ← .ofExcept (selectDeviceLibraries language version flags)
  .emit (.selectedLibraries isaName version flags)
  stage .bc bundle

end Blob

namespace Edit

/-- Adds the precompiled header of a language. -/
def addHeader (language : Language) : Edit Unit := do
  let staged ← ofTraced (Blob.stageHeader language)
  commit staged

/-- Adds the device libraries for an ISA name, an option string and a language. The room in the set is
looked at last. -/
def addDeviceLibraries (isaName options : String) (language : Language) : Edit Unit := do
  let staged ← ofTraced (Blob.stageDeviceLibraries isaName options language)
  commit staged

end Edit

/-- What is asked for: the language of a kernel, its target, the options. -/
structure Action where
  language : Language
  isaName : String := ""
  options : String := ""
  deriving DecidableEq, Repr

namespace Action

def addHeader (a : Action) : Edit Unit := .addHeader a.language

def addDeviceLibraries (a : Action) : Edit Unit :=
  .addDeviceLibraries a.isaName a.options a.language

end Action

end DeviceLibs
