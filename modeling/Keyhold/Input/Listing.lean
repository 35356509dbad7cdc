import Keyhold.System.Routine

/-!
# Listing devices

The input devices to choose from: those below the directory of event devices that open and
report keys, in the order of their paths. What does not open is left out without a word.
-/

namespace Keyhold

open Keyhold.System

/-- A device to choose from. -/
structure ListedDevice where
  path : Path
  name : String
  deriving DecidableEq, Repr, Inhabited

namespace ListedDevice

/-- The directory of event devices. -/
def directory : Path := ⟨"/dev/input"⟩

/-- What the names of event devices begin with. -/
def entryStart : List Char := "event".toList

/-- Whether a directory entry may be an event device. -/
def isCandidate (entry : String) : Bool := entryStart.isPrefixOf entry.toList

/-- The name shown for a device without name. -/
def namelessText : String := "Unknown"

/-- Looks at one entry: a device that opens and reports keys. -/
def examine (path : Path) : Routine (Option ListedDevice) := do
  match ← Routine.request (.openDevice path) with
  | .error _ => pure none
  | .ok device =>
    Routine.request (.closeDevice device.handle)
    if device.reportsKeys then pure (some ⟨path, device.name.getD namelessText⟩)
    else pure none

/-- Looks at entries in order. -/
def examineAll : List Path → Routine (List ListedDevice)
  | [] => pure []
  | path :: rest => do
    let found ← examine path
    let others ← examineAll rest
    pure (found.toList ++ others)

/-- The order of paths: that of their characters. -/
def precedes (first second : ListedDevice) : Bool := first.path.text ≤ second.path.text

/-- All devices to choose from. -/
def all : Routine (List ListedDevice) := do
  match ← Routine.request (.listDirectory directory) with
  | .error _ => pure []
  | .ok entries =>
    let devices ← examineAll ((entries.filter isCandidate).map directory.below)
    pure (devices.mergeSort precedes)

/-- The device as a line of the list. -/
def line (device : ListedDevice) : String := device.path.text ++ ": " ++ device.name ++ "\n"

end ListedDevice

end Keyhold
