import Keyhold.Time

/-!
# Input events

One record that an input device reports. Only records of the key type matter to the bindings;
their value is zero for a release and anything else for a press or a repeat. The kernel stamps
records on the wall clock; `Report.toEvent` moves the stamp to the monotonic clock.
-/

namespace Keyhold

/-- One input record on the monotonic clock. -/
structure Event where
  stamp : Instant
  kind : UInt16
  code : UInt16
  value : Int
  deriving DecidableEq, Repr, Inhabited

namespace Event

/-- The type of key records. -/
def keyKind : UInt16 := 1

/-- Whether the record is about a key. -/
def isKey (event : Event) : Bool := event.kind == keyKind

/-- Whether the record of a key is a press or a repeat. -/
def isPress (event : Event) : Bool := event.value != 0

/-- What happened to the key, in words. -/
def motion (event : Event) : String := if event.isPress then "pressed" else "released"

end Event

/-- One input record as the kernel stamps it. -/
structure Report where
  stamp : WallTime
  kind : UInt16
  code : UInt16
  value : Int
  deriving DecidableEq, Repr, Inhabited

namespace Report

/-- The record on the monotonic clock, given readings of both clocks taken together. -/
def toEvent (report : Report) (wallNow : WallTime) (now : Instant) : Event :=
  ⟨report.stamp.toMonotonic wallNow now, report.kind, report.code, report.value⟩

end Report

end Keyhold
