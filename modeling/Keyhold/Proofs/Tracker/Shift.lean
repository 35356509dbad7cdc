import Keyhold.Proofs.Tracker.Timer

/-!
# The start of the clock

The monotonic clock counts from an arbitrary start. A shift takes every reading to the count of the
same moment on a clock with another start. Lengths of time and the order of readings do not change
under it, and a tracker makes use of nothing else: what a shifted tracker does with a shifted input
is what the tracker does with the input, shifted. The only thing that may come between them is the
end of the clock, beyond which no deadline can be set.
-/

namespace Keyhold

namespace Instant

variable {start moment earlier later : Instant} {span : Span}

/-- The reading of the same moment on a clock that is ahead by an offset in nanoseconds. -/
def shift (moment : Instant) (offset : Int) : Instant := ⟨moment.nanos + offset⟩

/-- Shifting a moment adds the offset to its count. -/
@[simp] theorem nanos_shift (moment : Instant) (offset : Int) :
    (moment.shift offset).nanos = moment.nanos + offset := rfl

/-- A shift keeps the order of readings. -/
@[simp] theorem shift_le_shift (offset : Int) :
    earlier.shift offset ≤ later.shift offset ↔ earlier ≤ later := by
  simp only [le_iff, nanos_shift]
  omega

/-- A shift keeps the span between two readings. -/
@[simp] theorem since_shift (later earlier : Instant) (offset : Int) :
    (later.shift offset).since (earlier.shift offset) = later.since earlier := by
  have same : later.nanos + offset - (earlier.nanos + offset) = later.nanos - earlier.nanos := by
    omega
  simp only [since, nanos_shift, same]

/-- A sum on the shifted clock is the shifted sum, if that clock can represent it. -/
theorem add?_shift (sum : start.add? span = some moment) {offset : Int}
    (below : (moment.shift offset).nanos < ceiling) :
    (start.shift offset).add? span = some (moment.shift offset) := by
  obtain ⟨exact, _⟩ := add?_eq_some_iff.mp sum
  refine add?_eq_some_iff.mpr ⟨?_, below⟩
  simp only [nanos_shift, exact]
  omega

end Instant

namespace Tracker

variable {tracker next : Tracker} {offset : Int}

/-- The tracker of the same press on a clock that is ahead by an offset in nanoseconds. -/
def shift (tracker : Tracker) (offset : Int) : Tracker :=
  { tracker with
    pressedAt := tracker.pressedAt.map (·.shift offset)
    releasedAt := tracker.releasedAt.map (·.shift offset)
    deadline := tracker.deadline.map (·.shift offset) }

/-- A tracker of a key that is up knows no times. -/
@[simp] theorem shift_start (binding : Binding) (window : Span) (offset : Int) :
    (start binding window).shift offset = start binding window := rfl

/-- A shift keeps the key of a tracker. -/
@[simp] theorem code_shift (tracker : Tracker) (offset : Int) :
    (tracker.shift offset).code = tracker.code := rfl

/-- A shift keeps the phase of a tracker. -/
@[simp] theorem phase_shift (tracker : Tracker) (offset : Int) :
    (tracker.shift offset).phase = tracker.phase := rfl

/-- The deadline of a shifted tracker is the shifted one. -/
@[simp] theorem deadline_shift (tracker : Tracker) (offset : Int) :
    (tracker.shift offset).deadline = tracker.deadline.map (·.shift offset) := rfl

/-! ## Looks at the deadline -/

/-- A shifted tracker is due at the shifted time. -/
@[simp] theorem isDue_shift (tracker : Tracker) (now : Instant) (offset : Int) :
    (tracker.shift offset).isDue (now.shift offset) = tracker.isDue now := by
  simp only [isDue, deadline_shift]
  cases tracker.deadline with
  | none => rfl
  | some deadline => simp

/-- The press of a shifted tracker ends at the shifted time. -/
theorem endOfPress_shift (tracker : Tracker) (now : Instant) (offset : Int) :
    (tracker.shift offset).endOfPress (now.shift offset) =
      (tracker.endOfPress now).map (·.shift offset) := by
  rw [endOfPress, endOfPress, phase_shift]
  split <;> rfl

/-- A shifted key has been held as long at the shifted time. -/
theorem heldMillis_shift (tracker : Tracker) (now : Instant) (offset : Int) :
    (tracker.shift offset).heldMillis (now.shift offset) = tracker.heldMillis now := by
  rw [heldMillis, heldMillis, endOfPress_shift]
  simp only [shift]
  cases tracker.pressedAt <;> cases tracker.endOfPress now <;> simp

/-- A shifted tracker decides alike at the shifted time. -/
theorem decided_shift (tracker : Tracker) (now : Instant) (offset : Int) :
    (tracker.shift offset).decided (now.shift offset) = (tracker.decided now).shift offset := by
  rw [decided, endOfPress_shift]
  rfl

/-- A look at the deadline decides the same on both clocks. -/
theorem expire_shift (tracker : Tracker) (now : Instant) (offset : Int) :
    (tracker.shift offset).expire (now.shift offset) =
      ((tracker.expire now).1.shift offset, (tracker.expire now).2) := by
  have same : (tracker.shift offset).decide? (now.shift offset) = tracker.decide? now := by
    rw [decide?, decide?, heldMillis_shift]
    rfl
  simp only [expire, isDue_shift]
  split
  · rw [decided_shift, same, heldMillis_shift]
    rfl
  · rfl

/-! ## Records -/

/-- A shifted press takes a shifted tracker to the shifted one. -/
theorem goDown_shift {origin : Instant} (down : tracker.goDown origin = some next)
    (inClock : (next.shift offset).InClock) :
    (tracker.shift offset).goDown (origin.shift offset) = some (next.shift offset) := by
  unfold goDown at down ⊢
  rw [show (tracker.shift offset).binding = tracker.binding from rfl]
  cases held : tracker.binding.held? with
  | none =>
    rw [held] at down
    cases down
    rfl
  | some action =>
    rw [held] at down
    obtain ⟨deadline, sum, rfl⟩ := Option.map_eq_some_iff.mp down
    have shifted := Instant.add?_shift sum (inClock (deadline.shift offset) rfl)
    simp only [shifted, Option.map_some]
    rfl

/-- A shifted release takes a shifted tracker to the shifted one. -/
theorem goUp_shift {stamp : Instant} (up : tracker.goUp stamp = some next)
    (inClock : (next.shift offset).InClock) :
    (tracker.shift offset).goUp (stamp.shift offset) = some (next.shift offset) := by
  obtain ⟨deadline, sum, rfl⟩ := Option.map_eq_some_iff.mp up
  have shifted := Instant.add?_shift sum (inClock (deadline.shift offset) rfl)
  change ((stamp.shift offset).add? tracker.window).map _ = _
  rw [shifted]
  rfl

/-- A record does the same on both clocks, if the shifted clock can represent its deadline. -/
theorem handle_shift {stamp : Instant} {down : Bool}
    (handled : tracker.handle stamp down = some next) (inClock : (next.shift offset).InClock) :
    (tracker.shift offset).handle (stamp.shift offset) down = some (next.shift offset) := by
  unfold handle at handled ⊢
  rw [phase_shift]
  split at handled
  case h_1 => exact goDown_shift handled inClock
  case h_2 =>
    have origin : (tracker.shift offset).pressedAt.getD (stamp.shift offset) =
        (tracker.pressedAt.getD stamp).shift offset := by
      simp only [shift]
      cases tracker.pressedAt <;> rfl
    rw [origin]
    exact goDown_shift handled inClock
  case h_3 => exact goUp_shift handled inClock
  all_goals
    cases handled
    rfl

end Tracker

end Keyhold
