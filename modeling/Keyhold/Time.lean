/-!
# Spans and clock readings

Every time in the library is an exact count of nanoseconds. A `Span` is a length of time
and never negative. An `Instant` is a reading of the monotonic clock relative to an
arbitrary start, so it may be negative. The clock keeps its seconds in a signed 64-bit
count; moving a reading past either end has no result, and `add?_eq_some_iff` says exactly
when that happens.
-/

namespace Keyhold

/-- A length of time in whole nanoseconds. -/
structure Span where
  nanos : Nat
  deriving DecidableEq, Repr, Inhabited

namespace Span

/-- The empty span. -/
def zero : Span := ⟨0⟩

/-- A count of milliseconds as a span. -/
def ofMillis (millis : UInt64) : Span := ⟨millis.toNat * 1000000⟩

/-- Seconds and further nanoseconds as one span. -/
def ofSeconds (seconds nanos : Nat) : Span := ⟨seconds * 1000000000 + nanos⟩

/-- Whole milliseconds of a span, kept as a 64-bit count and so modulo 2^64. -/
def wholeMillis (span : Span) : UInt64 := UInt64.ofNat (span.nanos / 1000000)

end Span

/-- A reading of the monotonic clock, in nanoseconds from an arbitrary start. -/
structure Instant where
  nanos : Int
  deriving DecidableEq, Repr, Inhabited

namespace Instant

/-- The first count of nanoseconds that the clock can no longer represent. -/
def ceiling : Int := 9223372036854775808 * 1000000000

/-- The least count of nanoseconds that the clock can represent. -/
def bottom : Int := -9223372036854775808 * 1000000000

instance : LE Instant := ⟨fun earlier later => earlier.nanos ≤ later.nanos⟩

instance (earlier later : Instant) : Decidable (earlier ≤ later) :=
  inferInstanceAs (Decidable (earlier.nanos ≤ later.nanos))

/-- The order of readings is the order of their counts. -/
theorem le_iff {earlier later : Instant} : earlier ≤ later ↔ earlier.nanos ≤ later.nanos :=
  Iff.rfl

/-- The reading a span later; none when the clock cannot represent it. -/
def add? (start : Instant) (span : Span) : Option Instant :=
  if start.nanos + span.nanos < ceiling then some ⟨start.nanos + span.nanos⟩ else none

/-- The reading a span earlier; none when the clock cannot represent it. -/
def sub? (start : Instant) (span : Span) : Option Instant :=
  if bottom ≤ start.nanos - span.nanos then some ⟨start.nanos - span.nanos⟩ else none

/-- Addition has a result exactly while the sum stays below the ceiling. -/
theorem add?_eq_some_iff {start later : Instant} {span : Span} :
    start.add? span = some later ↔
      later.nanos = start.nanos + span.nanos ∧ later.nanos < ceiling := by
  unfold add?
  split
  · constructor
    · rintro ⟨⟩
      exact ⟨rfl, by assumption⟩
    · rintro ⟨sum, _⟩
      exact congrArg some (Instant.mk.injEq _ _ ▸ sum.symm)
  · constructor
    · nofun
    · rintro ⟨sum, below⟩
      omega

/-- The moment a span later, whether or not the clock can represent it. -/
def later (start : Instant) (span : Span) : Instant := ⟨start.nanos + span.nanos⟩

/-- The count of a later moment is the sum of the counts. -/
@[simp] theorem nanos_later (start : Instant) (span : Span) :
    (start.later span).nanos = start.nanos + span.nanos := rfl

/-- Addition has no other result than the moment a span later. -/
theorem eq_later_of_add? {start moment : Instant} {span : Span}
    (sum : start.add? span = some moment) : moment = start.later span :=
  congrArg Instant.mk (add?_eq_some_iff.mp sum).1

/-- Addition has no result exactly when the later moment is beyond the clock. -/
theorem add?_eq_none_iff {start : Instant} {span : Span} :
    start.add? span = none ↔ ceiling ≤ (start.later span).nanos := by
  rw [add?, nanos_later]
  split
  · rename_i below
    simpa using below
  · rename_i beyond
    simpa using beyond

/-- The span from one reading to a later one; empty when it is not later. -/
def since (later earlier : Instant) : Span := ⟨(later.nanos - earlier.nanos).toNat⟩

end Instant

/-- A reading of the wall clock, in nanoseconds from the epoch. -/
structure WallTime where
  nanos : Int
  deriving DecidableEq, Repr, Inhabited

namespace WallTime

/-- A wall-clock stamp made of whole seconds and microseconds. Before the epoch both count
backwards. -/
def ofMicros (seconds micros : Int) : WallTime :=
  if 0 ≤ seconds then ⟨seconds * 1000000000 + micros * 1000⟩
  else ⟨seconds * 1000000000 - micros * 1000⟩

/-- The age of a stamp at a later reading; none for a stamp in the future. -/
def age? (now stamp : WallTime) : Option Span :=
  if stamp.nanos ≤ now.nanos then some ⟨(now.nanos - stamp.nanos).toNat⟩ else none

/-- The monotonic reading of the moment that a wall-clock stamp names, given readings of both
clocks taken together. A stamp in the future, or one too old for the clock, counts as now. -/
def toMonotonic (stamp wallNow : WallTime) (now : Instant) : Instant :=
  ((wallNow.age? stamp).bind now.sub?).getD now

end WallTime

end Keyhold
