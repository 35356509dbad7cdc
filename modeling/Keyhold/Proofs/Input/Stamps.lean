import Keyhold.Input.Source
import Keyhold.Proofs.System.Marks

/-!
# Stamps on the monotonic clock

A device hands out its records in batches. Right after each batch both clocks are read once, and
all stamps of the batch are moved to the monotonic clock by these readings. A stamp that the
readings cover, because it is not in the future and not older than the monotonic clock can say,
keeps its age exactly (`age_of_covers`), every other stamp becomes the reading itself
(`moment_of_not_covers`). Both clocks together only enter through their offset, so stamps of
different batches can be compared as long as it stays the same (`nanos_of_covers`).
`stamps_translated` puts this together.
-/

namespace Keyhold

open Keyhold.System

/-- Readings of both clocks, taken together. -/
structure Readings where
  wall : WallTime
  now : Instant
  deriving DecidableEq, Repr, Inhabited

namespace Readings

/-- How far the monotonic clock is ahead of the wall clock. -/
def offset (readings : Readings) : Int := readings.now.nanos - readings.wall.nanos

/-- Whether a stamp is not in the future and its age fits below the reading on the clock. -/
def Covers (readings : Readings) (stamp : WallTime) : Prop :=
  stamp.nanos ≤ readings.wall.nanos ∧
    Instant.bottom ≤ readings.now.nanos - (readings.wall.nanos - stamp.nanos)

instance (readings : Readings) (stamp : WallTime) : Decidable (readings.Covers stamp) :=
  inferInstanceAs (Decidable (_ ∧ _))

/-- The moment on the monotonic clock that a stamp becomes. -/
def moment (readings : Readings) (stamp : WallTime) : Instant :=
  stamp.toMonotonic readings.wall readings.now

variable {readings one other : Readings} {stamp earlier later : WallTime}

/-- A stamp that is covered is moved by the offset of the clocks. -/
theorem nanos_of_covers (covers : readings.Covers stamp) :
    (readings.moment stamp).nanos = stamp.nanos + readings.offset := by
  obtain ⟨past, fits⟩ := covers
  have age : ((readings.wall.nanos - stamp.nanos).toNat : Int) =
      readings.wall.nanos - stamp.nanos := Int.toNat_of_nonneg (by omega)
  rw [moment, WallTime.toMonotonic, WallTime.age?, if_pos past, Option.bind_some, Instant.sub?,
    age, if_pos fits, Option.getD_some, offset]
  show readings.now.nanos - (readings.wall.nanos - stamp.nanos) = _
  omega

/-- Every other stamp becomes the reading of the monotonic clock. -/
theorem moment_of_not_covers (uncovered : ¬ readings.Covers stamp) :
    readings.moment stamp = readings.now := by
  rw [moment, WallTime.toMonotonic, WallTime.age?]
  split
  · rename_i past
    have age : ((readings.wall.nanos - stamp.nanos).toNat : Int) =
        readings.wall.nanos - stamp.nanos := Int.toNat_of_nonneg (by omega)
    rw [Option.bind_some, Instant.sub?, age, if_neg fun fits => uncovered ⟨past, fits⟩,
      Option.getD_none]
  · rfl

/-- No stamp becomes a moment after the reading. -/
theorem moment_le_now : readings.moment stamp ≤ readings.now := by
  by_cases covers : readings.Covers stamp
  · rw [Instant.le_iff, nanos_of_covers covers, offset]
    have past := covers.1
    omega
  · rw [moment_of_not_covers covers]
    exact Int.le_refl _

/-- A stamp that is covered is as old on the monotonic clock as on the wall clock. -/
theorem age_of_covers (covers : readings.Covers stamp) :
    readings.now.nanos - (readings.moment stamp).nanos = readings.wall.nanos - stamp.nanos := by
  rw [nanos_of_covers covers, offset]
  omega

/-- Whether an event on the monotonic clock is a record that a device has handed out. It is of the
same kind and key and has the same value; a stamp that the readings cover keeps its age, and any
other becomes the reading itself. -/
structure Carries (readings : Readings) (report : Report) (event : Event) : Prop where
  kind : event.kind = report.kind
  code : event.code = report.code
  value : event.value = report.value
  covered : readings.Covers report.stamp →
    readings.now.nanos - event.stamp.nanos = readings.wall.nanos - report.stamp.nanos
  uncovered : ¬readings.Covers report.stamp → event.stamp = readings.now

/-- A record that is moved to the monotonic clock is carried there. -/
theorem carries_toEvent (readings : Readings) (report : Report) :
    readings.Carries report (report.toEvent readings.wall readings.now) :=
  ⟨rfl, rfl, rfl, age_of_covers, moment_of_not_covers⟩

/-- A stamp in the future is moved to no earlier moment than any other stamp. -/
theorem moment_le_of_future (future : readings.wall.nanos < later.nanos) :
    readings.moment earlier ≤ readings.moment later := by
  have uncovered : ¬ readings.Covers later := by
    intro covers
    have past := covers.1
    omega
  rw [moment_of_not_covers uncovered]
  exact moment_le_now

end Readings

/-- What one read of a device gives: the records that it hands out, and the readings of the clocks
right after. -/
structure Batch where
  reports : List Report
  readings : Readings
  deriving DecidableEq, Repr, Inhabited

namespace Batch

/-- A record of the batch on the monotonic clock. -/
def event (batch : Batch) (report : Report) : Event :=
  report.toEvent batch.readings.wall batch.readings.now

/-- The records of the batch on the monotonic clock. -/
def events (batch : Batch) : List Event := batch.reports.map batch.event

end Batch

/-- What is seen of a device being read and of the clocks. -/
inductive ClockMark where
  /-- A device is read. -/
  | read (device : DeviceHandle) (answer : Except OsError (List Report))
  /-- The wall clock is read. -/
  | wall (reading : WallTime)
  /-- The monotonic clock is read. -/
  | clock (reading : Instant)

/-- The mark of a request that reads a device or a clock. -/
def ClockMark.view : View ClockMark
  | .readDevice device, answer => some (.read device answer)
  | .wallClock, reading => some (.wall reading)
  | .clock, reading => some (.clock reading)
  | _, _ => none

/-- The marks of reading a device for a batch. -/
def Batch.marks (device : DeviceHandle) (batch : Batch) : List ClockMark :=
  [.read device (.ok batch.reports), .wall batch.readings.wall, .clock batch.readings.now]

/-- The events that a source is read for are a batch of its device, or none without a device or
without anything to read. -/
theorem Source.batch_of_read {source : Source} {marks : List ClockMark} {events : List Event}
    (shows : source.read.Shows ClockMark.view marks (.events events)) :
    (∃ (device : DeviceHandle) (batch : Batch), source.device = some device ∧
      marks = batch.marks device ∧ events = batch.events) ∨
    events = [] ∧ (marks = [] ∨ ∃ device, marks = [.read device (.error .wouldBlock)]) := by
  rw [read] at shows
  split at shows
  · obtain ⟨rfl, done⟩ := shows
    cases done
    exact .inr ⟨rfl, .inl rfl⟩
  · rename_i device held
    obtain ⟨answer, _, rfl, further⟩ := shows
    cases answer with
    | ok reports =>
      obtain ⟨wall, _, rfl, now, _, rfl, rfl, done⟩ := further
      cases done
      exact .inl ⟨device, ⟨reports, wall, now⟩, held, rfl, rfl⟩
    | error cause =>
      simp only [Routine.bind] at further
      split at further
      · rename_i empty
        obtain ⟨rfl, done⟩ := further
        cases done
        exact .inr ⟨rfl, .inr ⟨device, by rw [empty]; rfl⟩⟩
      · obtain ⟨_, _, _, _, done⟩ := further
        cases done

/-- Stamps are moved to the monotonic clock and not distorted. All events that a source is read for
are moved by one pair of readings, taken behind them. None comes after the reading of the monotonic
clock, and one that is covered is as old there as on the wall clock. Of two events whose batches
have clocks the same offset apart, both covered, the order is that of their stamps, and so is the
distance. A stamp in the future comes before no other one of its batch. -/
theorem stamps_translated :
    (∀ (source : Source) (marks : List ClockMark) (events : List Event),
      source.read.Shows ClockMark.view marks (.events events) →
      (∃ (device : DeviceHandle) (batch : Batch), source.device = some device ∧
        marks = batch.marks device ∧ events = batch.events) ∨
      events = [] ∧ (marks = [] ∨ ∃ device, marks = [.read device (.error .wouldBlock)])) ∧
    (∀ (readings : Readings) (stamp : WallTime),
      stamp.toMonotonic readings.wall readings.now ≤ readings.now ∧
      (readings.Covers stamp →
        readings.now.nanos - (stamp.toMonotonic readings.wall readings.now).nanos =
          readings.wall.nanos - stamp.nanos)) ∧
    (∀ one other : Batch, one.readings.offset = other.readings.offset →
      ∀ earlier ∈ one.reports, ∀ later ∈ other.reports,
        one.readings.Covers earlier.stamp → other.readings.Covers later.stamp →
        ((one.event earlier).stamp ≤ (other.event later).stamp ↔
          earlier.stamp.nanos ≤ later.stamp.nanos) ∧
        (other.event later).stamp.nanos - (one.event earlier).stamp.nanos =
          later.stamp.nanos - earlier.stamp.nanos) ∧
    ∀ batch : Batch, ∀ other ∈ batch.reports, ∀ future ∈ batch.reports,
      batch.readings.wall.nanos < future.stamp.nanos →
      (batch.event other).stamp ≤ (batch.event future).stamp := by
  refine ⟨fun source marks events shows => Source.batch_of_read shows,
    fun readings stamp => ⟨Readings.moment_le_now, Readings.age_of_covers⟩, ?_, ?_⟩
  · intro one other same earlier _ later _ first second
    have from_one := Readings.nanos_of_covers first
    have from_other := Readings.nanos_of_covers second
    change (one.event earlier).stamp.nanos = _ at from_one
    change (other.event later).stamp.nanos = _ at from_other
    rw [Instant.le_iff, from_one, from_other, same]
    omega
  · intro batch other _ future _ ahead
    exact Readings.moment_le_of_future ahead

/-- A press and its release in different batches are as far apart as the kernel stamped them. -/
theorem stamps_translated_between_batches :
    let press : Report := ⟨⟨999700000000⟩, Event.keyKind, 116, 1⟩
    let release : Report := ⟨⟨1000200000000⟩, Event.keyKind, 116, 0⟩
    let one : Batch := ⟨[press], ⟨1000000000000⟩, ⟨50000000000⟩⟩
    let other : Batch := ⟨[release], ⟨1001000000000⟩, ⟨51000000000⟩⟩
    (one.event press).stamp ≤ (other.event release).stamp ∧
      (other.event release).stamp.nanos - (one.event press).stamp.nanos = 500000000 := by
  intro press release one other
  have translated := stamps_translated.2.2.1 one other (by decide) press List.mem_cons_self release
    List.mem_cons_self (by decide) (by decide)
  exact ⟨translated.1.mpr (by decide), translated.2.trans (by decide)⟩

end Keyhold
