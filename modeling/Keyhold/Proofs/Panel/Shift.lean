import Keyhold.Proofs.Panel.Calls
import Keyhold.Proofs.Panel.Wait
import Keyhold.Proofs.Tracker.Shift

/-!
# Calls on a shifted clock

If every time that a caller names is shifted by one offset, a panel gives the same answers: the same
becomes of every record, the same is fired, and the waits are the same. The panels that it goes
through are the shifted ones, with every deadline shifted by the offset and nothing else changed.
`only_distances_matter` says so of every run, for exactly those offsets that leave the deadlines of
the run on the clock.
-/

namespace Keyhold

/-- The same record on a clock that is ahead by an offset in nanoseconds. -/
def Event.shift (event : Event) (offset : Int) : Event :=
  { event with stamp := event.stamp.shift offset }

namespace Panel

/-- The panel of the same presses on a clock that is ahead by an offset in nanoseconds. -/
def shift (panel : Panel) (offset : Int) : Panel := ⟨panel.keys.map (·.shift offset)⟩

/-- The same call on a clock that is ahead by an offset in nanoseconds. -/
def Call.shift (offset : Int) : Call → Call
  | .feed event => .feed (event.shift offset)
  | .retire now => .retire (now.shift offset)
  | .wait now => .wait (now.shift offset)

/-- The same exchange on a clock that is ahead by an offset in nanoseconds: the answer is the
same. -/
def shiftExchange (offset : Int) (exchange : Exchange) : Exchange where
  before := exchange.before.shift offset
  input := exchange.input.shift offset
  after := exchange.after.shift offset
  output := exchange.output

variable {panel next last : Panel} {call : Call} {answer : Answer} {offset : Int}
  {exchanges : List Exchange} {calls : List Call} {bindings : Bindings} {window : Span}

/-- The keys of a new panel know no times. -/
theorem shift_start (bindings : Bindings) (window : Span) (offset : Int) :
    (start bindings window).shift offset = start bindings window := by
  simp [start, shift, Function.comp_def]

/-- Whether the clock can represent all deadlines. -/
def InClock (panel : Panel) : Prop := ∀ tracker ∈ panel.keys, tracker.InClock

/-! ## One call -/

/-- A replacement on the shifted clock is the shifted replacement. -/
theorem updateFirst_shift {code : UInt16} {update shifted : Tracker → Option Tracker}
    {keys others : List Tracker}
    (commutes : ∀ tracker next, update tracker = some next → (next.shift offset).InClock →
      shifted (tracker.shift offset) = some (next.shift offset))
    (updated : updateFirst code update keys = some others)
    (inClock : ∀ tracker ∈ others, (tracker.shift offset).InClock) :
    updateFirst code shifted (keys.map (·.shift offset)) = some (others.map (·.shift offset)) := by
  induction keys generalizing others with
  | nil =>
    cases updated
    rfl
  | cons first rest ih =>
    rw [updateFirst] at updated
    rw [List.map_cons, updateFirst, Tracker.code_shift]
    split at updated
    case isTrue here =>
      obtain ⟨after, changed, rfl⟩ := Option.map_eq_some_iff.mp updated
      have first := commutes _ after changed (inClock after List.mem_cons_self)
      rw [if_pos here, first, Option.map_some, List.map_cons]
    case isFalse away =>
      obtain ⟨changed, further, rfl⟩ := Option.map_eq_some_iff.mp updated
      have below := ih further fun tracker member => inClock tracker (List.mem_cons_of_mem _ member)
      rw [if_neg away, below, Option.map_some, List.map_cons]

/-- Feeding a shifted panel a shifted record gives the shifted panel. -/
theorem feed?_shift {event : Event} (fed : panel.feed? event = some next)
    (inClock : (next.shift offset).InClock) :
    (panel.shift offset).feed? (event.shift offset) = some (next.shift offset) := by
  rw [feed?_eq] at fed ⊢
  change (if event.isKey = true then _ else _) = _
  split at fed
  case isTrue isKey =>
    obtain ⟨keys, updated, rfl⟩ := Option.map_eq_some_iff.mp fed
    have shifted : updateFirst event.code
        (·.handle (event.stamp.shift offset) event.isPress) (panel.keys.map (·.shift offset)) =
          some (keys.map (·.shift offset)) :=
      updateFirst_shift (fun _ _ => Tracker.handle_shift) updated fun tracker member =>
        inClock (tracker.shift offset) (List.mem_map_of_mem member)
    rw [if_pos isKey]
    exact Option.map_eq_some_iff.mpr ⟨_, shifted, rfl⟩
  case isFalse other =>
    cases fed
    rw [if_neg other]

/-- A shifted record goes where the record goes. -/
theorem dispatch_shift (panel : Panel) (event : Event) (offset : Int) :
    (panel.shift offset).dispatch (event.shift offset) = panel.dispatch event := by
  have known (code : UInt16) :
      ((panel.shift offset).key? code).isSome = (panel.key? code).isSome := by
    rw [key?, shift, List.find?_map, Option.isSome_map]
    rfl
  simp only [dispatch, known]
  rfl

/-- A shifted panel retires at the shifted time, with the same firings. -/
theorem retire_shift (panel : Panel) (now : Instant) (offset : Int) :
    (panel.shift offset).retire (now.shift offset) =
      ((panel.retire now).1.shift offset, (panel.retire now).2) := by
  simp [retire, shift, Tracker.expire_shift, List.filterMap_map, Function.comp_def]

/-- The deadlines of a shifted panel are the shifted ones. -/
theorem deadlines_shift (panel : Panel) (offset : Int) :
    (panel.shift offset).deadlines = panel.deadlines.map (·.shift offset) := by
  simp [deadlines, shift, List.filterMap_map, List.map_filterMap, Function.comp_def]

/-- A shifted panel waits as long at the shifted time. -/
theorem nextWait?_shift (panel : Panel) (now : Instant) (offset : Int) :
    (panel.shift offset).nextWait? (now.shift offset) = panel.nextWait? now := by
  simp [nextWait?, deadlines_shift, Function.comp_def]

/-- A shifted call of a shifted panel has the same answer and leads to the shifted panel, if the
clock can represent its deadlines. -/
theorem call?_shift (called : panel.call? call = some (next, answer))
    (inClock : (next.shift offset).InClock) :
    (panel.shift offset).call? (call.shift offset) = some (next.shift offset, answer) := by
  cases call with
  | feed event =>
    obtain ⟨fed, changed, same⟩ := Option.map_eq_some_iff.mp called
    cases same
    rw [Call.shift, call?, feed?_shift changed inClock, dispatch_shift, Option.map_some]
  | retire now =>
    cases called
    rw [Call.shift, call?, retire_shift]
  | wait now =>
    cases called
    rw [Call.shift, call?, nextWait?_shift]

/-! ## Runs of calls -/

/-- The clock can represent all deadlines that a course of calls leads to. -/
theorem inClock_of_course (course : Course Answers panel exchanges last)
    (initially : panel.InClock) : ∀ exchange ∈ exchanges, exchange.after.InClock :=
  course.keeps_after (P := InClock) (fun called before =>
    keys_keep_call? Tracker.inClock_of_step called before) initially

/-- A course of calls on the shifted clock, where that can represent all deadlines. -/
theorem course_shift (course : Course Answers panel exchanges last)
    (inClock : ∀ exchange ∈ exchanges, (exchange.after.shift offset).InClock) :
    Course Answers (panel.shift offset) (exchanges.map (shiftExchange offset))
      (last.shift offset) := by
  induction exchanges generalizing panel with
  | nil => exact congrArg (·.shift offset) course
  | cons exchange rest ih =>
    obtain ⟨same, called, further⟩ := course
    subst same
    have here := call?_shift called (inClock exchange List.mem_cons_self)
    have after := ih further fun other member => inClock other (List.mem_cons_of_mem _ member)
    exact ⟨rfl, here, after⟩

/-- Whether the clock can represent all deadlines of a run when they are shifted. -/
def Admits (exchanges : List Exchange) (offset : Int) : Prop :=
  ∀ exchange ∈ exchanges, ∀ deadline ∈ exchange.after.deadlines,
    (deadline.shift offset).nanos < Instant.ceiling

instance (exchanges : List Exchange) (offset : Int) : Decidable (Admits exchanges offset) :=
  inferInstanceAs (Decidable (∀ exchange ∈ exchanges, ∀ deadline ∈ exchange.after.deadlines,
    (deadline.shift offset).nanos < Instant.ceiling))

/-- The shifted deadlines are those of the shifted panels. -/
theorem admits_iff :
    Admits exchanges offset ↔ ∀ exchange ∈ exchanges, (exchange.after.shift offset).InClock := by
  refine forall₂_congr fun exchange _ => ?_
  constructor
  · intro below tracker member moment awaited
    have shifted := mem_deadlines_iff.mpr ⟨tracker, member, awaited⟩
    rw [deadlines_shift] at shifted
    obtain ⟨deadline, pending, rfl⟩ := List.mem_map.mp shifted
    exact below deadline pending
  · intro inClock deadline pending
    have shifted : deadline.shift offset ∈ (exchange.after.shift offset).deadlines := by
      rw [deadlines_shift]
      exact List.mem_map_of_mem pending
    obtain ⟨tracker, member, awaited⟩ := mem_deadlines_iff.mp shifted
    exact inClock tracker member _ awaited

/-- Of the times of a run only the distances matter. If the times of all calls are shifted by an
offset that keeps the deadlines of the run on the clock, the run of the shifted calls goes through
the shifted panels with the same answers: what became of the records, the firings with the time for
which the key was held, and the waits. Phases are the same and every deadline is shifted by the
offset. There is no such run for any other offset. -/
theorem only_distances_matter
    (ran : (start bindings window).calls? calls = some (exchanges, last)) (offset : Int) :
    Admits exchanges offset ↔
      (start bindings window).calls? (calls.map (Call.shift offset)) =
        some (exchanges.map (shiftExchange offset), last.shift offset) := by
  obtain ⟨course, rfl⟩ := course_of_calls? ran
  rw [admits_iff]
  constructor
  · intro inClock
    have shifted := run?_of_course (course_shift course inClock)
    rw [shift_start, List.map_map] at shifted
    rw [List.map_map]
    exact shifted
  · intro shiftedRan exchange member
    have shifted := (course_of_calls? shiftedRan).1
    exact inClock_of_course shifted (keys_inClock_start bindings window) _
      (List.mem_map_of_mem member)

/-- One key is held until its long action runs; the other comes up after a twentieth of a second. -/
def unshiftedCalls : List Call :=
  [.feed ⟨⟨0⟩, 1, 116, 1⟩, .wait ⟨700000000⟩, .feed ⟨⟨1000000000⟩, 1, 30, 1⟩,
    .feed ⟨⟨1050000000⟩, 1, 30, 0⟩, .retire ⟨1060000000⟩, .retire ⟨4000000000⟩]

/-- The run of the two keys. -/
def unshiftedRun : List Exchange × Panel :=
  ((start .twoKeys (.ofMillis 10)).calls? unshiftedCalls).get (by decide)

/-- The two keys have a run. -/
theorem ran_unshifted : (start .twoKeys (.ofMillis 10)).calls? unshiftedCalls =
    some (unshiftedRun.1, unshiftedRun.2) :=
  Option.eq_some_of_isSome (by decide)

/-- The offset that takes the deadline of the long action to the last reading of the clock. -/
def lastOffset : Int := Instant.ceiling - 4000000001

/-- The statement on offsets at the two keys: the last offset that the clock admits leaves the wait
and the firings as they were, and the run of one that is greater by a nanosecond is another one. -/
theorem distances_of_unshiftedCalls :
    Admits unshiftedRun.1 lastOffset ∧
    (start .twoKeys (.ofMillis 10)).calls? (unshiftedCalls.map (Call.shift lastOffset)) =
      some (unshiftedRun.1.map (shiftExchange lastOffset), unshiftedRun.2.shift lastOffset) ∧
    unshiftedRun.1.map (·.output) =
      [.dispatched .processed, .waits (some ⟨3300000000⟩), .dispatched .processed,
        .dispatched .processed, .fired [⟨30, none, "C", false, 50⟩],
        .fired [⟨116, none, "B", false, 4000⟩]] ∧
    (start .twoKeys (.ofMillis 10)).calls? (unshiftedCalls.map (Call.shift (lastOffset + 1))) ≠
      some (unshiftedRun.1.map (shiftExchange (lastOffset + 1)),
        unshiftedRun.2.shift (lastOffset + 1)) := by
  have admitted : Admits unshiftedRun.1 lastOffset := by decide
  have beyond : ¬ Admits unshiftedRun.1 (lastOffset + 1) := by decide
  have shifted := (only_distances_matter ran_unshifted lastOffset).mp admitted
  exact ⟨admitted, shifted, by decide, fun ran =>
    beyond ((only_distances_matter ran_unshifted (lastOffset + 1)).mpr ran)⟩

end Panel

end Keyhold
