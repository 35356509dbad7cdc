import Keyhold.Proofs.Panel.Calls
import Keyhold.Proofs.Panel.Product
import Keyhold.Proofs.Panel.Sleep

/-!
# The range of the clock

Deadlines are the only readings that a panel computes. Each lies a trigger time after the start of
a press, or the debounce window after a release, and both of these are 64-bit counts of
milliseconds. So a clock on which no record is stamped within the greatest such span of its end can
represent every deadline, however old the press is from which a deadline is counted.
`clock_never_overflows` says of every run of calls that it comes to an end, with deadlines and waits
that the clock can represent.
-/

namespace Keyhold

/-- Whether a 64-bit count of seconds can hold a span. -/
def Span.Fits (span : Span) : Prop := span.nanos < 18446744073709551616 * 1000000000

namespace Instant

variable {moment later earlier : Instant}

/-- The last second of the clock from which it can show every 64-bit count of milliseconds. -/
def lastSafeSecond : Int := 9223372036854775807 - 18446744073709552

/-- Whether the clock can show a moment and any configured span after it. -/
structure Safe (moment : Instant) : Prop where
  above : bottom ≤ moment.nanos
  below : moment.nanos / 1000000000 ≤ lastSafeSecond

instance (moment : Instant) : Decidable moment.Safe :=
  decidable_of_iff (bottom ≤ moment.nanos ∧ moment.nanos / 1000000000 ≤ lastSafeSecond)
    ⟨fun ⟨above, below⟩ => ⟨above, below⟩, fun safe => ⟨safe.above, safe.below⟩⟩

/-- The clock can show the end of every count of milliseconds that begins at a safe moment. -/
theorem Safe.readable_later (safe : moment.Safe) (millis : UInt64) :
    (moment.later (.ofMillis millis)).Readable := by
  have count : millis.toNat < 18446744073709551616 := millis.toNat_lt
  have above := safe.above
  have below := safe.below
  have seconds : moment.nanos < (lastSafeSecond + 1) * 1000000000 := by omega
  rw [Readable, nanos_later]
  simp only [Span.ofMillis, bottom, ceiling, lastSafeSecond] at *
  omega

/-- The span between two readings of the clock fits. -/
theorem fits_since (first : later.Readable) (second : earlier.Readable) :
    (later.since earlier).Fits := by
  obtain ⟨_, below⟩ := first
  obtain ⟨above, _⟩ := second
  simp only [Span.Fits, since, bottom, ceiling] at *
  omega

end Instant

/-- A key that is held from a safe moment on waits for a moment that the clock can show. -/
theorem Binding.readable_heldUntil? {binding : Binding} {origin deadline : Instant}
    (safe : origin.Safe) (awaited : binding.heldUntil? origin = some deadline) :
    deadline.Readable := by
  obtain ⟨action, _, rfl⟩ := Option.map_eq_some_iff.mp awaited
  exact safe.readable_later action.trigger

namespace Tracker

variable {tracker next : Tracker} {input : Input} {firing : Option Firing} {deadline : Instant}

/-- Whether a record is stamped at a safe moment. Looks at a deadline may come at any time. -/
def Input.Safe : Input → Prop
  | .record stamp _ => stamp.Safe
  | .timeout _ => True

/-- Whether the window of a tracker is a count of milliseconds, its press started at a safe moment,
and the clock can show its deadline. -/
structure InRange (tracker : Tracker) : Prop where
  window : ∃ millis, tracker.window = .ofMillis millis
  origin : ∀ origin, tracker.pressedAt = some origin → origin.Safe
  deadline : ∀ deadline, tracker.deadline = some deadline → deadline.Readable

/-- A key that is up waits for nothing. -/
theorem inRange_start (binding : Binding) (millis : UInt64) :
    (start binding (.ofMillis millis)).InRange where
  window := ⟨millis, rfl⟩
  origin := nofun
  deadline := nofun

/-- The clock can show what an input asks for. A press that goes on has its deadline counted from
its start, which was safe in its own time. -/
theorem InRange.readable_of_sets? (inRange : tracker.InRange) (safe : input.Safe)
    (asked : tracker.sets? input = some deadline) : deadline.Readable := by
  cases input with
  | timeout now => contradiction
  | record stamp down =>
    cases down with
    | false =>
      obtain ⟨millis, window⟩ := inRange.window
      obtain ⟨_, same⟩ := Option.ite_none_right_eq_some.mp asked
      cases same
      rw [window]
      exact safe.readable_later millis
    | true =>
      rw [sets?] at asked
      split at asked
      case h_1 => exact Binding.readable_heldUntil? safe asked
      case h_2 =>
        have origin : (tracker.pressedAt.getD stamp).Safe := by
          cases began : tracker.pressedAt with
          | none => exact safe
          | some origin => exact inRange.origin origin began
        exact Binding.readable_heldUntil? origin asked
      all_goals contradiction

/-- The start of a press is that of the one before or the stamp of a record. -/
theorem Change.pressedAt (change : Change tracker input next firing) {origin : Instant}
    (began : next.pressedAt = some origin) :
    tracker.pressedAt = some origin ∨ ∃ down, input = .record origin down := by
  cases change with
  | begins stamp up =>
    cases began
    exact .inr ⟨true, rfl⟩
  | resumes stamp bouncing =>
    cases before : tracker.pressedAt with
    | none =>
      rw [before] at began
      cases began
      exact .inr ⟨true, rfl⟩
    | some earlier =>
      rw [before] at began
      exact .inl began
  | _ => exact .inl began

/-- A safe input has a step. -/
theorem InRange.step (inRange : tracker.InRange) (safe : input.Safe) :
    ∃ next firing, tracker.step input = some (next, firing) := by
  cases stepped : tracker.step input with
  | some result => exact ⟨result.1, result.2, rfl⟩
  | none =>
    obtain ⟨deadline, asked, beyond⟩ := step_eq_none_iff.mp stepped
    have shown := inRange.readable_of_sets? safe asked
    exact absurd shown.2 (Int.not_lt.mpr beyond)

/-- A safe input keeps a tracker in range. -/
theorem InRange.keeps (inRange : tracker.InRange) (safe : input.Safe)
    (stepped : tracker.step input = some (next, firing)) : next.InRange := by
  have change := change_of_step stepped
  refine ⟨?_, fun origin began => ?_, fun deadline awaited => ?_⟩
  · rw [change.fixed.2]
    exact inRange.window
  · rcases change.pressedAt began with before | ⟨down, rfl⟩
    · exact inRange.origin origin before
    · exact safe
  · rcases change.deadline with asked | kept
    · exact inRange.readable_of_sets? safe (asked.symm.trans awaited)
    · exact inRange.deadline deadline (kept.symm.trans awaited)

end Tracker

namespace Panel

variable {panel : Panel} {call : Call} {calls : List Call} {bindings : Bindings}

/-- Whether a record is stamped at a safe moment. All other calls may name any time. -/
def Call.Safe : Call → Prop
  | .feed event => event.stamp.Safe
  | .retire _ => True
  | .wait _ => True

instance (call : Call) : Decidable call.Safe :=
  match call with
  | .feed event => inferInstanceAs (Decidable event.stamp.Safe)
  | .retire _ => inferInstanceAs (Decidable True)
  | .wait _ => inferInstanceAs (Decidable True)

/-- Whether all keys of a panel are in range. -/
def InRange (panel : Panel) : Prop := ∀ tracker ∈ panel.keys, tracker.InRange

/-- A safe input keeps the keys of a panel in range. -/
theorem InRange.keeps {next : Panel} {input : Input} {firings : List Firing}
    (inRange : panel.InRange) (safe : input.toKey.Safe)
    (change : Change panel input next firings) : next.InRange :=
  change.keys_keep (P := Tracker.InRange) (fun stepped before => before.keeps safe stepped) inRange

/-- A safe record is taken, and the keys stay in range. -/
theorem InRange.feed? {event : Event} (inRange : panel.InRange) (safe : event.stamp.Safe) :
    ∃ next, panel.feed? event = some next ∧ next.InRange := by
  have input : (Input.feed event).toKey.Safe := safe
  cases fed : panel.feed? event with
  | none =>
    obtain ⟨_, tracker, key, stuck⟩ := feed?_eq_none_iff.mp fed
    have member : tracker ∈ panel.keys := List.mem_of_find?_eq_some key
    obtain ⟨_, _, stepped⟩ := (inRange tracker member).step input
    rw [Input.toKey, Tracker.step, stuck, Option.map_none] at stepped
    contradiction
  | some next =>
    have change : Change panel (.feed event) next [] := by
      rw [Change, step, fed, Option.map_some]
    exact ⟨next, rfl, inRange.keeps input change⟩

/-- A safe call has an answer, and the keys stay in range. -/
theorem InRange.call? (inRange : panel.InRange) (safe : call.Safe) :
    ∃ next answer, panel.call? call = some (next, answer) ∧ next.InRange := by
  cases call with
  | wait now => exact ⟨panel, _, rfl, inRange⟩
  | retire now =>
    have change : Change panel (.retire now) (panel.retire now).1 (panel.retire now).2 := rfl
    have looks : (Input.retire now).toKey.Safe := trivial
    exact ⟨_, _, rfl, inRange.keeps looks change⟩
  | feed event =>
    obtain ⟨next, fed, after⟩ := inRange.feed? safe
    refine ⟨next, .dispatched (panel.dispatch event), ?_, after⟩
    rw [Panel.call?, fed, Option.map_some]

/-- Safe calls have a run, and the keys stay in range. -/
theorem InRange.calls? (inRange : panel.InRange) (safe : ∀ call ∈ calls, call.Safe) :
    ∃ exchanges last, panel.calls? calls = some (exchanges, last) ∧
      ∀ exchange ∈ exchanges, exchange.after.InRange := by
  induction calls generalizing panel with
  | nil => exact ⟨[], panel, rfl, nofun⟩
  | cons call rest ih =>
    obtain ⟨next, answer, called, after⟩ := inRange.call? (safe call List.mem_cons_self)
    obtain ⟨exchanges, last, ran, others⟩ :=
      ih after fun other member => safe other (List.mem_cons_of_mem _ member)
    refine ⟨⟨panel, call, next, answer⟩ :: exchanges, last, run?_cons called ran, ?_⟩
    intro exchange member
    rcases List.mem_cons.mp member with rfl | further
    · exact after
    · exact others exchange further

/-- The clock can show the deadlines of a panel in range. -/
theorem InRange.readable_of_mem (inRange : panel.InRange) {deadline : Instant}
    (member : deadline ∈ panel.deadlines) : deadline.Readable := by
  obtain ⟨tracker, present, pending⟩ := mem_deadlines_iff.mp member
  exact (inRange tracker present).deadline deadline pending

/-- Waits from a reading of the clock fit. -/
theorem InRange.fits_of_nextWait? (inRange : panel.InRange) {now : Instant} {wait : Span}
    (readable : now.Readable) (waits : panel.nextWait? now = some wait) : wait.Fits := by
  obtain ⟨deadline, earliest, rfl⟩ := exists_earliest_of_nextWait? waits
  exact Instant.fits_since (inRange.readable_of_mem earliest.awaited) readable

/-- Timeouts are within their bounds. -/
theorem pollTimeout_range (wait : Option Span) :
    -1 ≤ pollTimeout wait ∧ pollTimeout wait ≤ longestTimeout := by
  cases wait with
  | none => decide
  | some span =>
    have bounds := pollTimeout_bounds span
    omega

/-- No arithmetic on the clock overflows for records stamped at safe moments, whatever the actions
and their trigger times, the debounce window and the other times that the calls name. Every such run
has a result. After each of its calls the clock can show all deadlines, through any number of
bounces, and every wait that it answers fits and has a timeout within its bounds. -/
theorem clock_never_overflows (bindings : Bindings) (window : UInt64)
    (safe : ∀ call ∈ calls, call.Safe) :
    ∃ exchanges last,
      (start bindings (.ofMillis window)).calls? calls = some (exchanges, last) ∧
      ∀ exchange ∈ exchanges,
        (∀ deadline ∈ exchange.after.deadlines, deadline.Readable) ∧
        ∀ now wait, exchange.input = .wait now → exchange.output = .waits wait →
          -1 ≤ pollTimeout wait ∧ pollTimeout wait ≤ longestTimeout ∧
          (now.Readable → ∀ span, wait = some span → span.Fits) := by
  have initially : (start bindings (.ofMillis window)).InRange := by
    intro tracker member
    obtain ⟨binding, _, rfl⟩ := List.mem_map.mp member
    exact Tracker.inRange_start binding window
  obtain ⟨exchanges, last, ran, inRange⟩ := initially.calls? safe
  refine ⟨exchanges, last, ran, fun exchange member => ⟨fun deadline pending => ?_, ?_⟩⟩
  · exact (inRange exchange member).readable_of_mem pending
  · intro now wait asked answered
    obtain ⟨least, greatest⟩ := pollTimeout_range wait
    refine ⟨least, greatest, fun readable span waits => ?_⟩
    have called := (course_of_calls? ran).1.change_of_mem member
    rw [asked, answered] at called
    obtain ⟨same, answer⟩ := Prod.mk.inj (Option.some.inj called)
    rw [same] at answer
    have computed : exchange.after.nextWait? now = some span :=
      (Answer.waits.inj answer).trans waits
    exact (inRange exchange member).fits_of_nextWait? readable computed

/-- The last moment from which the clock can show every configured span. -/
def lastSafeMoment : Instant := ⟨Instant.lastSafeSecond * 1000000000 + 999999999⟩

/-- A key whose long action has the greatest trigger time. -/
def slowestKey : Bindings := [⟨116, none, [⟨.long, 18446744073709551615, "A", false⟩]⟩]

/-- The key bounces at the last safe moment, and the deadlines are looked at from the bottom of the
clock. -/
def lastCalls : List Call :=
  [.feed ⟨lastSafeMoment, 1, 116, 1⟩, .feed ⟨lastSafeMoment, 1, 116, 0⟩,
    .feed ⟨lastSafeMoment, 1, 116, 1⟩, .wait ⟨Instant.bottom⟩, .retire lastSafeMoment]

/-- The statement on overflows at the last safe moment, with the greatest window. -/
theorem clock_of_lastCalls :
    (∀ call ∈ lastCalls, call.Safe) ∧
    ∃ exchanges last,
      (start slowestKey (.ofMillis 18446744073709551615)).calls? lastCalls =
        some (exchanges, last) ∧
      ∀ exchange ∈ exchanges, ∀ deadline ∈ exchange.after.deadlines, deadline.Readable := by
  have safe : ∀ call ∈ lastCalls, call.Safe := by decide
  obtain ⟨exchanges, last, ran, each⟩ :=
    clock_never_overflows slowestKey 18446744073709551615 safe
  exact ⟨safe, exchanges, last, ran, fun exchange member => (each exchange member).1⟩

/-- In the second after the last safe one a press can already be too late. -/
example : (start slowestKey .zero).feed?
    ⟨⟨(Instant.lastSafeSecond + 1) * 1000000000 + 385000000⟩, 1, 116, 1⟩ = none := by
  decide

end Panel

end Keyhold
