import Keyhold.Proofs.Daemon.Turn
import Keyhold.Proofs.Tracker.Bounce

/-!
# Releases read late

A turn retires deadlines before it hands on the records it has read. So a long press may be
decided in the very turn that reads the release which ended it in time: exactly when the clock
has reached the deadline by then. `early_release_runs_no_long_action_unless_late` says so for
every reachable daemon, every answer of the system, and all turns after the release in which no
record of the key is read.
-/

namespace Keyhold

namespace Panel

variable {panel next : Panel} {code : UInt16} {tracker : Tracker} {moments : List Moment}
  {now origin : Instant}

/-- A round without records of a key is no more than a look at its deadline. -/
theorem ended_of_quiet {events : List Event} {bound : Instant}
    (ran : panel.run? (Round.inputs ⟨now, events⟩) = some (moments, next))
    (distinct : panel.Distinct) (key : panel.key? code = some tracker)
    (ended : tracker.Ended origin bound)
    (quiet : ∀ event ∈ events, recordFor? code event = none) :
    ∃ after, next.key? code = some after ∧ after.Ended origin bound := by
  obtain ⟨course, inputs⟩ := course_of_run? ran
  obtain ⟨after, found, courseKey, _⟩ := course_of_key course distinct key
  have inputsKey := inputs_of_key course distinct key
  rw [inputs, Round.inputs_forKey?, List.filterMap_eq_nil_iff.mpr quiet] at inputsKey
  obtain ⟨moment, rest, view, isTimeout, noRest⟩ := List.map_eq_cons_iff.mp inputsKey
  rw [view, List.map_eq_nil_iff.mp noRest] at courseKey
  obtain ⟨_, change, same⟩ := courseKey
  rw [isTimeout] at change
  exact ⟨after, found, same ▸ ended.look change⟩

/-- A round that comes before the deadline of a held key and reads its release brings the press to
an end there. -/
theorem ended_of_release {earlier later : List Event} {release : Event}
    (ran : panel.run? (Round.inputs ⟨now, earlier ++ release :: later⟩) = some (moments, next))
    (distinct : panel.Distinct) (key : panel.key? code = some tracker) (sound : tracker.Sound)
    (phase : tracker.phase = .pressed) (began : tracker.pressedAt = some origin)
    (early : tracker.isDue now = false) (releases : (Input.feed release).releases code = true)
    (quiet : ∀ event ∈ later, (Input.feed event).presses code = false)
    (steady : ∀ before other between, earlier = before ++ other :: between →
      (Input.feed other).releases code = true →
      (∃ event ∈ between, (Input.feed event).presses code = true) ∨
        other.stamp ≤ release.stamp) :
    ∃ after, next.key? code = some after ∧ after.Ended origin release.stamp := by
  obtain ⟨course, inputs⟩ := course_of_run? ran
  obtain ⟨after, found, courseKey, _⟩ := course_of_key course distinct key
  have inputsKey := inputs_of_key course distinct key
  obtain ⟨own, concerns, isRelease⟩ := Input.releases_iff.mp releases
  rw [inputs, Round.inputs_forKey?] at inputsKey
  obtain ⟨moment, rest, view, isTimeout, inputsRest⟩ := List.map_eq_cons_iff.mp inputsKey
  rw [view] at courseKey
  obtain ⟨_, change, further⟩ := courseKey
  rw [isTimeout] at change
  obtain ⟨same, _⟩ := change.ignored early
  rw [same] at further
  have isOwn : recordFor? code release = some own := concerns
  rw [List.filterMap_append, List.filterMap_cons_some isOwn] at inputsRest
  have time : own.time = release.stamp := Input.time_of_forKey? concerns
  have onlyRecords : ∀ other ∈ rest, other.input.isRecord = true := by
    intro other member
    have input : other.input ∈ rest.map Moment.input := List.mem_map_of_mem member
    rw [inputsRest, ← List.filterMap_cons_some isOwn, ← List.filterMap_append] at input
    obtain ⟨event, _, concerns⟩ := List.mem_filterMap.mp input
    exact isRecord_of_recordFor? concerns
  have quietOwn : ∀ input ∈ later.filterMap (recordFor? code), input.isPress = false := by
    intro input member
    obtain ⟨event, member, view⟩ := List.mem_filterMap.mp member
    have unpressed := quiet event member
    rw [Input.presses, Input.forKey?, view] at unpressed
    exact unpressed
  have steadyOwn : ∀ before other between,
      earlier.filterMap (recordFor? code) = before ++ other :: between →
      other.isRelease = true →
      (∃ input ∈ between, input.isPress = true) ∨ other.time ≤ own.time := by
    intro before other between parts isRelease
    obtain ⟨first, rest, rfl, _, parts⟩ := List.filterMap_eq_append_iff.mp parts
    obtain ⟨idle, event, last, rfl, _, view, rfl⟩ := List.filterMap_eq_cons_iff.mp parts
    have isOther : (Input.feed event).forKey? code = some other := view
    rcases steady (first ++ idle) event last (by rw [List.append_assoc])
      (Input.releases_iff.mpr ⟨other, isOther, isRelease⟩) with ⟨press, member, presses⟩ | order
    · obtain ⟨input, isInput, isPress⟩ := Input.presses_iff.mp presses
      exact .inl ⟨input, List.mem_filterMap.mpr ⟨press, member, isInput⟩, isPress⟩
    · rw [Input.time_of_forKey? isOther, time]
      exact .inr order
  obtain ⟨bounces, began, up, came, order⟩ := Tracker.bounces_of_release further sound phase began
    inputsRest onlyRecords isRelease quietOwn steadyOwn
  rw [time] at order
  exact ⟨after, found, .waits bounces began came order⟩

end Panel

namespace Daemon

open Keyhold.System

variable {bindings : Bindings} {window : Span} {code : UInt16}

/-- The daemons that turns without records of a key lead to. -/
inductive QuietTurns (code : UInt16) (daemon : Daemon) : Daemon → Prop where
  /-- No turn is taken. -/
  | stay : QuietTurns code daemon daemon
  /-- One more turn is taken that does not end the daemon. -/
  | turn {middle next : Daemon} {outcome : Outcome} {now : Instant}
      (before : QuietTurns code daemon middle) (passes : middle.Passes outcome now next none)
      (quiet : ∀ event ∈ outcome.events, Panel.recordFor? code event = none) :
      QuietTurns code daemon next

/-- Turns keep a panel distinct. -/
theorem Passes.distinct {daemon next : Daemon} {outcome : Outcome} {now : Instant}
    (passes : daemon.Passes outcome now next none) (distinct : daemon.panel.Distinct) :
    next.panel.Distinct := by
  obtain ⟨_, ran⟩ := passes.run
  exact (Panel.course_of_run? ran).1.keeps Panel.Change.distinct distinct

/-- Quiet turns do not undo the end of a press. -/
theorem QuietTurns.ended {daemon last : Daemon} {tracker : Tracker} {origin bound : Instant}
    (turns : QuietTurns code daemon last) (distinct : daemon.panel.Distinct)
    (key : daemon.panel.key? code = some tracker) (ended : tracker.Ended origin bound) :
    last.panel.Distinct ∧
      ∃ after, last.panel.key? code = some after ∧ after.Ended origin bound := by
  induction turns with
  | stay => exact ⟨distinct, tracker, key, ended⟩
  | turn before passes quiet ih =>
    obtain ⟨distinctMiddle, middle, keyMiddle, endedMiddle⟩ := ih
    obtain ⟨_, ran⟩ := passes.run
    exact ⟨passes.distinct distinctMiddle,
      Panel.ended_of_quiet ran distinctMiddle keyMiddle endedMiddle quiet⟩

/-- The trackers of a reachable daemon with distinct bindings are sound, and its panel is
distinct. -/
theorem Reachable.sound {daemon : Daemon} {tracker : Tracker}
    (reachable : Reachable bindings window daemon) (distinct : bindings.Distinct)
    (key : daemon.panel.key? code = some tracker) :
    daemon.panel.Distinct ∧ tracker.Sound := by
  obtain ⟨rounds, moments, ran⟩ := reachable.rounds
  obtain ⟨course, _⟩ := Panel.course_of_run? ran
  exact ⟨course.keeps Panel.Change.distinct (Panel.distinct_start distinct window),
    Panel.keys_sound course tracker (List.mem_of_find?_eq_some key)⟩

/-- What becomes of a long press whose release is stamped before its deadline. If the turn that
reads the release retires deadlines before that deadline too, neither this turn nor any later
one without records of the key runs a long action whose time exceeds the press. If it retires
them later, it runs one at once. -/
theorem early_release_runs_no_long_action_unless_late {daemon next : Daemon} {outcome : Outcome}
    {now origin deadline : Instant} {ending : Option Ending} {tracker : Tracker}
    {earlier later : List Event} {release : Event}
    (reachable : Reachable bindings window daemon) (distinct : bindings.Distinct)
    (passes : daemon.Passes outcome now next ending)
    (key : daemon.panel.key? code = some tracker) (phase : tracker.phase = .pressed)
    (began : tracker.pressedAt = some origin) (waits : tracker.deadline = some deadline)
    (parts : outcome.events = earlier ++ release :: later)
    (releases : (Panel.Input.feed release).releases code = true)
    (early : ¬ deadline ≤ release.stamp)
    (quiet : ∀ event ∈ later, (Panel.Input.feed event).presses code = false)
    (steady : ∀ before other between, earlier = before ++ other :: between →
      (Panel.Input.feed other).releases code = true →
      (∃ event ∈ between, (Panel.Input.feed event).presses code = true) ∨
        other.stamp ≤ release.stamp) :
    (¬ deadline ≤ now → daemon.panel.decision? code now = none ∧
      (ending = none → ∀ last, QuietTurns code next last → ∀ time action,
        last.panel.decision? code time = some action → action.kind = .long →
        (Span.ofMillis action.trigger).nanos ≤ (release.stamp.since origin).nanos)) ∧
    (deadline ≤ now → (now.since origin).nanos / 1000000 < UInt64.size → origin ≤ release.stamp →
      ∃ action, daemon.panel.decision? code now = some action ∧ action.kind = .long ∧
        (release.stamp.since origin).nanos < (Span.ofMillis action.trigger).nanos) := by
  obtain ⟨distinctNow, sound⟩ := reachable.sound distinct key
  refine ⟨fun before => ?_, fun late fits order => ?_⟩
  · have idle : tracker.isDue now = false := by simpa [Tracker.isDue, waits] using before
    refine ⟨?_, fun goesOn last turns time action chosen long => ?_⟩
    · rw [Panel.decision?, key, Option.bind_some, idle]
      rfl
    · subst goesOn
      obtain ⟨_, ran⟩ := passes.run
      rw [parts] at ran
      obtain ⟨after, keyAfter, ended⟩ := Panel.ended_of_release ran distinctNow key sound phase
        began idle releases quiet steady
      obtain ⟨_, final, keyFinal, endedFinal⟩ :=
        turns.ended (passes.distinct distinctNow) keyAfter ended
      rw [Panel.decision?, keyFinal, Option.bind_some] at chosen
      obtain ⟨due, chosen⟩ := Option.ite_none_right_eq_some.mp chosen
      exact endedFinal.decided_long due chosen long
  · obtain ⟨start, began', deadlineOf⟩ := sound.pressed phase
    obtain rfl : start = origin := Option.some.inj (began'.symm.trans began)
    rw [waits, Binding.heldUntil?] at deadlineOf
    obtain ⟨action, held, rfl⟩ := Option.map_eq_some_iff.mp deadlineOf.symm
    obtain ⟨_, isLong⟩ := Option.filter_eq_some_iff.mp held
    have due : tracker.isDue now = true := by simpa [Tracker.isDue, waits] using late
    have length : tracker.heldMillis now = (now.since start).wholeMillis := by
      simp [Tracker.heldMillis, Tracker.endOfPress, phase, began]
    have reached := Instant.le_wholeMillis_since late fits
    simp only [Instant.le_iff, Instant.nanos_later] at early order
    refine ⟨action, ?_, by simpa using isLong, ?_⟩
    · rw [Panel.decision?, key, Option.bind_some, due, if_pos rfl, Tracker.decide?, length]
      exact Action.choose?_of_held held reached
    · simp only [Instant.since]
      omega

/-! ## A turn that comes late -/

/-- A system with one device: a key goes down at once, and its release is stamped before four
seconds but read when the clock has reached them. The state counts the waits. -/
def lateHost : (request : Request) → Nat → request.Answer × Nat
  | .clock, waits => (⟨if waits ≤ 1 then 0 else 4000000000⟩, waits)
  | .wallClock, waits => (⟨if waits ≤ 1 then 0 else 4000000000⟩, waits)
  | .log _, waits => ((), waits)
  | .readText _, waits => (.error .noEntry, waits)
  | .isFile _, waits => (false, waits)
  | .listDirectory _, waits => (.error .noEntry, waits)
  | .openDevice _, waits => (.ok ⟨⟨0⟩, none, true⟩, waits)
  | .closeDevice _, waits => ((), waits)
  | .readDevice _, waits =>
    (.ok [if waits ≤ 1 then ⟨⟨0⟩, 1, 116, 1⟩ else ⟨⟨3997000000⟩, 1, 116, 0⟩], waits)
  | .startNotices, waits => (.error .notImplemented, waits)
  | .watch _, waits => (.error .notImplemented, waits)
  | .readNotices, waits => (.error .wouldBlock, waits)
  | .openSignalPipe signals, waits => (.ok ⟨signals.length⟩, waits)
  | .drain _, waits => ((), waits)
  | .poll descriptors _, waits =>
    (.ok (descriptors.map fun descriptor =>
      if descriptor = .device ⟨0⟩ then .readable else .idle), waits + 1)
  | .spawn _, waits => (.ok ⟨1⟩, waits)
  | .runToEnd _, waits => (.ok (.exited 0), waits)
  | .check _, waits => (.ok none, waits)

/-- The monitor of the one device. -/
def lateMonitor : Monitor := ⟨[⟨⟨"key"⟩, false, some ⟨0⟩, some ⟨0⟩, none⟩], [⟨2⟩, ⟨1⟩], false⟩

/-- The daemon once it is ready. -/
def readyDaemon : Daemon :=
  ⟨lateMonitor, .start [.shortAndLong] (.ofMillis 10), .start .blocking, ⟨2⟩, ⟨1⟩, false⟩

/-- The tracker of the key that went down. -/
def lateTracker : Tracker :=
  ⟨.shortAndLong, .ofMillis 10, .pressed, some ⟨0⟩, none, some ⟨4000000000⟩⟩

/-- The daemon after the turn that read the press. -/
def lateDaemon : Daemon := { readyDaemon with panel := ⟨[lateTracker]⟩ }

/-- The release that is read late. -/
def lateRelease : Event := ⟨⟨3997000000⟩, 1, 116, 0⟩

/-- What the late turn reads. -/
def lateOutcome : Outcome := ⟨[lateRelease], [], []⟩

/-- The daemon after the late turn. -/
def lateNext : Daemon :=
  { lateDaemon with panel :=
    ⟨[{ lateTracker with
      phase := .released
      releasedAt := some ⟨4000000000⟩
      deadline := none }]⟩ }

/-- The daemon that waits for the release is reachable. -/
theorem reachable_lateDaemon : Reachable [.shortAndLong] (.ofMillis 10) lateDaemon := by
  have ready : (Daemon.start [⟨"key"⟩] [] [.shortAndLong] (.ofMillis 10) .blocking false).Yields
      (.ok readyDaemon) :=
    Routine.yields_run lateHost _ 0
  have turns : readyDaemon.turn.Yields (lateDaemon, none) := Routine.yields_run lateHost _ 0
  exact .turn (.start ready) turns

/-- The late turn reads the release and finds the deadline reached. -/
theorem passes_late : lateDaemon.Passes lateOutcome ⟨4000000000⟩ lateNext none := by
  have waits : lateDaemon.wait.Yields (lateDaemon, .ok lateOutcome) :=
    Routine.yields_run lateHost _ 1
  have collects : (lateDaemon.collect lateOutcome).Yields lateDaemon :=
    Routine.yields_run lateHost _ 2
  have fires : (lateDaemon.fireAt ⟨4000000000⟩).Yields
      ({ lateDaemon with panel := (lateDaemon.panel.retire ⟨4000000000⟩).1 }, ⟨1, false⟩) :=
    Routine.yields_run lateHost _ 2
  exact ⟨_, _, _, _, waits, collects, fires, Routine.yields_run lateHost _ 2⟩

/-- A long press runs for a key that was let go before its deadline, if the turn that reads the
release comes late. -/
theorem late_turn_runs_long_action :
    ¬ ∀ (bindings : Bindings) (window : Span) (code : UInt16) (daemon next : Daemon)
      (outcome : Outcome) (now origin deadline : Instant) (ending : Option Ending)
      (tracker : Tracker) (earlier later : List Event) (release : Event),
      Reachable bindings window daemon → bindings.Distinct →
      daemon.Passes outcome now next ending →
      daemon.panel.key? code = some tracker → tracker.phase = .pressed →
      tracker.pressedAt = some origin → tracker.deadline = some deadline →
      outcome.events = earlier ++ release :: later →
      (Panel.Input.feed release).releases code = true → ¬ deadline ≤ release.stamp →
      (∀ event ∈ later, (Panel.Input.feed event).presses code = false) →
      ∀ action, daemon.panel.decision? code now = some action → action.kind = .long →
        (Span.ofMillis action.trigger).nanos ≤ (release.stamp.since origin).nanos := by
  intro never
  have bounded := never [.shortAndLong] (.ofMillis 10) 116 lateDaemon lateNext lateOutcome
    ⟨4000000000⟩ ⟨0⟩ ⟨4000000000⟩ none lateTracker [] [] lateRelease reachable_lateDaemon
    (by decide) passes_late rfl rfl rfl rfl rfl (by decide) (by decide) (by decide)
    ⟨.long, 4000, "B", false⟩ (by decide) rfl
  exact absurd bounded (by decide)

/-- The statement on early releases at the late turn. -/
theorem late_turn_decides :
    ∃ action, lateDaemon.panel.decision? 116 ⟨4000000000⟩ = some action ∧ action.kind = .long ∧
      (lateRelease.stamp.since ⟨0⟩).nanos < (Span.ofMillis action.trigger).nanos := by
  have key : lateDaemon.panel.key? 116 = some lateTracker := rfl
  have parts : lateOutcome.events = [] ++ lateRelease :: [] := rfl
  exact (early_release_runs_no_long_action_unless_late reachable_lateDaemon (by decide)
    passes_late key rfl rfl rfl parts (by decide) (by decide) (by decide) (by simp)).2
    (by decide) (by decide) (by decide)

end Daemon

end Keyhold
