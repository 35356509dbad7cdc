import Keyhold.Daemon
import Keyhold.Proofs.Panel.Run
import Keyhold.Proofs.System.Marks

/-!
# Turns of the daemon

A turn that does not fail while it waits passes through four stages: it waits, collects
commands, retires deadlines at one reading of the clock, and hands on the records it has read.
`Passes` names the records and the reading, so that statements about a turn can speak of them.
Whatever the system answers, a turn does to the panel what a round does.
-/

namespace Keyhold.Daemon

open Keyhold.System

variable {daemon next waited : Daemon} {outcome : Outcome} {now : Instant}
  {ending : Option Ending}

/-- Retires deadlines once the clock has been read. -/
def fireAt (daemon : Daemon) (now : Instant) : Routine (Daemon × FireOutcome) := do
  let ((panel, fired), commands) ←
    (daemon.panel.fireDue now Commands.executor).run daemon.commands
  pure ({ daemon with panel := panel, commands := commands }, fired)

/-- What follows the retirement in a turn. -/
def handOn (daemon : Daemon) (fired : FireOutcome) (outcome : Outcome) :
    Routine (Daemon × Option Ending) :=
  if fired.exitRequested then pure (daemon, some .exitAction)
  else
    match hangUp? daemon.testMode outcome with
    | some path => pure (daemon, some (.hangUp path))
    | none => daemon.take outcome

/-- Whether a turn may read an outcome, retire deadlines at a time, and lead to a daemon. -/
def Passes (daemon : Daemon) (outcome : Outcome) (now : Instant) (next : Daemon)
    (ending : Option Ending) : Prop :=
  ∃ waited collected retired fired, daemon.wait.Yields (waited, .ok outcome) ∧
    (waited.collect outcome).Yields collected ∧
    (collected.fireAt now).Yields (retired, fired) ∧
    (retired.handOn fired outcome).Yields (next, ending)

/-- A turn fails while it waits, or it passes. -/
theorem yields_turn_iff :
    daemon.turn.Yields (next, ending) ↔
      (∃ error, daemon.wait.Yields (next, .error error) ∧
        ending = some (endingOf next.testMode error)) ∨
      ∃ outcome now, daemon.Passes outcome now next ending := by
  rw [turn, Routine.yields_bind]
  constructor
  · rintro ⟨⟨waited, result⟩, waits, further⟩
    cases result with
    | error error =>
      cases further
      exact .inl ⟨error, waits, rfl⟩
    | ok outcome =>
      obtain ⟨collected, collects, further⟩ := Routine.yields_bind.mp further
      obtain ⟨⟨retired, fired⟩, fires, further⟩ := Routine.yields_bind.mp further
      obtain ⟨now, fires⟩ := fires
      exact .inr ⟨outcome, now, waited, collected, retired, fired, waits, collects, fires, further⟩
  · rintro (⟨error, waits, rfl⟩ | ⟨outcome, now, waited, collected, retired, fired, waits,
      collects, fires, further⟩)
    · exact ⟨(next, .error error), waits, rfl⟩
    · refine ⟨(waited, .ok outcome), waits, Routine.yields_bind.mpr ⟨collected, collects, ?_⟩⟩
      exact Routine.yields_bind.mpr ⟨(retired, fired), ⟨now, fires⟩, further⟩

/-! ## The panel in a turn -/

/-- Waiting leaves the panel alone. -/
theorem panel_of_wait {result : Except InputError Outcome}
    (waits : daemon.wait.Yields (waited, result)) : waited.panel = daemon.panel := by
  obtain ⟨_, _, further⟩ := Routine.yields_bind.mp waits
  obtain ⟨_, _, further⟩ := Routine.yields_bind.mp further
  obtain ⟨_, _, further⟩ := Routine.yields_bind.mp further
  cases further
  rfl

/-- Collecting commands leaves the panel alone. -/
theorem panel_of_collect (collects : (daemon.collect outcome).Yields next) :
    next.panel = daemon.panel := by
  simp only [collect] at collects
  split at collects
  · obtain ⟨_, _, further⟩ := Routine.yields_bind.mp collects
    obtain ⟨_, _, further⟩ := Routine.yields_bind.mp further
    cases further
    rfl
  · obtain ⟨_, _, further⟩ := Routine.yields_bind.mp collects
    cases further
    rfl

/-- Firing retires the deadlines of the panel. -/
theorem panel_of_fireAt {fired : FireOutcome}
    (fires : (daemon.fireAt now).Yields (next, fired)) :
    next.panel = (daemon.panel.retire now).1 := by
  obtain ⟨⟨⟨panel, report⟩, commands⟩, runs, further⟩ := Routine.yields_bind.mp fires
  cases further
  rw [Panel.fireDue, StateT.run_bind] at runs
  obtain ⟨_, _, further⟩ := Routine.yields_bind.mp runs
  rw [StateT.run_bind] at further
  obtain ⟨_, _, further⟩ := Routine.yields_bind.mp further
  cases further
  rfl

/-- Records are fed to the panel one after another. -/
theorem run_of_feedAll {panel last : Panel} {events : List Event}
    (feeds : (feedAll panel events).Yields (some last)) :
    ∃ moments, panel.run? (events.map .feed) = some (moments, last) := by
  induction events generalizing panel with
  | nil =>
    cases feeds
    exact ⟨[], rfl⟩
  | cons event rest ih =>
    obtain ⟨_, _, further⟩ := Routine.yields_bind.mp feeds
    cases fed : panel.feed? event with
    | none =>
      rw [fed] at further
      contradiction
    | some next =>
      rw [fed] at further
      obtain ⟨moments, ran⟩ := ih further
      have stepped : panel.step (.feed event) = some (next, []) := by
        rw [Panel.step, fed, Option.map_some]
      exact ⟨_, run?_cons stepped ran⟩

/-- A turn that does not end the daemon does to the panel what a round does. -/
theorem Passes.run (passes : daemon.Passes outcome now next none) :
    ∃ moments, daemon.panel.run? (Panel.Round.inputs ⟨now, outcome.events⟩) =
      some (moments, next.panel) := by
  obtain ⟨waited, collected, retired, fired, waits, collects, fires, further⟩ := passes
  have start : collected.panel = daemon.panel :=
    (panel_of_collect collects).trans (panel_of_wait waits)
  have retires := panel_of_fireAt fires
  rw [start] at retires
  rw [handOn] at further
  split at further
  · cases further
  · split at further
    · cases further
    · rw [take] at further
      obtain ⟨fed, feeds, further⟩ := Routine.yields_bind.mp further
      cases fed with
      | none => cases further
      | some panel =>
        obtain ⟨moments, ran⟩ := run_of_feedAll feeds
        have last : panel = next.panel := by
          simp only at further
          split at further
          · obtain ⟨_, _, further⟩ := Routine.yields_bind.mp further
            cases further
          · cases further
            rfl
        rw [last, retires] at ran
        have stepped : daemon.panel.step (.retire now) =
            some ((daemon.panel.retire now).1, (daemon.panel.retire now).2) := rfl
        exact ⟨_, run?_cons stepped ran⟩

/-! ## Reachable daemons -/

/-- Once its inputs are monitored, a daemon that is getting ready opens its pipes and reports. When
it is ready it begins with a new panel and no commands, and waits for both pipes. -/
theorem opened_of_start {μ : Type} {view : View μ} {marks : List μ} {required missing : List Path}
    {bindings : Bindings} {window : Span} {mode : CommandMode} {testMode : Bool}
    {result : Except StartError Daemon}
    (pipes : ∀ signals answer, view (.openSignalPipe signals) answer = none)
    (logs : ∀ message answer, view (.log message) answer = none)
    (shows : (start required missing bindings window mode testMode).Shows view marks result) :
    ∃ opened, (Monitor.start required missing).Shows view marks opened ∧
      ∀ daemon, result = .ok daemon → ∃ monitor stopPipe childPipe, opened = .ok monitor ∧
        daemon = ⟨(monitor.addWake stopPipe).addWake childPipe, .start bindings window, .start mode,
          stopPipe, childPipe, testMode⟩ := by
  obtain ⟨opened, opening, later, rfl, opens, further⟩ := Routine.shows_bind.mp shows
  refine ⟨opened, ?_⟩
  cases opened with
  | error cause =>
    obtain ⟨rfl, rfl⟩ := further
    rw [List.append_nil]
    exact ⟨opens, fun _ failed => nomatch failed⟩
  | ok monitor =>
    obtain ⟨stop, _, rfl, further⟩ := further
    rw [pipes, Option.toList_none, List.nil_append]
    cases stop with
    | error cause =>
      obtain ⟨rfl, rfl⟩ := further
      rw [List.append_nil]
      exact ⟨opens, fun _ failed => nomatch failed⟩
    | ok stopPipe =>
      obtain ⟨child, _, rfl, further⟩ := further
      rw [pipes, Option.toList_none, List.nil_append]
      cases child with
      | error cause =>
        obtain ⟨rfl, rfl⟩ := further
        rw [List.append_nil]
        exact ⟨opens, fun _ failed => nomatch failed⟩
      | ok childPipe =>
        obtain ⟨_, _, rfl, rfl, rfl⟩ := further
        rw [logs, Option.toList_none, List.append_nil, List.append_nil]
        refine ⟨opens, ?_⟩
        rintro daemon ⟨⟩
        exact ⟨monitor, stopPipe, childPipe, rfl, rfl⟩

/-- A daemon that is ready has been made of a monitor and two pipes. -/
theorem eq_of_start {required missing : List Path} {bindings : Bindings} {window : Span}
    {mode : CommandMode} {testMode : Bool}
    (starts : (start required missing bindings window mode testMode).Yields (.ok daemon)) :
    ∃ monitor stopPipe childPipe, (Monitor.start required missing).Yields (.ok monitor) ∧
      daemon = ⟨(monitor.addWake stopPipe).addWake childPipe, .start bindings window, .start mode,
        stopPipe, childPipe, testMode⟩ := by
  obtain ⟨marks, shows⟩ := Routine.exists_shows_of_yields (fun _ _ => (none : Option Unit)) starts
  obtain ⟨opened, opens, ready⟩ := opened_of_start (fun _ _ => rfl) (fun _ _ => rfl) shows
  obtain ⟨monitor, stopPipe, childPipe, rfl, same⟩ := ready daemon rfl
  exact ⟨monitor, stopPipe, childPipe, opens.yields, same⟩

/-- A daemon that is ready holds a new panel. -/
theorem panel_of_start {required missing : List Path} {bindings : Bindings} {window : Span}
    {mode : CommandMode} {testMode : Bool}
    (starts : (start required missing bindings window mode testMode).Yields (.ok daemon)) :
    daemon.panel = .start bindings window := by
  obtain ⟨monitor, stopPipe, childPipe, _, rfl⟩ := eq_of_start starts
  rfl

/-- The daemons that turns may lead to, whatever the system answers. -/
inductive Reachable (bindings : Bindings) (window : Span) : Daemon → Prop where
  /-- The daemon is ready. -/
  | start {required missing : List Path} {mode : CommandMode} {testMode : Bool} {daemon : Daemon}
      (starts : (Daemon.start required missing bindings window mode testMode).Yields
        (.ok daemon)) :
      Reachable bindings window daemon
  /-- A turn did not end it. -/
  | turn {daemon next : Daemon} (before : Reachable bindings window daemon)
      (turns : daemon.turn.Yields (next, none)) :
      Reachable bindings window next

/-- The panel of a reachable daemon has gone through rounds from its start. -/
theorem Reachable.rounds {bindings : Bindings} {window : Span}
    (reachable : Reachable bindings window daemon) :
    ∃ (rounds : List Panel.Round) (moments : List Panel.Moment),
      (Panel.start bindings window).run? (rounds.flatMap Panel.Round.inputs) =
        some (moments, daemon.panel) := by
  induction reachable with
  | start starts => exact ⟨[], [], by rw [panel_of_start starts]; rfl⟩
  | turn before turns ih =>
    obtain ⟨rounds, moments, ran⟩ := ih
    rcases yields_turn_iff.mp turns with ⟨error, _, ended⟩ | ⟨outcome, now, passes⟩
    · cases ended
    · obtain ⟨others, further⟩ := passes.run
      refine ⟨rounds ++ [⟨now, outcome.events⟩], moments ++ others, ?_⟩
      rw [List.flatMap_append, List.flatMap_singleton]
      exact run?_append ran further

end Keyhold.Daemon
