import Keyhold.Proofs.Daemon.Turn
import Keyhold.Proofs.Input.Polling
import Keyhold.Proofs.System.Surroundings

/-!
# Commands in a turn

The executor of the daemon threads the list of started commands through the firings of a turn.
`runAll` is the same as a plain recursion over the firings, and `fireAt_eq` says so; with it the
stages of a turn that follow the wait are seen to put requests of a few kinds only
(`asks_conclude`).
-/

namespace Keyhold

open Keyhold.System

namespace Commands

/-- What is reported of a command that could not be run. -/
def refusals (firing : Firing) : Except OsError Unit → List Message
  | .ok _ => []
  | .error cause => [refusedMessage firing cause.message]

/-- Runs the commands of firings, one after another. -/
def runAll (commands : Commands) : List Firing → Routine (FireOutcome × Commands)
  | [] => pure (⟨0, false⟩, commands)
  | firing :: rest => do
    let (result, commands) ← commands.execute firing
    Routine.reportAll (refusals firing result)
    let (outcome, commands) ← commands.runAll rest
    pure (⟨outcome.fired + 1, firing.exits || outcome.exitRequested⟩, commands)

/-- The panel's loop over the daemon's executor runs the commands of the firings. -/
theorem run_runFirings (commands : Commands) (firings : List Firing) :
    (Panel.runFirings executor firings).run commands = commands.runAll firings := by
  induction firings generalizing commands with
  | nil => rfl
  | cons firing rest ih =>
    have others (started : Commands) :
        (do
          let outcome ← Panel.runFirings executor rest
          pure ⟨outcome.fired + 1, firing.exits || outcome.exitRequested⟩ :
            Using FireOutcome).run started =
          started.runAll rest >>= fun done =>
            pure (⟨done.1.fired + 1, firing.exits || done.1.exitRequested⟩, done.2) := by
      rw [StateT.run_bind, ih]
      rfl
    rw [Panel.runFirings, runAll, StateT.run_bind]
    change commands.execute firing >>= _ = commands.execute firing >>= _
    congr 1
    funext ⟨result, started⟩
    cases result with
    | ok _ => exact others started
    | error cause =>
      refine congrArg (Routine.ask (.log (refusedMessage firing cause.message))) ?_
      funext _
      exact others started

/-- Messages that go through the daemon's executor are reported as they are. -/
theorem run_reports (commands : Commands) (messages : List Message) :
    (messages.forM executor.report).run commands =
      Routine.reportAll messages >>= fun _ => pure ((), commands) := by
  induction messages with
  | nil => rfl
  | cons message rest ih =>
    change (executor.report message >>= fun _ => rest.forM executor.report).run commands = _
    rw [StateT.run_bind]
    refine congrArg (Routine.ask (.log message)) ?_
    funext _
    exact ih

/-! ## What commands ask for -/

/-- The requests that commands lead to. -/
def isAsked : Request → Bool
  | .log _ | .spawn _ | .runToEnd _ | .check _ => true
  | _ => false

/-- Running a command to its end asks only what commands ask for. -/
theorem asks_runWaiting (command : String) : (runWaiting command).Asks (isAsked ·) := by
  refine ⟨rfl, fun answer => ?_⟩
  cases answer with
  | error cause => trivial
  | ok status =>
    dsimp only [Routine.bind]
    split
    · exact ⟨rfl, fun _ => trivial⟩
    · trivial

/-- Running the command of a firing asks only what commands ask for. -/
theorem asks_execute (commands : Commands) (firing : Firing) :
    (commands.execute firing).Asks (isAsked ·) := by
  rw [execute]
  split
  · exact Routine.asks_bind (asks_runWaiting firing.command) fun _ => trivial
  · refine ⟨rfl, fun answer => ?_⟩
    cases answer with
    | error cause => trivial
    | ok process => exact ⟨rfl, fun _ => trivial⟩

/-- Running the commands of firings asks only what commands ask for. -/
theorem asks_runAll (commands : Commands) (firings : List Firing) :
    (commands.runAll firings).Asks (isAsked ·) := by
  induction firings generalizing commands with
  | nil => trivial
  | cons firing rest ih =>
    refine Routine.asks_bind (asks_execute commands firing) fun done => ?_
    refine Routine.asks_bind (Routine.asks_reportAll (fun _ => rfl) _) fun _ => ?_
    exact Routine.asks_bind (ih done.2) fun _ => trivial

/-- Asking after one command asks only what commands ask for. -/
theorem asks_isRunning (process : ProcessId) : (isRunning process).Asks (isAsked ·) := by
  refine ⟨rfl, fun answer => ?_⟩
  rcases answer with cause | _ | status
  · exact ⟨rfl, fun _ => trivial⟩
  · trivial
  · dsimp only [Routine.bind]
    split
    · exact ⟨rfl, fun _ => trivial⟩
    · trivial

/-- Asking after all commands asks only what commands ask for. -/
theorem asks_stillRunning (processes : List ProcessId) :
    (stillRunning processes).Asks (isAsked ·) := by
  induction processes with
  | nil => trivial
  | cons process rest ih =>
    exact Routine.asks_bind (asks_isRunning process) fun _ => Routine.asks_bind ih fun _ => trivial

/-- Collecting commands asks only what commands ask for. -/
theorem asks_reap (commands : Commands) : commands.reap.Asks (isAsked ·) :=
  Routine.asks_bind (asks_stillRunning commands.children) fun _ => trivial

/-- Closing the executor asks only what commands ask for. -/
theorem asks_close (commands : Commands) : commands.close.Asks (isAsked ·) :=
  Routine.asks_bind (asks_reap commands) fun _ => Routine.asks_reportAll (fun _ => rfl) _

end Commands

namespace Daemon

variable {daemon : Daemon}

/-- What follows the wait in a turn. -/
def conclude (daemon : Daemon) :
    Except InputError Outcome → Routine (Daemon × Option Ending)
  | .error error => pure (daemon, some (endingOf daemon.testMode error))
  | .ok outcome =>
    daemon.collect outcome >>= fun collected =>
      collected.fire >>= fun retired => retired.1.handOn retired.2 outcome

/-- A turn waits and then concludes. -/
theorem turn_eq (daemon : Daemon) :
    daemon.turn = daemon.wait >>= fun waited => waited.1.conclude waited.2 := by
  rw [turn]
  congr 1

/-- Firing is a report of what is retired, and then its commands are run. -/
theorem fireAt_eq (daemon : Daemon) (now : Instant) :
    daemon.fireAt now = Routine.reportAll (daemon.panel.retireMessages now) >>= fun _ =>
      daemon.commands.runAll (daemon.panel.retire now).2 >>= fun done =>
        pure ({ daemon with panel := (daemon.panel.retire now).1, commands := done.2 },
          done.1) := by
  rw [fireAt, Panel.fireDue, StateT.run_bind, Commands.run_reports]
  simp only [Routine.bind_assoc, Routine.pure_eq, Routine.bind_done]
  congr 1
  funext _
  rw [StateT.run_bind, Commands.run_runFirings, Routine.bind_assoc]
  rfl

/-! ## What a turn changes -/

variable {next : Daemon} {outcome : Outcome} {ending : Option Ending}

/-- The wait of a turn is a poll of the monitor with some timeout, and changes only the monitor. -/
theorem eq_of_wait {result : Except InputError Outcome}
    (waits : daemon.wait.Yields (next, result)) :
    ∃ monitor timeout, next = { daemon with monitor := monitor } ∧
      (daemon.monitor.poll timeout).Yields (monitor, result) := by
  obtain ⟨_, _, further⟩ := Routine.yields_bind.mp waits
  obtain ⟨_, _, further⟩ := Routine.yields_bind.mp further
  obtain ⟨⟨monitor, result⟩, polls, done⟩ := Routine.yields_bind.mp further
  cases done
  exact ⟨monitor, _, rfl, polls⟩

/-- Collecting changes only the commands. -/
theorem eq_of_collect (collects : (daemon.collect outcome).Yields next) :
    ∃ commands, next = { daemon with commands := commands } := by
  simp only [collect] at collects
  split at collects
  · obtain ⟨_, _, further⟩ := Routine.yields_bind.mp collects
    obtain ⟨commands, _, done⟩ := Routine.yields_bind.mp further
    exact ⟨commands, done.symm⟩
  · obtain ⟨commands, _, done⟩ := Routine.yields_bind.mp collects
    exact ⟨commands, done.symm⟩

/-- Firing changes only the panel and the commands. -/
theorem eq_of_fire {fired : FireOutcome} (fires : daemon.fire.Yields (next, fired)) :
    ∃ panel commands, next = { daemon with panel := panel, commands := commands } := by
  obtain ⟨now, fires⟩ := fires
  change (daemon.fireAt now).Yields _ at fires
  rw [fireAt_eq] at fires
  obtain ⟨_, _, further⟩ := Routine.yields_bind.mp fires
  obtain ⟨⟨report, commands⟩, _, done⟩ := Routine.yields_bind.mp further
  cases done
  exact ⟨_, commands, rfl⟩

/-- Handing records on changes only the panel. -/
theorem eq_of_take (takes : (daemon.take outcome).Yields (next, ending)) :
    ∃ panel, next = { daemon with panel := panel } := by
  obtain ⟨fed, _, further⟩ := Routine.yields_bind.mp takes
  cases fed with
  | none =>
    cases further
    exact ⟨daemon.panel, rfl⟩
  | some panel =>
    simp only at further
    split at further
    · obtain ⟨_, _, done⟩ := Routine.yields_bind.mp further
      cases done
      exact ⟨panel, rfl⟩
    · cases further
      exact ⟨panel, rfl⟩

/-- After the wait only the panel and the commands change, and the daemon goes on only if the wait
ended well and no input hung up in test mode. -/
theorem of_conclude {result : Except InputError Outcome}
    (concludes : (daemon.conclude result).Yields (next, ending)) :
    (∃ panel commands, next = { daemon with panel := panel, commands := commands }) ∧
      (ending = none → ∃ outcome, result = .ok outcome ∧
        hangUp? daemon.testMode outcome = none) := by
  cases result with
  | error error =>
    cases concludes
    exact ⟨⟨_, _, rfl⟩, fun none => by cases none⟩
  | ok outcome =>
    obtain ⟨collected, collects, further⟩ := Routine.yields_bind.mp concludes
    obtain ⟨⟨retired, fired⟩, fires, hands⟩ := Routine.yields_bind.mp further
    obtain ⟨commands, rfl⟩ := eq_of_collect collects
    obtain ⟨panel, started, rfl⟩ := eq_of_fire fires
    rw [handOn] at hands
    split at hands
    · cases hands
      exact ⟨⟨_, _, rfl⟩, fun none => by cases none⟩
    · split at hands
      · cases hands
        exact ⟨⟨_, _, rfl⟩, fun none => by cases none⟩
      · rename_i unnoted
        obtain ⟨fed, rfl⟩ := eq_of_take hands
        exact ⟨⟨fed, started, rfl⟩, fun _ => ⟨outcome, rfl, unnoted⟩⟩

/-! ## What a daemon waits for -/

/-- A daemon that is ready waits for both of its pipes. -/
theorem wakes_of_start {required waited : List Path} {bindings : Bindings} {window : Span}
    {mode : CommandMode} {testMode : Bool}
    (starts : (start required waited bindings window mode testMode).Yields (.ok daemon)) :
    daemon.stopPipe ∈ daemon.monitor.wakes ∧ daemon.childPipe ∈ daemon.monitor.wakes := by
  obtain ⟨monitor, stopPipe, childPipe, _, rfl⟩ := eq_of_start starts
  simp [Monitor.addWake]

/-- A turn changes neither the pipes nor what else is waited for. -/
theorem wakes_of_turn (turns : daemon.turn.Yields (next, ending)) :
    next.stopPipe = daemon.stopPipe ∧ next.childPipe = daemon.childPipe ∧
      next.monitor.wakes = daemon.monitor.wakes := by
  rw [turn_eq] at turns
  obtain ⟨⟨waited, result⟩, waits, concludes⟩ := Routine.yields_bind.mp turns
  obtain ⟨monitor, timeout, rfl, polls⟩ := eq_of_wait waits
  obtain ⟨⟨panel, commands, rfl⟩, _⟩ := of_conclude concludes
  exact ⟨rfl, rfl, (Monitor.setup_of_poll polls).2.2⟩

/-! ## What a turn asks for beside its wait -/

/-- The requests that a turn puts when the wait is over. -/
def isChore : Request → Bool
  | .clock | .drain _ => true
  | request => Commands.isAsked request

/-- What commands ask for is asked behind a wait. -/
theorem isChore_of_isAsked (request : Request) (asked : Commands.isAsked request = true) :
    isChore request = true := by
  cases request <;> first | rfl | exact asked

/-- Collecting asks only what is asked behind a wait. -/
theorem asks_collect (daemon : Daemon) (outcome : Outcome) :
    (daemon.collect outcome).Asks (isChore ·) := by
  have reaps : (daemon.commands.reap >>= fun commands =>
      pure { daemon with commands := commands }).Asks (isChore ·) :=
    Routine.asks_bind ((Commands.asks_reap daemon.commands).mono isChore_of_isAsked)
      fun _ => trivial
  rw [collect]
  dsimp only
  split
  · exact ⟨rfl, fun _ => reaps⟩
  · exact reaps

/-- Firing asks only what is asked behind a wait. -/
theorem asks_fire (daemon : Daemon) : daemon.fire.Asks (isChore ·) := by
  refine ⟨rfl, fun now => ?_⟩
  change (daemon.fireAt now).Asks _
  rw [fireAt_eq]
  refine Routine.asks_bind (Routine.asks_reportAll (fun _ => rfl) _) fun _ => ?_
  exact Routine.asks_bind ((Commands.asks_runAll _ _).mono isChore_of_isAsked) fun _ => trivial

/-- Handing records on only reports. -/
theorem asks_feedAll {allowed : Request → Prop} (logs : ∀ message, allowed (.log message))
    (panel : Panel) (events : List Event) : (feedAll panel events).Asks allowed := by
  induction events generalizing panel with
  | nil => trivial
  | cons event rest ih =>
    refine Routine.asks_bind (Routine.asks_reportAll logs _) fun _ => ?_
    cases panel.feed? event with
    | some next => exact ih next
    | none => trivial

/-- Taking the records and the stop asks only what is asked behind a wait. -/
theorem asks_take (daemon : Daemon) (outcome : Outcome) :
    (daemon.take outcome).Asks (isChore ·) := by
  refine Routine.asks_bind (asks_feedAll (fun _ => rfl) daemon.panel outcome.events)
    fun fed => ?_
  cases fed with
  | none => trivial
  | some panel =>
    dsimp only
    split
    · exact ⟨rfl, fun _ => trivial⟩
    · trivial

/-- Handing on asks only what is asked behind a wait. -/
theorem asks_handOn (daemon : Daemon) (fired : FireOutcome) (outcome : Outcome) :
    (daemon.handOn fired outcome).Asks (isChore ·) := by
  rw [handOn]
  split
  · trivial
  · split
    · trivial
    · exact asks_take daemon outcome

/-- All that follows the wait in a turn asks only what is asked behind it. -/
theorem asks_conclude (daemon : Daemon) (result : Except InputError Outcome) :
    (daemon.conclude result).Asks (isChore ·) := by
  cases result with
  | error error => trivial
  | ok outcome =>
    refine Routine.asks_bind (asks_collect daemon outcome) fun collected => ?_
    exact Routine.asks_bind (asks_fire collected) fun retired => asks_handOn _ _ _

end Daemon

end Keyhold
