import Keyhold.Commands
import Keyhold.Input.Monitor

/-!
# The daemon

The daemon takes one turn after another. In each it waits for input no longer than until the
next deadline, collects finished commands, retires deadlines, and only then hands the new
records to the panel, so that a pending long press is never delayed by input. It stops after an
action that asks for it, after a signal, in test mode when an input hangs up, and when the
inputs cannot be monitored any further.
-/

namespace Keyhold

open Keyhold.System

/-- The daemon between two turns. -/
structure Daemon where
  monitor : Monitor
  panel : Panel
  commands : Commands
  /-- Becomes readable when the daemon is asked to stop. -/
  stopPipe : WakeId
  /-- Becomes readable when a command ends. -/
  childPipe : WakeId
  /-- Whether a hang-up of an input ends the daemon. -/
  testMode : Bool
  deriving DecidableEq, Repr, Inhabited

/-- How the daemon came to its end. -/
inductive Ending where
  /-- An exit action ran. -/
  | exitAction
  /-- A signal arrived. -/
  | signalled
  /-- In test mode, an input hung up. -/
  | hangUp (path : Path)
  /-- In test mode, an input was lost that has to be there. -/
  | wentAway (path : Path)
  /-- The inputs cannot be monitored any further. -/
  | failed (error : InputError)
  /-- A deadline cannot be represented. -/
  | clockLimit
  deriving DecidableEq, Repr

namespace Ending

/-- What is reported at the end. -/
def messages : Ending → List Message
  | .exitAction => [.info "exit action ran, stopping"]
  | .signalled => [.info "Received signal, shutting down"]
  | .hangUp path => [.info ("got HUP/ERR on " ++ path.text ++ ", exiting (test mode)")]
  | .wentAway path => [.info (path.text ++ " went away, exiting (test mode)")]
  | .failed _ => []
  | .clockLimit => []

end Ending

/-- Why the daemon cannot get ready. -/
inductive StartError where
  /-- The inputs cannot be monitored. -/
  | input (cause : InputError)
  /-- A pipe for signals cannot be opened. -/
  | signals (cause : SignalPipeError)
  deriving DecidableEq, Repr

namespace Daemon

/-- The signals that ask the daemon to stop. -/
def stopSignals : List Nat := [interruptSignal, terminateSignal]

/-- What is reported when the daemon is ready. -/
def readyMessage (panel : Panel) (monitor : Monitor) : Message :=
  .info ("monitoring " ++ toString panel.keys.length ++ " key(s) on " ++
    ", ".intercalate (monitor.paths.map Path.text))

/-- Gets the daemon ready: opens the inputs and the pipes for signals. -/
def start (required waited : List Path) (bindings : Bindings) (window : Span)
    (mode : CommandMode) (testMode : Bool) : Routine (Except StartError Daemon) := do
  match ← Monitor.start required waited with
  | .error cause => pure (.error (.input cause))
  | .ok monitor =>
    match ← Routine.request (.openSignalPipe stopSignals) with
    | .error cause => pure (.error (.signals cause))
    | .ok stopPipe =>
      match ← Routine.request (.openSignalPipe [childSignal]) with
      | .error cause => pure (.error (.signals cause))
      | .ok childPipe =>
        let monitor := (monitor.addWake stopPipe).addWake childPipe
        let panel := Panel.start bindings window
        Routine.report (readyMessage panel monitor)
        pure (.ok ⟨monitor, panel, .start mode, stopPipe, childPipe, testMode⟩)

/-- The path of an input that hung up, where that ends the daemon. -/
def hangUp? (testMode : Bool) (outcome : Outcome) : Option Path :=
  if testMode then outcome.hungUp.head? else none

/-- Hands records to a panel in order; none if a deadline cannot be represented. -/
def feedAll (panel : Panel) : List Event → Routine (Option Panel)
  | [] => pure (some panel)
  | event :: rest => do
    Routine.reportAll (panel.feedMessages event)
    match panel.feed? event with
    | some next => feedAll next rest
    | none => pure none

/-- Waits for input until the next deadline. -/
def wait (daemon : Daemon) : Routine (Daemon × Except InputError Outcome) := do
  let now ← Routine.request .clock
  let wait := daemon.panel.nextWait? now
  Routine.reportAll (Panel.waitMessages wait)
  let (monitor, result) ← daemon.monitor.poll (Panel.pollTimeout wait)
  pure ({ daemon with monitor := monitor }, result)

/-- Collects the commands that have finished. -/
def collect (daemon : Daemon) (outcome : Outcome) : Routine Daemon := do
  if outcome.woken.contains daemon.childPipe then
    Routine.request (.drain daemon.childPipe)
  let commands ← daemon.commands.reap
  pure { daemon with commands := commands }

/-- Retires deadlines and runs what has become due. -/
def fire (daemon : Daemon) : Routine (Daemon × FireOutcome) := do
  let now ← Routine.request .clock
  let ((panel, fired), commands) ←
    (daemon.panel.fireDue now Commands.executor).run daemon.commands
  pure ({ daemon with panel := panel, commands := commands }, fired)

/-- Hands the new records to the panel, and stops if a signal has arrived. -/
def take (daemon : Daemon) (outcome : Outcome) : Routine (Daemon × Option Ending) := do
  match ← feedAll daemon.panel outcome.events with
  | none => pure (daemon, some .clockLimit)
  | some panel =>
    let daemon := { daemon with panel := panel }
    if outcome.woken.contains daemon.stopPipe then
      Routine.request (.drain daemon.stopPipe)
      pure (daemon, some .signalled)
    else pure (daemon, none)

/-- What an error of the monitor means for the daemon. -/
def endingOf (testMode : Bool) : InputError → Ending
  | .disconnected path => if testMode then .wentAway path else .failed (.disconnected path)
  | error => .failed error

/-- One turn; it may be the last. -/
def turn (daemon : Daemon) : Routine (Daemon × Option Ending) := do
  let (daemon, result) ← daemon.wait
  match result with
  | .error error => pure (daemon, some (endingOf daemon.testMode error))
  | .ok outcome =>
    let daemon ← daemon.collect outcome
    let (daemon, fired) ← daemon.fire
    if fired.exitRequested then pure (daemon, some .exitAction)
    else
      match hangUp? daemon.testMode outcome with
      | some path => pure (daemon, some (.hangUp path))
      | none => daemon.take outcome

/-- Takes turns up to the last, or up to a limit of turns. -/
def turns (daemon : Daemon) : Nat → Routine (Daemon × Option Ending)
  | 0 => pure (daemon, none)
  | limit + 1 => do
    let (daemon, ending) ← daemon.turn
    match ending with
    | some ending => pure (daemon, some ending)
    | none => daemon.turns limit

/-- Takes turns, reports how they ended and lets go of the commands. No ending means that the
limit of turns was reached. -/
def run (daemon : Daemon) (limit : Nat) : Routine (Option Ending) := do
  let (daemon, ending) ← daemon.turns limit
  Routine.reportAll ((ending.map Ending.messages).getD [])
  daemon.commands.close
  pure ending

end Daemon

end Keyhold
