import Keyhold.Input.Event
import Keyhold.Tracker

/-!
# The panel of all bound keys

A panel holds one tracker for every bound key, in configuration order. Key records go to the
tracker of their code; deadlines are retired for all keys at once, in configuration order. The
wait until the next deadline bounds how long the daemon may sleep: `pollTimeout` turns it into
whole milliseconds, rounding up what remains of a millisecond after whole microseconds.
-/

namespace Keyhold

/-- One tracker for every bound key, in configuration order. -/
structure Panel where
  keys : List Tracker
  deriving DecidableEq, Repr, Inhabited

/-- What became of a record handed to the panel. -/
inductive Dispatch where
  /-- Handed to the tracker of its key. -/
  | processed
  /-- A key record for a code without binding. -/
  | unconfigured
  /-- No key record. -/
  | notKey
  deriving DecidableEq, Repr

/-- Something that runs the commands of firings and may refuse to. -/
structure Executor (m : Type → Type) (ε : Type) where
  /-- Runs the command of a firing. -/
  execute : Firing → m (Except ε Unit)
  /-- What is said of the cause of a refusal. -/
  explain : ε → String
  /-- Writes a message. -/
  report : Message → m Unit

/-- What is reported of a firing whose command was refused. -/
def refusedMessage (firing : Firing) (cause : String) : Message :=
  .error ("failed to run '" ++ firing.command ++ "': " ++ cause)

/-- What running the retired firings came to. -/
structure FireOutcome where
  /-- How many firings were handed to the executor. -/
  fired : Nat
  /-- Whether one of them asks the daemon to stop. -/
  exitRequested : Bool
  deriving DecidableEq, Repr, Inhabited

namespace Panel

/-- The panel of bindings with one debounce window for all keys. -/
def start (bindings : Bindings) (window : Span) : Panel :=
  ⟨bindings.map fun binding => Tracker.start binding window⟩

/-- The tracker of a code. -/
def key? (panel : Panel) (code : UInt16) : Option Tracker :=
  panel.keys.find? fun tracker => tracker.code == code

/-- The first tracker of a code replaced by the result of a function, if it has one. -/
def updateFirst (code : UInt16) (update : Tracker → Option Tracker) :
    List Tracker → Option (List Tracker)
  | [] => some []
  | tracker :: rest =>
    if tracker.code = code then (update tracker).map (· :: rest)
    else (updateFirst code update rest).map (tracker :: ·)

/-- What becomes of a record. -/
def dispatch (panel : Panel) (event : Event) : Dispatch :=
  if event.isKey then
    if (panel.key? event.code).isSome then .processed else .unconfigured
  else .notKey

/-- The panel after a record; none if a deadline cannot be represented. -/
def feed? (panel : Panel) (event : Event) : Option Panel :=
  match panel.dispatch event with
  | .processed =>
    (updateFirst event.code (·.handle event.stamp event.isPress) panel.keys).map Panel.mk
  | .unconfigured => some panel
  | .notKey => some panel

/-- What `feed?` reports. -/
def feedMessages (panel : Panel) (event : Event) : List Message :=
  if event.isKey then
    match panel.key? event.code with
    | some tracker => [.info (tracker.label ++ " " ++ event.motion ++ ": processing")]
    | none => [.debug (toString event.code.toNat ++ " " ++ event.motion ++ ": ignored")]
  else
    [.trace (toString event.kind.toNat ++ " " ++ toString event.code.toNat ++ " " ++
      toString event.value ++ ": non-keyboard event ignored")]

/-- The panel after all deadlines up to now have been retired, and the firings this led to. -/
def retire (panel : Panel) (now : Instant) : Panel × List Firing :=
  (⟨panel.keys.map fun tracker => (tracker.expire now).1⟩,
    panel.keys.filterMap fun tracker => (tracker.expire now).2)

/-- What `retire` reports. -/
def retireMessages (panel : Panel) (now : Instant) : List Message :=
  panel.keys.flatMap fun tracker => tracker.expireMessages now

/-- The pending deadlines, in configuration order. -/
def deadlines (panel : Panel) : List Instant := panel.keys.filterMap (·.deadline)

/-- The time until the next deadline, empty for one that has passed; none while none is
pending. -/
def nextWait? (panel : Panel) (now : Instant) : Option Span :=
  ((panel.deadlines.map fun deadline => (deadline.since now).nanos).min?).map Span.mk

/-- What computing the wait reports. -/
def waitMessages (wait : Option Span) : List Message :=
  match wait with
  | some span => [.trace ("wakeup scheduled in " ++ span.text)]
  | none => [.trace "no wakeup scheduled"]

/-- The greatest timeout in milliseconds. -/
def longestTimeout : Nat := 2147483647

/-- A wait as a timeout in whole milliseconds; minus one waits for ever. -/
def pollTimeout : Option Span → Int
  | none => -1
  | some span => min ((span.nanos / 1000 + 999) / 1000) longestTimeout

/-- Hands firings to an executor, in order. A refusal is reported and changes nothing else. -/
def runFirings {m : Type → Type} [Monad m] {ε : Type} (executor : Executor m ε) :
    List Firing → m FireOutcome
  | [] => pure ⟨0, false⟩
  | firing :: rest => do
    match ← executor.execute firing with
    | .ok _ => pure ()
    | .error cause => executor.report (refusedMessage firing (executor.explain cause))
    let outcome ← runFirings executor rest
    pure ⟨outcome.fired + 1, firing.exits || outcome.exitRequested⟩

/-- Retires all deadlines up to now and hands the firings to an executor. -/
def fireDue {m : Type → Type} [Monad m] {ε : Type} (panel : Panel) (now : Instant)
    (executor : Executor m ε) : m (Panel × FireOutcome) := do
  (panel.retireMessages now).forM executor.report
  let outcome ← runFirings executor (panel.retire now).2
  pure ((panel.retire now).1, outcome)

end Panel

end Keyhold
