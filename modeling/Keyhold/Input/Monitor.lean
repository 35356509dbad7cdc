import Keyhold.Input.Source

/-!
# The input monitor

The monitor waits for all its sources at once, together with the watched directories and any
number of wake pipes. One round of `poll` first tries the missing sources that nothing watches
for, at most once a second each; then it waits; then it serves what is ready, the sources in
their order, and last the notices about watched directories. A round ends early with an error
when a required source is lost for good.
-/

namespace Keyhold

open Keyhold.System

/-- All sources of the daemon, what else it waits for, and whether directories are watched. -/
structure Monitor where
  sources : List Source
  wakes : List WakeId
  watching : Bool
  deriving DecidableEq, Repr, Inhabited

/-- What one round of waiting brought. -/
structure Outcome where
  /-- New events, in the order of the sources and of their reports. -/
  events : List Event
  /-- Wake pipes that are readable. -/
  woken : List WakeId
  /-- Sources that hung up with nothing left to read. -/
  hungUp : List Path
  deriving DecidableEq, Repr, Inhabited

namespace Outcome

/-- Nothing happened. -/
def nothing : Outcome := ⟨[], [], []⟩

end Outcome

/-- What stands at one place of the list handed to the system. -/
inductive Slot where
  /-- The source at a position. -/
  | source (position : Nat)
  | notices
  | wake (pipe : WakeId)
  deriving DecidableEq, Repr

namespace Monitor

/-- How long a missing source is left alone between two attempts. -/
def retryInterval : Span := ⟨1000000000⟩

/-- The retry interval as a timeout in milliseconds. -/
def retryTimeout : Int := 1000

/-- Opens the sources in order. The first required one that fails is the answer. -/
def openSources (watching : Bool) : List Source → Routine (Except InputError (List Source))
  | [] => pure (.ok [])
  | source :: rest => do
    let source ← if watching && source.waits then source.watchDirectory else pure source
    let (source, failure) ← source.tryOpen
    match failure with
    | none => openSources watching rest >>= settle source
    | some error =>
      if source.waits then
        Routine.report (Source.waitingMessage error)
        openSources watching rest >>= settle source
      else pure (.error error)
where
  /-- Puts a settled source before the others. -/
  settle (source : Source) (others : Except InputError (List Source)) :
      Routine (Except InputError (List Source)) :=
    pure (others.map (source :: ·))

/-- Prepares to watch directories; without that, missing sources are only tried again. -/
def startWatching : Routine Bool := do
  match ← Routine.request .startNotices with
  | .ok _ => pure true
  | .error cause =>
    Routine.report (.warning ("inotify unavailable (" ++ cause.message ++
      "), retrying missing inputs periodically"))
    pure false

/-- The sources of required inputs and of those that are waited for, before they are opened. -/
def sourcesOf (required waited : List Path) : List Source :=
  (required.map fun path => Source.unopened path false) ++
    waited.map fun path => Source.unopened path true

/-- Starts monitoring. Required inputs have to open now; the others may be absent. -/
def start (required waited : List Path) : Routine (Except InputError Monitor) := do
  if required.isEmpty && waited.isEmpty then
    pure (.error .noInputs)
  else
    let watching ← if waited.isEmpty then pure false else startWatching
    match ← openSources watching (sourcesOf required waited) with
    | .ok sources => pure (.ok ⟨sources, [], watching⟩)
    | .error error => pure (.error error)

/-- Waits for one more pipe from now on. -/
def addWake (monitor : Monitor) (pipe : WakeId) : Monitor :=
  { monitor with wakes := monitor.wakes ++ [pipe] }

/-- How many sources are open. -/
def openCount (monitor : Monitor) : Nat :=
  (monitor.sources.filter fun source => !source.isMissing).length

/-- The paths of all sources. -/
def paths (monitor : Monitor) : List Path := monitor.sources.map (·.path)

/-- Whether a source that nothing watches for is to be tried again. -/
def isRetryDue (now : Instant) (source : Source) : Bool :=
  source.isUnwatched &&
    match source.lastAttempt with
    | none => true
    | some attempt => retryInterval.nanos ≤ (now.since attempt).nanos

/-- Tries the missing sources whose turn has come. -/
def retrySources (now : Instant) : List Source → Routine (List Source)
  | [] => pure []
  | source :: rest => do
    let source ← if isRetryDue now source then source.tryOpenQuietly else pure source
    let rest ← retrySources now rest
    pure (source :: rest)

/-- The timeout to wait with: no longer than the retry interval while a source is missing that
nothing watches for. -/
def cappedTimeout (sources : List Source) (timeout : Int) : Int :=
  if sources.any Source.isUnwatched && (timeout < 0 || retryTimeout < timeout) then
    retryTimeout
  else timeout

/-- The open sources with their positions, counted from the given one. -/
def sourceSlots : Nat → List Source → List (Slot × Descriptor)
  | _, [] => []
  | position, source :: rest =>
    match source.device with
    | some handle =>
      (.source position, .device handle) :: sourceSlots (position + 1) rest
    | none => sourceSlots (position + 1) rest

/-- Everything to wait for: the open sources, the notices and the wake pipes. -/
def slots (monitor : Monitor) : List (Slot × Descriptor) :=
  sourceSlots 0 monitor.sources ++
    (if monitor.watching then [(.notices, .notices)] else []) ++
    monitor.wakes.map fun pipe => (.wake pipe, .wake pipe)

/-- The state of a round while what is ready is served. -/
structure Progress where
  sources : List Source
  outcome : Outcome
  noticesReady : Bool
  deriving DecidableEq, Repr, Inhabited

/-- Opens a lost source again; an error ends the round. -/
def serveLost (progress : Progress) (position : Nat) (source : Source) :
    Routine (Progress × Option InputError) := do
  let (source, failure) ← source.reopenLost
  pure ({ progress with sources := progress.sources.set position source }, failure)

/-- Serves a source that is readable or lost. -/
def serveSource (progress : Progress) (position : Nat) (readiness : Readiness) :
    Routine (Progress × Option InputError) :=
  match progress.sources[position]? with
  | none => pure (progress, none)
  | some source =>
    if readiness = .lost then
      serveLost
        { progress with outcome :=
            { progress.outcome with hungUp := progress.outcome.hungUp ++ [source.path] } }
        position source
    else do
      match ← source.read with
      | .events events =>
        pure ({ progress with outcome :=
          { progress.outcome with events := progress.outcome.events ++ events } }, none)
      | .broken => serveLost progress position source

/-- Serves one slot. -/
def serveSlot (progress : Progress) (slot : Slot) (readiness : Readiness) :
    Routine (Progress × Option InputError) :=
  if readiness = .idle then pure (progress, none)
  else
    match slot with
    | .wake pipe =>
      pure ({ progress with outcome :=
        { progress.outcome with woken := progress.outcome.woken ++ [pipe] } }, none)
    | .notices => pure ({ progress with noticesReady := true }, none)
    | .source position => serveSource progress position readiness

/-- Serves the slots in order, up to the first error. -/
def serve (progress : Progress) :
    List (Slot × Readiness) → Routine (Progress × Option InputError)
  | [] => pure (progress, none)
  | (slot, readiness) :: rest => do
    let (progress, failure) ← serveSlot progress slot readiness
    match failure with
    | none => serve progress rest
    | some error => pure (progress, some error)

/-- Whether one of the notices is about a source. -/
def isNoticed (notices : List Notice) (source : Source) : Bool :=
  notices.any fun notice =>
    notice.entry.isSome && source.watch == some notice.watch &&
      source.path.fileName? == notice.entry

/-- Tries the missing sources that the notices are about. -/
def reopenNoticed (notices : List Notice) : List Source → Routine (List Source)
  | [] => pure []
  | source :: rest => do
    let source ←
      if source.isMissing && isNoticed notices source then do
        Routine.report (.debug (source.path.text ++ " appeared, reopening"))
        source.tryOpenQuietly
      else pure source
    let rest ← reopenNoticed notices rest
    pure (source :: rest)

/-- More reads than it takes to empty the queue of notices. -/
def readLimit : Nat := 18446744073709551616

/-- Reads notices, beside those taken already, until none is left or a limit of reads is reached.
There is none left when a read has nothing to hand out. -/
def takeNotices (taken : List Notice) : Nat → Routine (Except InputError (List Notice))
  | 0 => pure (.ok taken)
  | limit + 1 => do
    match ← Routine.request .readNotices with
    | .ok [] => pure (.ok taken)
    | .ok notices => takeNotices (taken ++ notices) limit
    | .error cause =>
      if cause = .wouldBlock then pure (.ok taken) else pure (.error (.failed cause))

/-- Takes the queued notices and tries the sources that they are about. -/
def serveNotices (progress : Progress) : Routine (Progress × Option InputError) := do
  match ← takeNotices [] readLimit with
  | .ok notices =>
    let sources ← reopenNoticed notices progress.sources
    pure ({ progress with sources := sources }, none)
  | .error error => pure (progress, some error)

/-- Serves what is ready: all slots, then the notices. -/
def serveAll (sources : List Source) (ready : List (Slot × Readiness)) :
    Routine (Progress × Option InputError) := do
  let (progress, failure) ← serve ⟨sources, .nothing, false⟩ ready
  match failure with
  | some error => pure (progress, some error)
  | none => if progress.noticesReady then serveNotices progress else pure (progress, none)

/-- Waits up to a timeout in milliseconds, for ever if it is negative, and serves whatever is
ready. Being interrupted counts as nothing having happened. -/
def poll (monitor : Monitor) (timeout : Int) :
    Routine (Monitor × Except InputError Outcome) := do
  let now ← Routine.request .clock
  let sources ← retrySources now monitor.sources
  let monitor := { monitor with sources := sources }
  let slots := monitor.slots
  match ← Routine.request (.poll (slots.map (·.2)) (cappedTimeout sources timeout)) with
  | .error cause =>
    if cause = .interrupted ∨ cause = .wouldBlock then pure (monitor, .ok .nothing)
    else pure (monitor, .error (.failed cause))
  | .ok readiness =>
    let (progress, failure) ← serveAll sources ((slots.map (·.1)).zip readiness)
    let monitor := { monitor with sources := progress.sources }
    match failure with
    | some error => pure (monitor, .error error)
    | none => pure (monitor, .ok progress.outcome)

end Monitor

end Keyhold
