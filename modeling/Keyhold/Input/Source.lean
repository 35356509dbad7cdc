import Keyhold.Input.Error
import Keyhold.System.Routine

/-!
# Input sources

A source is one input that the daemon listens to. A required source has to be open at all
times; one that is waited for may be missing, and then its directory is watched for its
return, or it is tried again every second where no watch could be set.
-/

namespace Keyhold

open Keyhold.System

/-- One monitored input. -/
structure Source where
  path : Path
  /-- Whether the source may be missing and is then waited for. -/
  waits : Bool
  device : Option DeviceHandle
  lastAttempt : Option Instant
  /-- The watch on the directory of a source that is waited for. -/
  watch : Option WatchId
  deriving DecidableEq, Repr, Inhabited

namespace Source

/-- A source that has not been opened yet. -/
def unopened (path : Path) (waits : Bool) : Source := ⟨path, waits, none, none, none⟩

/-- Whether the source is missing. -/
def isMissing (source : Source) : Bool := source.device.isNone

/-- Whether nothing but trying again can bring the source back. -/
def isUnwatched (source : Source) : Bool := source.isMissing && source.watch.isNone

/-- The name shown for an opened device. -/
def shownName (device : OpenedDevice) : String := device.name.getD "Unknown"

/-- Tries to open the source. The attempt is remembered whether it succeeds or not. -/
def tryOpen (source : Source) : Routine (Source × Option InputError) := do
  let now ← Routine.request .clock
  match ← Routine.request (.openDevice source.path) with
  | .ok device =>
    Routine.report (.info ("opened " ++ source.path.text ++ " (" ++ shownName device ++ ")"))
    pure ({ source with lastAttempt := some now, device := some device.handle }, none)
  | .error cause =>
    pure ({ source with lastAttempt := some now, device := none },
      some (.unopened source.path cause))

/-- Tries to open the source and only mentions a failure. -/
def tryOpenQuietly (source : Source) : Routine Source := do
  let (source, failure) ← source.tryOpen
  match failure with
  | some error => Routine.report (.debug error.message)
  | none => pure ()
  pure source

/-- Watches the directory of the source, if that is possible. -/
def watchDirectory (source : Source) : Routine Source := do
  match ← Routine.request (.watch source.path.directory) with
  | .ok watch => pure { source with watch := some watch }
  | .error cause =>
    Routine.report (.warning ("cannot watch " ++ source.path.directory.text ++ " (" ++
      cause.message ++ "), retrying " ++ source.path.text ++ " periodically"))
    pure { source with watch := none }

/-- What is said of a failed attempt to open a source that is waited for. -/
def waitingMessage (error : InputError) : Message :=
  .warning (error.message ++ ", waiting for it")

/-- Opens the source again after it was lost. -/
def reopenLost (source : Source) : Routine (Source × Option InputError) := do
  Routine.report
    (.warning ("got HUP/ERR on " ++ source.path.text ++ ". Trying to reopen."))
  match source.device with
  | some handle => Routine.request (.closeDevice handle)
  | none => pure ()
  let (source, failure) ← { source with device := none }.tryOpen
  match failure with
  | none => pure (source, none)
  | some error =>
    if source.waits then
      Routine.report (waitingMessage error)
      pure (source, none)
    else
      Routine.report (.error error.message)
      pure (source, some (.disconnected source.path))

/-- What reading a source gave: its new events, or that it has to be opened again. -/
inductive Reading where
  | events (events : List Event)
  | broken
  deriving DecidableEq, Repr

/-- Reads what the source has queued. -/
def read (source : Source) : Routine Reading :=
  match source.device with
  | none => pure (.events [])
  | some handle => do
    match ← Routine.request (.readDevice handle) with
    | .ok reports =>
      let wallNow ← Routine.request .wallClock
      let now ← Routine.request .clock
      pure (.events (reports.map fun report => report.toEvent wallNow now))
    | .error cause =>
      if cause = .wouldBlock then pure (.events [])
      else
        Routine.report (.error ("read error on " ++ source.path.text ++ ": " ++
          cause.message ++ ". Trying to reopen"))
        pure .broken

end Source

end Keyhold
