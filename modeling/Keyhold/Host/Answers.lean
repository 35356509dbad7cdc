import Keyhold.Host.Machine
import Keyhold.System.Routine

/-!
# Answers of a simulated host

How a simulated host answers each request. Time passes only while the daemon waits: a wait is
over when something is ready or its timeout has passed, and until then what the script holds
comes to happen at its time. At the very time of a timeout the script comes first.
-/

namespace Keyhold.Host

open Keyhold.System

namespace Machine

/-! ## Waiting -/

/-- The event bits of a device that has been unplugged: an error and a hang-up. -/
def goneBits : UInt16 := 0x18

/-- The event bits of a pipe or of the notices, given whether there is something to read. -/
def inputBits (filled : Bool) : UInt16 := if filled then Readiness.inputBit else 0

/-- The event bits of a descriptor. -/
def eventBits (machine : Machine) : Descriptor → UInt16
  | .device handle =>
    match (machine.opened[handle.id]?).bind fun opened => machine.devices[opened.device]? with
    | none => 0
    | some device => inputBits (!device.queue.isEmpty) ||| if device.plugged then 0 else goneBits
  | .notices => inputBits (!machine.notices.isEmpty)
  | .wake pipe =>
    match machine.pipes[pipe.id]? with
    | some pipe => inputBits (pipe.filled || pipe.closed)
    | none => 0

/-- How a descriptor comes back from a wait that ends now. -/
def readiness (machine : Machine) (descriptor : Descriptor) : Readiness :=
  .ofBits (machine.eventBits descriptor)

/-- When a wait that begins now is over at the latest; a negative timeout never passes. -/
def waitEnd (machine : Machine) (timeout : Int) : Option Nat :=
  if timeout < 0 then none else some (machine.now + timeout.toNat * 1000000)

/-- Whether the wait lasts at least until a time. -/
def lastsUntil (time : Nat) : Option Nat → Bool
  | none => true
  | some latest => time ≤ latest

/-- The host when nothing more comes before the end of the wait. -/
def runOut (machine : Machine) : Option Nat → Machine
  | some latest => { machine with now := max machine.now latest }
  | none => if machine.endsIdle then machine.send terminateSignal else machine

/-- Waits for descriptors. The limit bounds how often the script is looked at; every look but
the last takes something from it. -/
def waitFor (machine : Machine) (descriptors : List Descriptor) (latest : Option Nat) :
    Nat → Except OsError (List Readiness) × Machine
  | 0 => (.ok (descriptors.map machine.readiness), machine)
  | limit + 1 =>
    let machine := machine.applyDue machine.script
    match machine.pollFailure with
    | some code => (.error (.number code), { machine with pollFailure := none })
    | none =>
      let ready := descriptors.map machine.readiness
      if ready.any (· != .idle) then (.ok ready, machine)
      else
        match machine.script with
        | (time, _) :: _ =>
          if lastsUntil time latest then
            ({ machine with now := time } : Machine).waitFor descriptors latest limit
          else
            let machine := machine.runOut latest
            (.ok (descriptors.map machine.readiness), machine)
        | [] =>
          let machine := machine.runOut latest
          (.ok (descriptors.map machine.readiness), machine)

/-! ## Devices -/

/-- Opens the device at a path. -/
def openDevice (machine : Machine) (path : Path) : Except OsError OpenedDevice × Machine :=
  match machine.tree.find path with
  | .error cause => (.error cause, machine)
  | .ok (_, .device number) =>
    match machine.devices[number]? with
    | none => (.error .noDevice, machine)
    | some device =>
      match device.refusal with
      | some code => (.error (.number code), machine)
      | none =>
        if device.plugged then
          (.ok ⟨⟨machine.opened.length⟩, device.name.filter (!·.isEmpty),
              device.kinds.contains Event.keyKind⟩,
            { machine with opened := machine.opened ++ [⟨number, []⟩] })
        else (.error .noDevice, machine)
  | .ok _ => (.error .notDevice, machine)

/-- Forgets what was read and not handed out when a device is closed. -/
def closeDevice (machine : Machine) (handle : DeviceHandle) : Machine :=
  { machine with opened := machine.opened.modify handle.id fun opened =>
      { opened with held := [] } }

/-- Whether a record ends a report. -/
def endsReport (report : Report) : Bool := report.kind == 0 && report.code == 0

/-- Splits records after the last one that ends a report. -/
def splitReports (reports : List Report) : List Report × List Report :=
  let reversed := reports.reverse
  let held := reversed.takeWhile fun report => !endsReport report
  ((reversed.drop held.length).reverse, held.reverse)

/-- Reads what a device has queued and hands out the complete reports. -/
def readDevice (machine : Machine) (handle : DeviceHandle) :
    Except OsError (List Report) × Machine :=
  match machine.opened[handle.id]? with
  | none => (.error .noDevice, machine)
  | some opened =>
    match machine.devices[opened.device]? with
    | none => (.error .noDevice, machine)
    | some device =>
      match device.readFailure with
      | some code =>
        (.error (.number code), machine.changeDevice opened.device fun device =>
          { device with readFailure := none })
      | none =>
        if device.queue.isEmpty then
          (.error (if device.plugged then .wouldBlock else .noDevice), machine)
        else
          let (complete, held) := splitReports (opened.held ++ device.queue)
          (.ok complete,
            { machine.changeDevice opened.device (fun device => { device with queue := [] }) with
              opened := machine.opened.modify handle.id fun opened =>
                { opened with held := held } })

/-! ## Watches -/

/-- Watches the node at a path; a node that is watched already keeps its watch. -/
def watch (machine : Machine) (path : Path) : Except OsError WatchId × Machine :=
  if path.hasNul then (.error .nulInData, machine)
  else
    match machine.tree.resolve path with
    | .error cause => (.error cause, machine)
    | .ok node =>
      match machine.watches.findIdx? fun watch => watch.live && watch.node == node with
      | some id => (.ok ⟨id⟩, machine)
      | none =>
        (.ok ⟨machine.watches.length⟩,
          { machine with watches := machine.watches ++ [⟨node, true⟩] })

/-- Reads the notices; one read hands out all that are queued. -/
def readNotices (machine : Machine) : Except OsError (List Notice) × Machine :=
  if machine.notices.isEmpty then (.error .wouldBlock, machine)
  else (.ok machine.notices, { machine with notices := [] })

/-! ## Pipes -/

/-- Opens a pipe into which signals put something. -/
def openPipe (machine : Machine) (signals : List Nat) : WakeId × Machine :=
  (⟨machine.pipes.length⟩, { machine with pipes := machine.pipes ++ [⟨signals, false, false⟩] })

/-- The machine with a function applied to a pipe. -/
def changePipe (machine : Machine) (pipe : WakeId) (update : Pipe → Pipe) : Machine :=
  { machine with pipes := machine.pipes.modify pipe.id update }

/-! ## Commands -/

/-- The number of the first process that is started. -/
def firstProcess : Nat := 1000

/-- The least length in bytes of a command that is too long to be handed to the shell. -/
def commandLimit : Nat := 131072

/-- Runs the text of a command in the shell. A command that ends lets the daemon know. -/
def runCommand (machine : Machine) (command : String) :
    Except OsError (Option ExitStatus) × Machine :=
  if command.toList.contains (Char.ofNat 0) then (.error .nulInData, machine)
  else if commandLimit ≤ command.utf8ByteSize then (.error .tooManyArguments, machine)
  else
    let (tree, touched, status) := Shell.run machine.tree command
    let machine := machine.withTree (tree, touched)
    (.ok status, if status.isSome then machine.send childSignal else machine)

/-- Starts a command. -/
def spawn (machine : Machine) (command : String) : Except OsError ProcessId × Machine :=
  match machine.runCommand command with
  | (.error cause, machine) => (.error cause, machine)
  | (.ok status, machine) =>
    (.ok ⟨firstProcess + machine.processes.length⟩,
      { machine with processes := machine.processes ++ [⟨status, false⟩] })

/-- Runs a command to its end. One that never ends is taken to be interrupted. -/
def runToEnd (machine : Machine) (command : String) : Except OsError ExitStatus × Machine :=
  match machine.runCommand command with
  | (.error cause, machine) => (.error cause, machine)
  | (.ok (some status), machine) => (.ok status, machine)
  | (.ok none, machine) => (.ok (.killed interruptSignal), machine)

/-- How a started command stands. -/
def check (machine : Machine) (process : ProcessId) : Except OsError (Option ExitStatus) :=
  match machine.processes[process.number - firstProcess]? with
  | some process => if process.stolen then .error .noChild else .ok process.status
  | none => .error .noChild

/-- Somebody else collects all commands that have ended. -/
def steal (machine : Machine) : Machine :=
  { machine with processes := machine.processes.map fun process =>
      if process.status.isSome then { process with stolen := true } else process }

/-! ## All requests -/

/-- Answers a request. -/
def answer : (request : Request) → Machine → request.Answer × Machine
  | .clock, machine => (machine.clock, machine)
  | .wallClock, machine => (machine.wallClock, machine)
  | .log message, machine => ((), machine.note message)
  | .readText path, machine => (machine.tree.readText path, machine)
  | .isFile path, machine => (machine.tree.isFile path, machine)
  | .listDirectory path, machine => (machine.tree.names path, machine)
  | .openDevice path, machine => machine.openDevice path
  | .closeDevice handle, machine => ((), machine.closeDevice handle)
  | .readDevice handle, machine => machine.readDevice handle
  | .startNotices, machine =>
    (if machine.refusesNotices then .error .tooManyFiles else .ok (), machine)
  | .watch path, machine => machine.watch path
  | .readNotices, machine => machine.readNotices
  | .openSignalPipe signals, machine =>
    let (pipe, machine) := machine.openPipe signals
    (.ok pipe, machine)
  | .drain pipe, machine => ((), machine.changePipe pipe fun pipe => { pipe with filled := false })
  | .poll descriptors timeout, machine =>
    machine.waitFor descriptors (machine.waitEnd timeout) (machine.script.length + 1)
  | .spawn command, machine => machine.spawn command
  | .runToEnd command, machine => machine.runToEnd command
  | .check process, machine => (machine.check process, machine)

/-- Carries out a routine. -/
def perform {α : Type} (machine : Machine) (routine : Routine α) : α × Machine :=
  routine.run answer machine

end Machine

end Keyhold.Host
