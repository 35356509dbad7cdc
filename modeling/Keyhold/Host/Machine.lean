import Keyhold.Host.Shell
import Keyhold.Input.Event

/-!
# The state of a simulated host

A host without hardware: a clock that moves only when it is told to, a file tree, devices with
queues of records, watches on directories, pipes that end a wait, and started commands.
Everything that happens is a function on this state, so what a daemon sees is determined by the
state it starts in and the script of what comes from outside.
-/

namespace Keyhold.Host

open Keyhold.System

/-- A simulated input device. -/
structure Device where
  name : Option String
  /-- The types of records that the device reports. -/
  kinds : List UInt16
  /-- The error with which opening the device is refused. -/
  refusal : Option Nat
  /-- Whether the device is still there. -/
  plugged : Bool
  /-- Records to be read. -/
  queue : List Report
  /-- The error with which the next read fails. -/
  readFailure : Option Nat
  deriving DecidableEq, Repr, Inhabited

/-- An open device, with the records that have been read and not yet been handed out. -/
structure OpenDevice where
  device : Nat
  held : List Report
  deriving DecidableEq, Repr, Inhabited

/-- The watch on a node of the file tree. -/
structure Watch where
  node : Nat
  /-- Whether the node is still there. -/
  live : Bool
  deriving DecidableEq, Repr, Inhabited

/-- A pipe whose only use is to end a wait. -/
structure Pipe where
  /-- The signals that put something into the pipe. -/
  signals : List Nat
  /-- Whether something is in the pipe. -/
  filled : Bool
  /-- Whether the other end is closed. -/
  closed : Bool
  deriving DecidableEq, Repr, Inhabited

/-- A started command. -/
structure Process where
  /-- How it ended; none while it runs. -/
  status : Option ExitStatus
  /-- Whether somebody else has collected it. -/
  stolen : Bool
  deriving DecidableEq, Repr, Inhabited

/-- What comes from outside. -/
inductive Change where
  /-- A new device at a path. -/
  | plug (path : Path) (name : Option String) (kinds : List UInt16) (refusal : Option Nat)
  /-- The device at a path goes away; its node stays. -/
  | unplug (path : Path)
  /-- The device at a path may be opened from now on. -/
  | permit (path : Path)
  /-- What stands at a path gets another one. -/
  | move (path target : Path)
  /-- A file with a content is written; without content it is a directory. -/
  | write (path : Path) (content : Option (List UInt8))
  /-- What stands at a path is removed. -/
  | remove (path : Path)
  /-- A device gets records: type, code, value and age in microseconds. -/
  | records (path : Path) (records : List (UInt16 × UInt16 × Int × Int))
  /-- The next read of a device fails. -/
  | failRead (path : Path) (code : Nat)
  /-- The next wait fails. -/
  | failPoll (code : Nat)
  /-- A signal is sent to the daemon. -/
  | signal (number : Nat)
  /-- The clock moves on. -/
  | advance (span : Span)
  deriving DecidableEq, Repr

/-- A simulated host. -/
structure Machine where
  /-- Nanoseconds since the start. -/
  now : Nat
  tree : Tree
  devices : List Device
  /-- The device that is meant by a path, whatever stands there now. -/
  addresses : List (String × Nat)
  opened : List OpenDevice
  watches : List Watch
  notices : List Notice
  /-- Whether watching directories is refused. -/
  refusesNotices : Bool
  pipes : List Pipe
  processes : List Process
  /-- What will come from outside, and when, in nanoseconds. -/
  script : List (Nat × Change)
  pollFailure : Option Nat
  /-- Whether a wait without end, with nothing left to come, is ended by a signal. -/
  endsIdle : Bool
  /-- Messages with their times, the last one first. -/
  journal : List (Nat × Message)
  deriving DecidableEq, Repr, Inhabited

namespace Machine

/-- A host with a file tree and nothing else. -/
def start (tree : Tree) : Machine :=
  { now := 0, tree := tree, devices := [], addresses := [], opened := [], watches := [],
    notices := [], refusesNotices := false, pipes := [], processes := [], script := [],
    pollFailure := none, endsIdle := false, journal := [] }

/-- Nanoseconds from the epoch to the start. -/
def epochOffset : Nat := 1700000000 * 1000000000

/-- The reading of the monotonic clock. -/
def clock (machine : Machine) : Instant := ⟨machine.now⟩

/-- The reading of the wall clock. -/
def wallClock (machine : Machine) : WallTime := ⟨epochOffset + machine.now⟩

/-- Writes a message down. -/
def note (machine : Machine) (message : Message) : Machine :=
  { machine with journal := (machine.now, message) :: machine.journal }

/-! ## Notices -/

/-- The notices that one touched place leads to. -/
def noticesOf (watches : List Watch) (touch : Touch) : List Notice :=
  watches.zipIdx.filterMap fun (watch, id) =>
    if !watch.live then none
    else
      match touch with
      | .entry directory name =>
        if watch.node = directory then some ⟨⟨id⟩, some name⟩ else none
      | .mode node => if watch.node = node then some ⟨⟨id⟩, none⟩ else none
      | .gone node => if watch.node = node then some ⟨⟨id⟩, none⟩ else none

/-- The watches after a touch; the watch on a node that is gone ends. -/
def watchesAfter (watches : List Watch) : Touch → List Watch
  | .gone node => watches.map fun watch =>
      if watch.node = node then { watch with live := false } else watch
  | _ => watches

/-- Notifies about touched places. -/
def notify (machine : Machine) (touched : List Touch) : Machine :=
  touched.foldl
    (fun machine touch =>
      { machine with
        notices := machine.notices ++ noticesOf machine.watches touch
        watches := watchesAfter machine.watches touch })
    machine

/-- Takes over a changed tree and notifies about it. -/
def withTree (machine : Machine) (changed : Tree × List Touch) : Machine :=
  ({ machine with tree := changed.1 } : Machine).notify changed.2

/-! ## Devices -/

/-- The number of the device that a path means. -/
def deviceAt? (machine : Machine) (path : Path) : Option Nat :=
  machine.addresses.lookup path.text

/-- The machine with a function applied to a device. -/
def changeDevice (machine : Machine) (number : Nat) (update : Device → Device) : Machine :=
  { machine with devices := machine.devices.modify number update }

/-- The machine with a function applied to the device that a path means. -/
def changeDeviceAt (machine : Machine) (path : Path) (update : Device → Device) : Machine :=
  match machine.deviceAt? path with
  | some number => machine.changeDevice number update
  | none => machine

/-- Addresses with one path meaning another device. -/
def readdress (addresses : List (String × Nat)) (path : Path) (number : Nat) :
    List (String × Nat) :=
  (path.text, number) :: addresses.filter fun entry => entry.1 != path.text

/-- Plugs a new device in. -/
def plug (machine : Machine) (path : Path) (device : Device) : Machine :=
  let number := machine.devices.length
  ({ machine with
      devices := machine.devices ++ [device]
      addresses := readdress machine.addresses path number } : Machine).withTree
    (machine.tree.put path (.device number))

/-- The stamp of a record of an age in microseconds; stamps are whole microseconds. -/
def stampOf (machine : Machine) (age : Int) : WallTime :=
  ⟨(((epochOffset + machine.now) / 1000 : Nat) : Int) * 1000 - age * 1000⟩

/-- Queues records of a device that is there. -/
def queueRecords (machine : Machine) (path : Path)
    (records : List (UInt16 × UInt16 × Int × Int)) : Machine :=
  let reports := records.map fun (kind, code, value, age) =>
    (⟨machine.stampOf age, kind, code, value⟩ : Report)
  machine.changeDeviceAt path fun device =>
    if device.plugged then { device with queue := device.queue ++ reports } else device

/-- Gives what stands at a path another path; a device is then meant by that one. -/
def move (machine : Machine) (path target : Path) : Machine :=
  let moved := machine.withTree (machine.tree.rename path target)
  match machine.deviceAt? path with
  | some number =>
    { moved with addresses := readdress (machine.addresses.filter fun entry =>
        entry.1 != path.text) target number }
  | none => moved

/-! ## Signals and the script -/

/-- Sends a signal to the daemon. -/
def send (machine : Machine) (number : Nat) : Machine :=
  { machine with pipes := machine.pipes.map fun pipe =>
      if pipe.signals.contains number then { pipe with filled := true } else pipe }

/-- Applies a change that comes from outside. -/
def apply (machine : Machine) : Change → Machine
  | .plug path name kinds refusal =>
    machine.plug path ⟨name, kinds, refusal, true, [], none⟩
  | .unplug path => machine.changeDeviceAt path fun device => { device with plugged := false }
  | .permit path =>
    (machine.changeDeviceAt path fun device => { device with refusal := none }).notify
      (machine.tree.changeMode path)
  | .move path target => machine.move path target
  | .write path (some content) => machine.withTree (machine.tree.put path (.file content))
  | .write path none => machine.withTree (machine.tree.putDirectory path)
  | .remove path => machine.withTree (machine.tree.remove path)
  | .records path records => machine.queueRecords path records
  | .failRead path code =>
    machine.changeDeviceAt path fun device => { device with readFailure := some code }
  | .failPoll code => { machine with pollFailure := some code }
  | .signal number => machine.send number
  | .advance span => { machine with now := machine.now + span.nanos }

/-- Applies what is due from a script, which becomes the rest of the script. -/
def applyDue (machine : Machine) : List (Nat × Change) → Machine
  | [] => { machine with script := [] }
  | (time, change) :: rest =>
    if time ≤ machine.now then (machine.apply change).applyDue rest
    else { machine with script := (time, change) :: rest }

end Machine

end Keyhold.Host
