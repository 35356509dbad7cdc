import Keyhold.Input.Event
import Keyhold.Log
import Keyhold.Path
import Keyhold.System.Error

/-!
# Requests to the operating system

Everything that the daemon asks of the world around it, one request for each step that
something else may come between. The type of an answer depends on the request. What answers
them is left open: a simulated host, a relation that allows any answer, or a real machine.
-/

namespace Keyhold.System

/-- An open input device. -/
structure DeviceHandle where
  id : Nat
  deriving DecidableEq, Repr, Inhabited

/-- The watch on a directory. -/
structure WatchId where
  id : Nat
  deriving DecidableEq, Repr, Inhabited

/-- The read end of a pipe whose only use is to end a wait. -/
structure WakeId where
  id : Nat
  deriving DecidableEq, Repr, Inhabited

/-- A running command. -/
structure ProcessId where
  number : Nat
  deriving DecidableEq, Repr, Inhabited

/-- What opening a device tells about it. -/
structure OpenedDevice where
  handle : DeviceHandle
  name : Option String
  reportsKeys : Bool
  deriving DecidableEq, Repr, Inhabited

/-- A change in a watched directory: the watch and the name of the entry, where there is one. -/
structure Notice where
  watch : WatchId
  entry : Option String
  deriving DecidableEq, Repr, Inhabited

/-- Something to wait for. -/
inductive Descriptor where
  | device (handle : DeviceHandle)
  | notices
  | wake (pipe : WakeId)
  deriving DecidableEq, Repr

/-- How a descriptor comes back from a wait. -/
inductive Readiness where
  | idle
  | readable
  /-- Hung up or broken, with nothing left to read. -/
  | lost
  deriving DecidableEq, Repr, Inhabited

namespace Readiness

/-- The event bit of a descriptor that has something to read. -/
def inputBit : UInt16 := 1

/-- How a descriptor comes back with these event bits. -/
def ofBits (bits : UInt16) : Readiness :=
  if bits = 0 then .idle
  else if bits &&& inputBit ≠ 0 then .readable
  else .lost

end Readiness

/-- How a command ended. -/
inductive ExitStatus where
  | exited (code : Nat)
  | killed (signal : Nat)
  deriving DecidableEq, Repr, Inhabited

namespace ExitStatus

/-- Whether the command ended well. -/
def isSuccess : ExitStatus → Bool
  | .exited code => code == 0
  | .killed _ => false

/-- Names of the first signals, from number one. -/
def signalNames : List String :=
  ["SIGHUP", "SIGINT", "SIGQUIT", "SIGILL", "SIGTRAP", "SIGABRT", "SIGBUS", "SIGFPE",
    "SIGKILL", "SIGUSR1", "SIGSEGV", "SIGUSR2", "SIGPIPE", "SIGALRM", "SIGTERM", "SIGSTKFLT",
    "SIGCHLD", "SIGCONT", "SIGSTOP", "SIGTSTP", "SIGTTIN", "SIGTTOU", "SIGURG", "SIGXCPU",
    "SIGXFSZ", "SIGVTALRM", "SIGPROF", "SIGWINCH", "SIGIO", "SIGPWR", "SIGSYS"]

/-- The name of a signal, in parentheses after a blank; nothing for an unknown one. -/
def signalSuffix (signal : Nat) : String :=
  match signal with
  | 0 => ""
  | position + 1 =>
    match signalNames[position]? with
    | some name => " (" ++ name ++ ")"
    | none => ""

/-- The status as shown in messages. -/
def text : ExitStatus → String
  | .exited code => "exit status: " ++ toString code
  | .killed signal => "signal: " ++ toString signal ++ signalSuffix signal

end ExitStatus

/-- The signal that interrupts a program from the terminal. -/
def interruptSignal : Nat := 2
/-- The signal that asks a program to end. -/
def terminateSignal : Nat := 15
/-- The signal sent when a child ends. -/
def childSignal : Nat := 17

/-- A request to the operating system. -/
inductive Request where
  /-- Reads the monotonic clock. -/
  | clock
  /-- Reads the wall clock. -/
  | wallClock
  /-- Writes a log message. -/
  | log (message : Message)
  /-- Reads a whole text file. -/
  | readText (path : Path)
  /-- Asks whether a path is a regular file. -/
  | isFile (path : Path)
  /-- Lists the names in a directory. -/
  | listDirectory (path : Path)
  /-- Opens an input device. -/
  | openDevice (path : Path)
  /-- Closes an input device. -/
  | closeDevice (handle : DeviceHandle)
  /-- Reads the complete reports that a device has queued. -/
  | readDevice (handle : DeviceHandle)
  /-- Prepares to watch directories. -/
  | startNotices
  /-- Watches a directory for entries that are created, moved in or changed in mode. -/
  | watch (directory : Path)
  /-- Reads some of the queued notices. -/
  | readNotices
  /-- Opens a pipe that becomes readable when one of the signals arrives. -/
  | openSignalPipe (signals : List Nat)
  /-- Empties a pipe. -/
  | drain (pipe : WakeId)
  /-- Waits until a descriptor is ready or the timeout in milliseconds has passed; a negative
  timeout never passes. -/
  | poll (descriptors : List Descriptor) (timeout : Int)
  /-- Starts a shell command. -/
  | spawn (command : String)
  /-- Runs a shell command to its end. -/
  | runToEnd (command : String)
  /-- Asks whether a started command has ended, and collects it if it has. -/
  | check (process : ProcessId)
  deriving Repr

namespace Request

/-- What the system answers to a request. -/
abbrev Answer : Request → Type
  | clock => Instant
  | wallClock => WallTime
  | log _ => Unit
  | readText _ => Except OsError String
  | isFile _ => Bool
  | listDirectory _ => Except OsError (List String)
  | openDevice _ => Except OsError OpenedDevice
  | closeDevice _ => Unit
  | readDevice _ => Except OsError (List Report)
  | startNotices => Except OsError Unit
  | watch _ => Except OsError WatchId
  | readNotices => Except OsError (List Notice)
  | openSignalPipe _ => Except SignalPipeError WakeId
  | drain _ => Unit
  | poll _ _ => Except OsError (List Readiness)
  | spawn _ => Except OsError ProcessId
  | runToEnd _ => Except OsError ExitStatus
  | check _ => Except OsError (Option ExitStatus)

end Request

end Keyhold.System
