import Keyhold.Program

/-!
# The command line of the program

Answers the requests of the program on a real machine, as far as that is possible without
access to devices: files are read, messages go to the error output and time passes, while every
attempt to open a device or to start a command is refused.
-/

namespace Keyhold

open Keyhold.CommandLine
open Keyhold.System

namespace Main

/-- The threshold of messages to be written. -/
abbrev Threshold := Severity

/-- Writes a message to the error output. -/
def write (threshold : Threshold) (message : Message) : IO Unit := do
  if message.severity.passes threshold then
    IO.eprintln ("[" ++ message.severity.label ++ "] " ++ message.text)

/-- The error for a failed access to a path. -/
def osErrorOf : IO.Error → OsError
  | .noFileOrDirectory _ _ _ => .noEntry
  | .permissionDenied _ _ _ => .number 13
  | .inappropriateType _ code _ => .number code.toNat
  | _ => .notUnicode

/-- Reads a whole text file. -/
def readText (path : Path) : IO (Except OsError String) := do
  try
    let text ← IO.FS.readFile path.text
    pure (.ok text)
  catch error => pure (.error (osErrorOf error))

/-- Whether a path is there. -/
def isThere (path : Path) : IO Bool := do
  match ← readText path with
  | .ok _ => pure true
  | .error _ => pure false

/-- Waits for a timeout in milliseconds; a negative one is taken a second at a time. -/
def wait (timeout : Int) : IO Unit := do
  IO.sleep (if timeout < 0 then 1000 else UInt32.ofNat timeout.toNat)

/-- Answers a request. No record is ever read here, so any clock will do for the wall clock. -/
def answer (threshold : Threshold) : (request : Request) → IO request.Answer
  | .clock => do pure (⟨(← IO.monoNanosNow)⟩ : Instant)
  | .wallClock => do pure (⟨(← IO.monoNanosNow)⟩ : WallTime)
  | .log message => write threshold message
  | .readText path => readText path
  | .isFile path => isThere path
  | .listDirectory _ => pure (.error .notImplemented)
  | .openDevice path => do
    if ← isThere path then pure (.error .notDevice) else pure (.error .noEntry)
  | .closeDevice _ => pure ()
  | .readDevice _ => pure (.error .noDevice)
  | .startNotices => pure (.error .notImplemented)
  | .watch _ => pure (.error .notImplemented)
  | .readNotices => pure (.error .wouldBlock)
  | .openSignalPipe signals => pure (.ok ⟨signals.length⟩)
  | .drain _ => pure ()
  | .poll descriptors timeout => do
    wait timeout
    pure (.ok (descriptors.map fun _ => .idle))
  | .spawn _ => pure (.error .notImplemented)
  | .runToEnd _ => pure (.error .notImplemented)
  | .check _ => pure (.error .noChild)

/-- Carries out a routine. -/
def carryOut {α : Type} (threshold : Threshold) : Routine α → IO α
  | .done result => pure result
  | .ask request next => do carryOut threshold (next (← answer threshold request))

/-- The user's own configuration file. -/
def ownFile : IO Path := do
  match ← IO.getEnv "XDG_CONFIG_HOME" with
  | some home => pure (Config.defaultPath ⟨home⟩)
  | none =>
    let home := (← IO.getEnv "HOME").getD ""
    pure (Config.defaultPath ((⟨home⟩ : Path).below ".config"))

/-- The threshold that arguments ask for. -/
def thresholdOf (arguments : List String) : Threshold :=
  match Options.ofArguments arguments with
  | .ok options => Severity.ofVerbosity options.verbosity
  | .error _ => .warning

/-- More turns than a daemon takes in its life. -/
def turnLimit : Nat := 18446744073709551616

/-- Runs the program. -/
def run (arguments : List String) : IO UInt32 := do
  let ownFile ← ownFile
  let result ← carryOut (thresholdOf arguments) (Program.run arguments ownFile turnLimit)
  IO.print result.output
  unless result.complaint.isEmpty do
    IO.eprintln result.complaint
  pure (UInt32.ofNat result.exitCode)

end Main

end Keyhold

/-- The program. -/
def main (arguments : List String) : IO UInt32 := Keyhold.Main.run arguments
