import Keyhold.Panel
import Keyhold.System.Routine

/-!
# Running commands

Fired actions run their command in the shell. A blocking executor waits for each command; a
detached one starts it and goes on, and keeps a list of what it has started until `reap` finds
the command finished or no longer its own. An action after which the daemon stops is always
waited for. How a command ends is only reported.
-/

namespace Keyhold

open Keyhold.System

/-- How commands are run. -/
inductive CommandMode where
  /-- Each command is waited for. -/
  | blocking
  /-- Commands run beside the daemon. -/
  | detached
  deriving DecidableEq, Repr, Inhabited

/-- Runs commands and keeps track of those that it does not wait for. -/
structure Commands where
  mode : CommandMode
  /-- Commands started and not yet collected, in the order of their start. -/
  children : List ProcessId
  deriving DecidableEq, Repr, Inhabited

namespace Commands

/-- An executor that has started nothing. -/
def start (mode : CommandMode) : Commands := ⟨mode, []⟩

/-- Whether the command of a firing is waited for. -/
def waitsFor (commands : Commands) (firing : Firing) : Bool :=
  commands.mode == .blocking || firing.exits

/-- A process as named in messages. -/
def processText (process : ProcessId) : String := "(pid " ++ toString process.number ++ ")"

/-- Runs a command to its end. -/
def runWaiting (command : String) : Routine (Except OsError Unit) := do
  match ← Routine.request (.runToEnd command) with
  | .error cause => pure (.error cause)
  | .ok status =>
    if !status.isSuccess then
      Routine.report (.warning ("command '" ++ command ++ "' exited with " ++ status.text))
    pure (.ok ())

/-- Starts a command and remembers it. -/
def runBeside (commands : Commands) (command : String) :
    Routine (Except OsError Unit × Commands) := do
  match ← Routine.request (.spawn command) with
  | .error cause => pure (.error cause, commands)
  | .ok process =>
    Routine.report (.debug ("spawned '" ++ command ++ "' as pid " ++ toString process.number))
    pure (.ok (), { commands with children := commands.children ++ [process] })

/-- Runs the command of a firing. -/
def execute (commands : Commands) (firing : Firing) :
    Routine (Except OsError Unit × Commands) :=
  if commands.waitsFor firing then do
    let result ← runWaiting firing.command
    pure (result, commands)
  else commands.runBeside firing.command

/-- Asks whether a started command is still running; what it came to is reported. -/
def isRunning (process : ProcessId) : Routine Bool := do
  match ← Routine.request (.check process) with
  | .ok none => pure true
  | .ok (some status) =>
    if !status.isSuccess then
      Routine.report
        (.warning ("command " ++ processText process ++ " exited with " ++ status.text))
    pure false
  | .error cause =>
    Routine.report
      (.warning ("failed to check command " ++ processText process ++ ": " ++ cause.message))
    pure false

/-- The commands of a list that are still running. -/
def stillRunning : List ProcessId → Routine (List ProcessId)
  | [] => pure []
  | process :: rest => do
    let running ← isRunning process
    let others ← stillRunning rest
    pure (if running then process :: others else others)

/-- Forgets the commands that have finished or are no longer the executor's own. -/
def reap (commands : Commands) : Routine Commands := do
  let children ← stillRunning commands.children
  pure { commands with children := children }

/-- What is reported of a command that outlives the executor. -/
def leftMessage (process : ProcessId) : Message :=
  .debug ("leaving command " ++ processText process ++ " running")

/-- Ends the executor; commands that still run are left alone. -/
def close (commands : Commands) : Routine Unit := do
  let commands ← commands.reap
  Routine.reportAll (commands.children.map leftMessage)

/-- A routine that also uses the started commands. -/
abbrev Using := StateT Commands Routine

/-- The executor of firings that runs their commands in the shell. -/
def executor : Executor Using OsError where
  execute firing := fun commands => commands.execute firing
  explain := OsError.message
  report message := fun commands => do
    Routine.report message
    pure ((), commands)

end Commands

end Keyhold
