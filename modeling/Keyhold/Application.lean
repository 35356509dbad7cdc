import Keyhold.CommandLine.Options
import Keyhold.Config
import Keyhold.Daemon
import Keyhold.Input.Listing

/-!
# The application

From the options of a command line to a configured daemon. The configuration file comes first,
then the steps of the command line, so options add to what the file configures; inputs are
joined likewise, and the debounce window of the command line wins. Without steps and without a
named file the user's own file is used, if there is one.
-/

namespace Keyhold

open Keyhold.CommandLine
open Keyhold.System

/-- Why the application ends with an error. -/
inductive ApplicationError where
  /-- An argument that belongs to no switch. -/
  | stray (text : String)
  /-- The configuration file is wrong. -/
  | file (path : Path) (cause : ConfigError)
  /-- The configuration as a whole is wrong. -/
  | config (cause : ConfigError)
  /-- The inputs cannot be monitored. -/
  | input (cause : InputError)
  /-- A pipe for signals cannot be opened. -/
  | signals (cause : SignalPipeError)
  /-- No device was found to list. -/
  | noDevices
  /-- A deadline of the daemon cannot be represented. -/
  | clockLimit
  deriving DecidableEq, Repr

namespace ApplicationError

/-- The error and what caused it, outermost first. -/
def chain : ApplicationError → List String
  | .stray text => ["Non-option argument: " ++ text ++ ". Did you forget to quote action?"]
  | .file path cause => ("loading " ++ path.text) :: cause.message :: cause.causes
  | .config cause => cause.message :: cause.causes
  | .input cause => cause.message :: cause.causes
  | .signals cause => cause.chain
  | .noDevices => ["No input devices with keys found (check permissions)"]
  | .clockLimit => ["overflow when adding duration to instant"]

/-- The error when the daemon cannot get ready. -/
def ofStart : StartError → ApplicationError
  | .input cause => .input cause
  | .signals cause => .signals cause

/-- The error and its causes on one line. -/
def summary (error : ApplicationError) : String := ": ".intercalate error.chain

/-- A text whose further lines are indented by blanks. -/
def indentRest (width : Nat) (text : String) : String :=
  String.ofList (text.toList.flatMap fun c =>
    if c = '\n' then '\n' :: List.replicate width ' ' else [c])

/-- The causes, each on lines of its own; several are numbered. -/
def causeLines : List String → List String
  | [] => []
  | [cause] => ["    " ++ indentRest 4 cause]
  | causes => causes.zipIdx.map fun (cause, position) =>
      let number := toString position
      String.ofList (List.replicate (5 - number.length) ' ') ++ number ++ ": " ++
        indentRest 7 cause

/-- The error as shown when the program ends, with its causes below. -/
def report (error : ApplicationError) : String :=
  match error.chain with
  | [] => "Error: "
  | [text] => "Error: " ++ text
  | text :: causes =>
    "Error: " ++ text ++ "\n\nCaused by:\n" ++ "\n".intercalate (causeLines causes)

end ApplicationError

/-- The application, configured. -/
structure Application where
  options : Options
  bindings : Bindings
  inputs : List Path
  waited : List Path
  /-- The debounce window. -/
  window : Span
  deriving DecidableEq, Repr, Inhabited

namespace Application

/-- The configuration file to be read, given where the user's own file would be. -/
def configPath (options : Options) (ownFile : Path) : Routine (Option Path) :=
  match options.config with
  | some path => pure (some path)
  | none =>
    if options.steps.isEmpty then do
      let found ← Routine.request (.isFile ownFile)
      pure (if found then some ownFile else none)
    else pure none

/-- Reads a configuration file. -/
def readConfig (path : Path) : Routine (Except ConfigError Config) := do
  match ← Routine.request (.readText path) with
  | .error cause => pure (.error (.unreadable cause))
  | .ok text =>
    Routine.reportAll (Config.textMessages text)
    pure (Config.ofText text)

/-- The draft that a configuration and the steps of a command line make together. -/
def draft (config : Config) (steps : List StepText) : Draft × Option ConfigError :=
  match config.apply .empty with
  | (draft, none) => StepText.applyAll draft steps
  | (draft, some error) => (draft, some error)

/-- The bindings that a configuration and the steps of a command line make together. -/
def bindings? (config : Config) (steps : List StepText) : Except ConfigError Bindings :=
  match draft config steps with
  | (draft, none) => draft.build
  | (_, some error) => .error error

/-- What `bindings?` reports. -/
def bindingsMessages (config : Config) (steps : List StepText) : List Message :=
  match draft config steps with
  | (draft, none) => draft.buildMessages
  | (_, some _) => []

/-- The least verbosity at which the daemon may run without keys, to show what comes in. -/
def discoveryVerbosity : Nat := 2

/-- The application that options and a configuration make. -/
def configure (options : Options) (config : Config) : Except ConfigError Application := do
  let bindings ← bindings? config options.steps
  if bindings.isEmpty && options.verbosity < discoveryVerbosity then .error .noKeys
  else
    let debounce := (options.debounce.or config.debounce).getD Tracker.defaultWindow
    .ok ⟨options, bindings, config.inputs ++ options.inputs, config.waited ++ options.waited,
      Span.ofMillis debounce⟩

/-- Reads the configuration that options ask for. -/
def loadConfig (options : Options) (ownFile : Path) :
    Routine (Except ApplicationError Config) := do
  match ← configPath options ownFile with
  | none => pure (.ok .empty)
  | some path =>
    match ← readConfig path with
    | .ok config => pure (.ok config)
    | .error cause => pure (.error (.file path cause))

/-- Configures the application. -/
def load (options : Options) (ownFile : Path) :
    Routine (Except ApplicationError Application) :=
  match options.strays with
  | text :: _ => pure (.error (.stray text))
  | [] => do
    match ← loadConfig options ownFile with
    | .error error => pure (.error error)
    | .ok config =>
      Routine.reportAll (bindingsMessages config options.steps)
      match configure options config with
      | .ok application => pure (.ok application)
      | .error cause => pure (.error (.config cause))

/-- One action as a line of the overview. -/
def actionLine (action : Action) : String :=
  "  " ++ action.text ++ (if action.exits then " (exit after)" else "") ++ "\n"

/-- One key with its actions in the overview. -/
def bindingLines (binding : Binding) : String :=
  "key " ++ toString binding.code.toNat ++ ":\n" ++
    String.join (binding.actions.map actionLine)

/-- An overview of the configuration, which has to name an input. -/
def overview (application : Application) : Except ApplicationError String :=
  if application.inputs.isEmpty && application.waited.isEmpty then
    .error (.input .noInputs)
  else
    .ok (String.join (application.bindings.map bindingLines) ++ "Configuration is valid\n")

/-- How the daemon of the application runs commands. -/
def commandMode (application : Application) : CommandMode :=
  if application.options.syncActions then .blocking else .detached

/-- What the end of the daemon means for the application. -/
def resultOf : Option Ending → Except ApplicationError Unit
  | some (.failed cause) => .error (.input cause)
  | some .clockLimit => .error .clockLimit
  | _ => .ok ()

/-- Runs the daemon of the application for at most a number of turns. -/
def run (application : Application) (limit : Nat) : Routine (Except ApplicationError Unit) := do
  match ← Daemon.start application.inputs application.waited application.bindings
      application.window application.commandMode application.options.testMode with
  | .error cause => pure (.error (.ofStart cause))
  | .ok daemon =>
    let ending ← daemon.run limit
    pure (resultOf ending)

end Application

/-- The devices to choose from, one on each line. -/
def deviceLines (devices : List ListedDevice) : Except ApplicationError String :=
  if devices.isEmpty then .error .noDevices
  else .ok (String.join (devices.map ListedDevice.line))

end Keyhold
