import Keyhold.Bindings.Draft
import Keyhold.Path

/-!
# Options

What a command line asks for. The switches that configure actions are kept together as steps in
the order in which they were given; the others do not depend on their order.
-/

namespace Keyhold.CommandLine

/-- A step of a configuration as it is given, with a key still as text. -/
inductive StepText where
  | press (kind : PressKind) (key : String)
  | time (trigger : UInt64)
  | command (text : String) (exits : Bool)
  deriving DecidableEq, Repr

namespace StepText

/-- The step that is meant. -/
def step : StepText → Except ConfigError Step
  | .press kind text =>
    match Key.ofText text with
    | .ok key => .ok (.press kind key)
    | .error cause => .error (.invalidKey cause)
  | .time trigger => .ok (.time trigger)
  | .command text exits => .ok (.command text exits)

/-- Applies steps to a draft, up to the first that fails. -/
def applyAll (draft : Draft) : List StepText → Draft × Option ConfigError
  | [] => (draft, none)
  | text :: rest =>
    match text.step with
    | .error error => (draft, some error)
    | .ok step =>
      match draft.apply step with
      | (next, none) => applyAll next rest
      | (next, some error) => (next, some error)

end StepText

/-- Why a command line is not carried out. -/
inductive UsageError where
  /-- Help was asked for. -/
  | help
  /-- The version was asked for. -/
  | version
  /-- A switch that does not exist. -/
  | unknown
  /-- A switch without its value, or an empty path. -/
  | noValue
  /-- A value that is no number. -/
  | badNumber
  /-- A switch given twice that can be given only once. -/
  | repeated
  /-- A value attached to a flag. -/
  | unwantedValue
  deriving DecidableEq, Repr

/-- What a command line asks for. -/
structure Options where
  /-- Inputs that have to be there. -/
  inputs : List Path
  /-- Inputs that may be missing. -/
  waited : List Path
  /-- Steps of the configuration of actions, in order. -/
  steps : List StepText
  /-- The configuration file. -/
  config : Option Path
  /-- The debounce window in milliseconds. -/
  debounce : Option UInt64
  /-- Whether every command is waited for. -/
  syncActions : Bool
  /-- Whether to show the configuration and stop. -/
  checkConfig : Bool
  /-- Whether to list the devices and stop. -/
  listDevices : Bool
  /-- Whether to stop when an input hangs up. -/
  testMode : Bool
  /-- How often more messages were asked for. -/
  verbosity : Nat
  /-- Arguments that belong to no switch. -/
  strays : List String
  deriving DecidableEq, Repr, Inhabited

namespace Options

/-- The options of an empty command line. -/
def empty : Options := ⟨[], [], [], none, none, false, false, false, false, 0, []⟩

end Options

end Keyhold.CommandLine
