import Keyhold.CommandLine.Options

/-!
# Findings

What a parser of command lines answers once it has taken one. For each switch that configures
actions it lists the values that were given, and apart from them their places on the command line.
`steps` puts the values of all these switches back into the order in which they were given. How a
command line is parsed is left to the parser.
-/

namespace Keyhold.CommandLine

/-- What a parser answers about one switch: the values that were given for it, and their places on
the command line, each if there are any. -/
structure Occurrences (α : Type) where
  values : Option (List α)
  places : Option (List Nat)
  deriving DecidableEq, Repr

namespace Occurrences

variable {α : Type}

/-- A switch that was not given. -/
def none : Occurrences α := ⟨.none, .none⟩

instance : Inhabited (Occurrences α) := ⟨none⟩

/-- The steps that the values of a switch mean, each with its place. -/
def steps (occurrences : Occurrences α) (step : α → StepText) : List (Nat × StepText) :=
  match occurrences.values, occurrences.places with
  | some values, some places => places.zip (values.map step)
  | _, _ => []

end Occurrences

/-- What has been found on a command line. -/
structure Findings where
  inputs : List Path
  waited : List Path
  shorts : Occurrences String
  longs : Occurrences String
  times : Occurrences UInt64
  actions : Occurrences String
  exitActions : Occurrences String
  config : Option Path
  debounce : Option UInt64
  syncActions : Bool
  checkConfig : Bool
  listDevices : Bool
  testMode : Bool
  verbosity : Nat
  strays : List String
  deriving DecidableEq, Repr, Inhabited

namespace Findings

/-- Nothing has been found. -/
def empty : Findings :=
  ⟨[], [], .none, .none, .none, .none, .none, none, none, false, false, false, false, 0, []⟩

/-- The steps of all switches that configure actions, switch by switch, each with its place. -/
def collected (findings : Findings) : List (Nat × StepText) :=
  findings.shorts.steps (.press .short) ++ findings.longs.steps (.press .long) ++
    findings.times.steps .time ++ findings.actions.steps (.command · false) ++
    findings.exitActions.steps (.command · true)

/-- The steps in the order of the command line. -/
def steps (findings : Findings) : List StepText :=
  (findings.collected.mergeSort fun earlier later => decide (earlier.1 ≤ later.1)).map (·.2)

/-- The options that were found. -/
def options (findings : Findings) : Options :=
  { inputs := findings.inputs
    waited := findings.waited
    steps := findings.steps
    config := findings.config
    debounce := findings.debounce
    syncActions := findings.syncActions
    checkConfig := findings.checkConfig
    listDevices := findings.listDevices
    testMode := findings.testMode
    verbosity := findings.verbosity
    strays := findings.strays }

end Findings

/-- A parser of command lines. -/
abbrev Parser := List String → Except UsageError Findings

end Keyhold.CommandLine
