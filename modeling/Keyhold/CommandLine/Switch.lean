/-!
# Switches of the command line

The options of the program and their names. A switch has a long name, most have a letter too.
Some take a value; the others are flags. A switch may be repeatable, or be given once only.
-/

namespace Keyhold.CommandLine

/-- A switch that takes a value. -/
inductive ValueSwitch where
  | input
  | inputWait
  | short
  | long
  | time
  | action
  | exitAction
  | config
  | debounce
  deriving DecidableEq, Repr

/-- A switch without value. -/
inductive Flag where
  | syncActions
  | checkConfig
  | listDevices
  | testMode
  | verbose
  | help
  | version
  deriving DecidableEq, Repr

/-- A switch of the command line. -/
inductive Switch where
  | value (switch : ValueSwitch)
  | flag (flag : Flag)
  deriving DecidableEq, Repr

namespace Switch

/-- The switch with a letter. -/
def ofLetter? : Char → Option Switch
  | 'i' => some (.value .input)
  | 'I' => some (.value .inputWait)
  | 's' => some (.value .short)
  | 'l' => some (.value .long)
  | 't' => some (.value .time)
  | 'a' => some (.value .action)
  | 'X' => some (.value .exitAction)
  | 'c' => some (.value .config)
  | 'v' => some (.flag .verbose)
  | 'h' => some (.flag .help)
  | 'V' => some (.flag .version)
  | _ => none

/-- Long names and their switches. -/
def longNames : List (String × Switch) :=
  [("input", .value .input), ("input-wait", .value .inputWait), ("short", .value .short),
    ("long", .value .long), ("time", .value .time), ("action", .value .action),
    ("exit-action", .value .exitAction), ("config", .value .config),
    ("debounce", .value .debounce), ("sync-actions", .flag .syncActions),
    ("check-config", .flag .checkConfig), ("list-devices", .flag .listDevices),
    ("test-mode", .flag .testMode), ("verbose", .flag .verbose), ("help", .flag .help),
    ("version", .flag .version)]

/-- The switch with a long name. Names are not abbreviated. -/
def ofName? (name : String) : Option Switch := longNames.lookup name

end Switch

end Keyhold.CommandLine
