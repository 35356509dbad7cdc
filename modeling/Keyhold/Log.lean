/-!
# Log messages

A message has a severity and a text. Operations of the library that report something have a
companion function that lists their messages, so a result and what is said about it stay
apart.
-/

namespace Keyhold

/-- How severe a message is. -/
inductive Severity where
  | error
  | warning
  | info
  | debug
  | trace
  deriving DecidableEq, Repr, Inhabited

namespace Severity

/-- Position in the order from most to least severe. -/
def rank : Severity → Nat
  | .error => 1
  | .warning => 2
  | .info => 3
  | .debug => 4
  | .trace => 5

/-- The label that begins a printed message. -/
def label : Severity → String
  | .error => "ERROR"
  | .warning => "WARN"
  | .info => "INFO"
  | .debug => "DEBUG"
  | .trace => "TRACE"

/-- The name under which a severity is chosen as a threshold. -/
def name : Severity → String
  | .error => "error"
  | .warning => "warn"
  | .info => "info"
  | .debug => "debug"
  | .trace => "trace"

/-- Whether a severity passes a threshold. -/
def passes (severity threshold : Severity) : Bool := severity.rank ≤ threshold.rank

/-- The threshold for a number of requests for more messages. -/
def ofVerbosity : Nat → Severity
  | 0 => .warning
  | 1 => .info
  | 2 => .debug
  | _ => .trace

end Severity

/-- One log message. -/
structure Message where
  severity : Severity
  text : String
  deriving DecidableEq, Repr, Inhabited

namespace Message

/-- An error message. -/
def error (text : String) : Message := ⟨.error, text⟩

/-- A warning. -/
def warning (text : String) : Message := ⟨.warning, text⟩

/-- A message about normal operation. -/
def info (text : String) : Message := ⟨.info, text⟩

/-- A message for finding faults. -/
def debug (text : String) : Message := ⟨.debug, text⟩

/-- A message about every single step. -/
def trace (text : String) : Message := ⟨.trace, text⟩

/-- The message as one line: its label, a blank and its text. -/
def line (message : Message) : String := message.severity.label ++ " " ++ message.text

end Message

end Keyhold
