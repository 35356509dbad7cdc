import Keyhold.Key
import Keyhold.System.Error

/-!
# Configuration errors

Everything that can be wrong with a configuration, whether it comes from a file or from the
command line. All of it is fatal at startup.
-/

namespace Keyhold

/-- What a step of a configuration sets on the action opened last. -/
inductive ActionPart where
  | time
  | action
  deriving DecidableEq, Repr

namespace ActionPart

/-- The part as named in messages. -/
def text : ActionPart → String
  | .time => "time"
  | .action => "action"

end ActionPart

/-- What is wrong with a configuration. -/
inductive ConfigError where
  /-- The file cannot be read. -/
  | unreadable (cause : System.OsError)
  /-- The file is no TOML document of the right form. -/
  | malformed
  /-- A text or number is no key. -/
  | invalidKey (cause : KeyTextError)
  /-- A text is no kind of press. -/
  | invalidKind (text : String)
  /-- A second short action for a key. -/
  | duplicateShort (code : UInt16)
  /-- An action was opened and left without command. -/
  | missingCommand (code : UInt16)
  /-- A part of an action is set before any action was opened. -/
  | noCurrentKey (part : ActionPart)
  /-- A command without text. -/
  | emptyCommand
  /-- No key is configured. -/
  | noKeys
  deriving DecidableEq, Repr

namespace ConfigError

/-- The error as shown to the user. -/
def message : ConfigError → String
  | .unreadable cause => "IO error: " ++ cause.message
  | .malformed => "TOML parse error"
  | .invalidKey cause => "Invalid key: " ++ cause.message
  | .invalidKind text => "Invalid action kind '" ++ text ++ "', expected 'short' or 'long'"
  | .duplicateShort code => "Duplicate short action for key " ++ toString code.toNat
  | .missingCommand code => "Key " ++ toString code.toNat ++ " was defined without action"
  | .noCurrentKey part => "Action " ++ part.text ++ " can only be set after a key code"
  | .emptyCommand => "Action command must not be empty"
  | .noKeys => "No action given"

/-- The messages of the errors that this one was caused by, outermost first. -/
def causes : ConfigError → List String
  | .unreadable cause => [cause.message]
  | .invalidKey cause => [cause.message]
  | _ => []

end ConfigError

end Keyhold
