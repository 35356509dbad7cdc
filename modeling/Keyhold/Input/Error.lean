import Keyhold.Path
import Keyhold.System.Error

/-!
# Input errors

Why the inputs cannot be monitored any further.
-/

namespace Keyhold

open Keyhold.System

/-- Why monitoring the inputs failed. -/
inductive InputError where
  /-- An input that must be there cannot be opened. -/
  | unopened (path : Path) (cause : OsError)
  /-- An input that must be there was lost and does not open again. -/
  | disconnected (path : Path)
  /-- There is no input at all. -/
  | noInputs
  /-- Waiting for the inputs failed. -/
  | failed (cause : OsError)
  deriving DecidableEq, Repr

namespace InputError

/-- The error as shown to the user. -/
def message : InputError → String
  | .unopened path cause => "Cannot open " ++ path.text ++ ": " ++ cause.message
  | .disconnected path => "Input " ++ path.text ++ " went away"
  | .noInputs => "No input have been given"
  | .failed cause => "IO error: " ++ cause.message

/-- The messages of the errors that this one was caused by, outermost first. -/
def causes : InputError → List String
  | .unopened _ cause => [cause.message]
  | .failed cause => [cause.message]
  | _ => []

end InputError

end Keyhold
