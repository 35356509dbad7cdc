/-!
# Actions

An action binds a shell command to a kind of press. A short press applies to presses shorter
than its trigger time, a long press to presses at least that long. Among the actions of a key
the last one that applies is chosen.
-/

namespace Keyhold

/-- The kind of press that an action reacts to. -/
inductive PressKind where
  | short
  | long
  deriving DecidableEq, Repr, Inhabited

namespace PressKind

/-- The kind that a text names; upper and lower ASCII letters are the same. -/
def ofText? (text : String) : Option PressKind :=
  match String.ofList (text.toList.map Char.toLower) with
  | "short" => some .short
  | "long" => some .long
  | _ => none

/-- The name of a kind. -/
def text : PressKind → String
  | .short => "short"
  | .long => "long"

/-- The trigger time in milliseconds of an action that names none. -/
def defaultTrigger : PressKind → UInt64
  | .short => 1000
  | .long => 5000

/-- What is said of a text that names no kind. -/
def unknownMessage : String := "Matching variant not found"

end PressKind

/-- A command bound to a kind of press. The trigger time is in milliseconds; after an action
that exits, the daemon stops. -/
structure Action where
  kind : PressKind
  trigger : UInt64
  command : String
  exits : Bool
  deriving DecidableEq, Repr, Inhabited

namespace Action

/-- Whether the action applies to a press of the given milliseconds. -/
def appliesTo (action : Action) (elapsed : UInt64) : Bool :=
  match action.kind with
  | .long => action.trigger ≤ elapsed
  | .short => elapsed < action.trigger

/-- The action as shown to the user. -/
def text (action : Action) : String :=
  action.kind.text ++ " " ++ toString action.trigger.toNat ++ "ms: " ++ action.command

/-- The action of a list that runs for a press of the given milliseconds: the last one that
applies. -/
def choose? (actions : List Action) (elapsed : UInt64) : Option Action :=
  actions.reverse.find? (·.appliesTo elapsed)

/-- The position in the list of the action that runs. -/
def choosePosition? (actions : List Action) (elapsed : UInt64) : Option Nat :=
  (actions.zipIdx.reverse.find? fun entry => entry.1.appliesTo elapsed).map (·.2)

end Action

end Keyhold
