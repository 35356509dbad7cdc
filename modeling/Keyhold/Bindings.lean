import Keyhold.Action
import Keyhold.Key

/-!
# Bindings

The result of configuring: for every key, in the order in which keys were first named, its
actions in the order in which they are searched. The short action comes first, then the long
ones by ascending trigger time; actions with equal trigger times keep the order in which they
were given.
-/

namespace Keyhold

/-- The actions bound to one key. -/
structure Binding where
  code : UInt16
  name : Option String
  actions : List Action
  deriving DecidableEq, Repr, Inhabited

namespace Binding

/-- The key of the binding. -/
def key (binding : Binding) : Key := ⟨binding.code, binding.name⟩

/-- The label of the bound key in messages. -/
def label (binding : Binding) : String := binding.key.label

/-- The long action that a held key waits for: the last action, when it is a long one. -/
def held? (binding : Binding) : Option Action :=
  binding.actions.getLast?.filter (·.kind == .long)

end Binding

/-- All bound keys, in configuration order. -/
abbrev Bindings := List Binding

namespace Bindings

/-- The binding of a code. -/
def get? (bindings : Bindings) (code : UInt16) : Option Binding :=
  bindings.find? fun binding => binding.code == code

end Bindings

namespace Action

/-- Whether one action comes before another, or beside it, in the order of a binding. -/
def precedes (first second : Action) : Bool :=
  match first.kind, second.kind with
  | .short, _ => true
  | .long, .short => false
  | .long, .long => first.trigger ≤ second.trigger

/-- Actions in the order of a binding; the order of equal ones is kept. -/
def arrange (actions : List Action) : List Action := actions.mergeSort precedes

end Action

end Keyhold
