import Keyhold.Bindings
import Keyhold.Bindings.Error
import Keyhold.Log

/-!
# Drafts of bindings

Bindings are configured step by step. A step either opens a new action for a key or sets the
time or the command of the action opened last; the key of that action is the current key. A
draft is the state between steps. A step that fails reports why and leaves the draft that the
part before the failure made: `Draft.press` has already entered the key and its name when it
refuses a second short action, and `Draft.addAction` has already opened the action when it
refuses an empty command.
-/

namespace Keyhold

/-- An action while it is being configured; its command may still be missing. -/
structure DraftAction where
  kind : PressKind
  trigger : UInt64
  command : Option String
  exits : Bool
  deriving DecidableEq, Repr, Inhabited

namespace DraftAction

/-- A newly opened action. -/
def fresh (kind : PressKind) : DraftAction := ⟨kind, kind.defaultTrigger, none, false⟩

/-- The finished action, if its command is known. -/
def finish? (draft : DraftAction) : Option Action :=
  draft.command.map fun command => ⟨draft.kind, draft.trigger, command, draft.exits⟩

end DraftAction

/-- A key with the actions opened for it so far, in the order of opening. -/
structure DraftKey where
  code : UInt16
  name : Option String
  actions : List DraftAction
  deriving DecidableEq, Repr, Inhabited

namespace DraftKey

/-- The key's entry with a function applied to the action opened last. -/
def changeLast (change : DraftAction → DraftAction) (entry : DraftKey) : DraftKey :=
  match entry.actions.getLast? with
  | some last => { entry with actions := entry.actions.dropLast ++ [change last] }
  | none => entry

/-- The binding of the key, when every action has its command. -/
def finish? (entry : DraftKey) : Option Binding :=
  (entry.actions.mapM DraftAction.finish?).map fun actions =>
    ⟨entry.code, entry.name, Action.arrange actions⟩

end DraftKey

/-- The state of a configuration between two steps. -/
structure Draft where
  keys : List DraftKey
  current : Option UInt16
  deriving DecidableEq, Repr, Inhabited

/-- A step of a configuration. -/
inductive Step where
  /-- Opens an action for a key. -/
  | press (kind : PressKind) (key : Key)
  /-- Sets the trigger time of the action opened last. -/
  | time (trigger : UInt64)
  /-- Sets the command of the action opened last, and whether the daemon stops after it. -/
  | command (text : String) (exits : Bool)
  deriving DecidableEq, Repr

namespace Draft

/-- The draft before any step. -/
def empty : Draft := ⟨[], none⟩

/-- The entry of a code. -/
def lookup? (draft : Draft) (code : UInt16) : Option DraftKey :=
  draft.keys.find? fun entry => entry.code == code

/-- The action that a time or a command applies to. -/
def currentAction? (draft : Draft) : Option DraftAction :=
  (draft.current.bind draft.lookup?).bind fun entry => entry.actions.getLast?

/-- The draft with a function applied to the entry of a code. -/
def change (draft : Draft) (code : UInt16) (update : DraftKey → DraftKey) : Draft :=
  { draft with keys := draft.keys.map fun entry =>
      if entry.code = code then update entry else entry }

/-- The draft with a function applied to the current action. -/
def changeCurrent (draft : Draft) (update : DraftAction → DraftAction) : Draft :=
  match draft.current with
  | some code => draft.change code (DraftKey.changeLast update)
  | none => draft

/-- The current key, while its action still lacks a command. -/
def unfinished? (draft : Draft) : Option UInt16 :=
  match draft.currentAction? with
  | some action => if action.command.isNone then draft.current else none
  | none => none

/-- The draft with an entry for the key, which is named if it had no name before. -/
def enter (draft : Draft) (key : Key) : Draft :=
  match draft.lookup? key.code with
  | some _ => draft.change key.code fun entry => { entry with name := entry.name.or key.name }
  | none => { draft with keys := draft.keys ++ [⟨key.code, key.name, []⟩] }

/-- Whether a short action was opened for a code. -/
def hasShort (draft : Draft) (code : UInt16) : Bool :=
  (draft.lookup? code).any fun entry => entry.actions.any (·.kind == .short)

/-- Opens an action for a key. -/
def press (draft : Draft) (kind : PressKind) (key : Key) : Draft × Option ConfigError :=
  match draft.unfinished? with
  | some code => (draft, some (.missingCommand code))
  | none =>
    let entered := draft.enter key
    if kind = .short ∧ entered.hasShort key.code = true then
      (entered, some (.duplicateShort key.code))
    else
      let opened := entered.change key.code fun entry =>
        { entry with actions := entry.actions ++ [.fresh kind] }
      ({ opened with current := some key.code }, none)

/-- Sets the trigger time of the current action. -/
def time (draft : Draft) (trigger : UInt64) : Draft × Option ConfigError :=
  match draft.currentAction? with
  | some _ => (draft.changeCurrent fun action => { action with trigger := trigger }, none)
  | none => (draft, some (.noCurrentKey .time))

/-- Sets the command of the current action. -/
def command (draft : Draft) (text : String) (exits : Bool) : Draft × Option ConfigError :=
  if text.isEmpty then (draft, some .emptyCommand)
  else
    match draft.currentAction? with
    | some _ =>
      (draft.changeCurrent fun action => { action with command := some text, exits := exits },
        none)
    | none => (draft, some (.noCurrentKey .action))

/-- Applies one step. -/
def apply (draft : Draft) : Step → Draft × Option ConfigError
  | .press kind key => draft.press kind key
  | .time trigger => draft.time trigger
  | .command text exits => draft.command text exits

/-- Applies steps up to and including the first that fails. -/
def applyAll (draft : Draft) : List Step → Draft × Option ConfigError
  | [] => (draft, none)
  | step :: rest =>
    match draft.apply step with
    | (next, none) => next.applyAll rest
    | (next, some error) => (next, some error)

/-- The steps that configure a whole action. -/
def stepsOf (key : Key) (action : Action) : List Step :=
  [.press action.kind key, .time action.trigger, .command action.command action.exits]

/-- Adds a whole action for a key. -/
def addAction (draft : Draft) (key : Key) (action : Action) : Draft × Option ConfigError :=
  draft.applyAll (stepsOf key action)

/-- Bindings from entries, in their order; the first key with an action that lacks its
command is refused. -/
def finishAll : List DraftKey → Except ConfigError Bindings
  | [] => .ok []
  | entry :: rest =>
    match entry.finish? with
    | some binding => (finishAll rest).map (binding :: ·)
    | none => .error (.missingCommand entry.code)

/-- The bindings that the draft configures. -/
def build (draft : Draft) : Except ConfigError Bindings := finishAll draft.keys

/-- What is reported of one finished binding. -/
def bindingMessage (binding : Binding) : Message :=
  .debug ("key " ++ toString binding.code.toNat ++ ": " ++
    ", ".intercalate (binding.actions.map Action.text))

/-- What `build` reports: each key before the first refused one. -/
def buildMessages (draft : Draft) : List Message :=
  (draft.keys.map DraftKey.finish?).takeWhile Option.isSome |>.filterMap fun binding =>
    binding.map bindingMessage

end Draft

end Keyhold
