import Keyhold.Bindings.Draft
import Keyhold.Config.Settings

/-!
# Configuration files

What a configuration file says: the debounce window, the inputs, and the keys with their
actions in the order of the file. A file that is no TOML document of the right form is refused
as a whole; after that the first key with a mistake decides. `Config.apply` adds the actions to
a draft, where they meet those from elsewhere.
-/

namespace Keyhold

/-- The content of a configuration file. -/
structure Config where
  /-- The debounce window in milliseconds. -/
  debounce : Option UInt64
  inputs : List Path
  waited : List Path
  keys : List (Key × List Action)
  deriving DecidableEq, Repr, Inhabited

namespace Config

/-- The configuration without content. -/
def empty : Config := ⟨none, [], [], []⟩

namespace KeyReference

/-- The key that is meant. -/
def key : KeyReference → Except KeyTextError Key
  | .number code =>
    if 0 ≤ code ∧ code < 65536 then .ok (Key.ofCode (UInt16.ofNat code.toNat))
    else .error (.outOfRange (toString code))
  | .name text => Key.ofText text

end KeyReference

namespace ActionSetting

/-- The action that is meant. -/
def action (setting : ActionSetting) : Except ConfigError Action :=
  match PressKind.ofText? setting.kind with
  | some kind =>
    .ok ⟨kind, setting.time.getD kind.defaultTrigger, setting.command, setting.exits⟩
  | none => .error (.invalidKind setting.kind)

end ActionSetting

namespace KeySetting

/-- The key that is meant, under the name given in the file if there is one. -/
def namedKey (setting : KeySetting) : Except ConfigError Key :=
  match setting.key.key with
  | .ok key => .ok { key with name := setting.name.or key.name }
  | .error cause => .error (.invalidKey cause)

/-- The key with its actions, of which there must be one. -/
def keyActions (setting : KeySetting) : Except ConfigError (Key × List Action) := do
  let key ← setting.namedKey
  let actions ← setting.actions.mapM ActionSetting.action
  if actions.isEmpty then .error (.missingCommand key.code) else .ok (key, actions)

end KeySetting

namespace Settings

/-- The configuration that the settings stand for. -/
def config (settings : Settings) : Except ConfigError Config := do
  let keys ← settings.keys.mapM KeySetting.keyActions
  .ok ⟨settings.debounce, settings.inputs, settings.waited, keys⟩

/-- What is reported of one key. -/
def keyMessage (key : Key) (actions : List Action) : Message :=
  .debug ("Loaded key " ++ key.text ++ " with " ++ toString actions.length ++ " action(s)")

/-- What `config` reports: each key before the first with a mistake. -/
def messages (settings : Settings) : List Message :=
  let found := settings.keys.map fun setting => setting.keyActions.toOption
  (found.takeWhile Option.isSome).filterMap fun entry =>
    entry.map fun (key, actions) => keyMessage key actions

end Settings

/-- The configuration that the text of a file stands for. -/
def ofText (text : String) : Except ConfigError Config :=
  match Settings.ofText? text with
  | some settings => settings.config
  | none => .error .malformed

/-- What `ofText` reports. -/
def textMessages (text : String) : List Message :=
  match Settings.ofText? text with
  | some settings => settings.messages
  | none => []

/-- Adds actions of one key to a draft, up to the first that is refused. -/
def addActions (key : Key) : List Action → Draft → Draft × Option ConfigError
  | [], draft => (draft, none)
  | action :: rest, draft =>
    match draft.addAction key action with
    | (next, none) => addActions key rest next
    | (next, some error) => (next, some error)

/-- Adds the actions of keys to a draft, up to the first that is refused. -/
def addKeys : List (Key × List Action) → Draft → Draft × Option ConfigError
  | [], draft => (draft, none)
  | (key, actions) :: rest, draft =>
    match addActions key actions draft with
    | (next, none) => addKeys rest next
    | (next, some error) => (next, some error)

/-- Adds all actions of the configuration to a draft. -/
def apply (config : Config) (draft : Draft) : Draft × Option ConfigError :=
  addKeys config.keys draft

/-- The bindings that the configuration makes on its own. -/
def bindings (config : Config) : Except ConfigError Bindings :=
  match config.apply .empty with
  | (draft, none) => draft.build
  | (_, some error) => .error error

/-- What `bindings` reports. -/
def bindingsMessages (config : Config) : List Message :=
  match config.apply .empty with
  | (draft, none) => draft.buildMessages
  | (_, some _) => []

/-- The path of the default configuration file below the directory for user configuration. -/
def defaultPath (home : Path) : Path := (home.below "buttond").below "config.toml"

end Config

end Keyhold
