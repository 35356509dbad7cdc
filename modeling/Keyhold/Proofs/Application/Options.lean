import Keyhold.Proofs.Application.Sources
import Keyhold.Proofs.Key.Decimal
import Mathlib.Data.List.Forall2

/-!
# A file as options

What a configuration file says can be said on a command line: each action by the option of its
kind with the key, by the option of its time if the file gives one, and by the option of its
command. `bindings_eq_options` says that the result is the same, be it bindings or an error. A
code that the file gives as a number is written in decimal, and an action without time keeps the
default that it was opened with. A display name has no option, so keys with one are left out.
-/

namespace Keyhold

open Keyhold.CommandLine

/-- The results of a list belong to its members, in order. -/
theorem forall₂_of_mapM {ε α β : Type} {read : α → Except ε β} {list : List α}
    {results : List β} (given : list.mapM read = .ok results) :
    List.Forall₂ (fun entry result => read entry = .ok result) list results := by
  induction list generalizing results with
  | nil =>
    cases given
    exact .nil
  | cons first rest ih =>
    rw [List.mapM_cons] at given
    obtain ⟨result, own, given⟩ := bind_eq_ok.mp given
    obtain ⟨others, further, given⟩ := bind_eq_ok.mp given
    cases given
    exact .cons own (ih further)

namespace Config

/-- The key as it is written on a command line. -/
def KeyReference.text : KeyReference → String
  | .number code => toString code
  | .name text => text

/-- The options that configure the action for a key. -/
def ActionSetting.options (key : String) (setting : ActionSetting) : List StepText :=
  match PressKind.ofText? setting.kind with
  | some kind =>
    [.press kind key] ++ (setting.time.map StepText.time).toList ++
      [.command setting.command setting.exits]
  | none => []

/-- The options that configure what the settings say of keys. -/
def Settings.options (settings : Settings) : List StepText :=
  settings.keys.flatMap fun key => key.actions.flatMap (ActionSetting.options key.key.text)

/-- The text of a key is read as the key. -/
theorem KeyReference.ofText_text {reference : KeyReference} {key : Key}
    (known : reference.key = .ok key) : Key.ofText reference.text = .ok key := by
  cases reference with
  | name text => exact known
  | number code =>
    rw [KeyReference.key] at known
    split at known
    · rename_i range
      cases known
      have value : (UInt16.ofNat code.toNat).toNat = code.toNat :=
        UInt16.toNat_ofNat_of_lt' (by omega : code.toNat < 65536)
      have written : toString code = toString (UInt16.ofNat code.toNat).toNat := by
        rw [value]
        obtain ⟨count, rfl⟩ := Int.eq_ofNat_of_zero_le range.1
        rfl
      rw [KeyReference.text, written]
      exact Key.ofText_toString _
    · cases known

/-- A key without display name is the one that its text means, with the actions that its settings
mean. -/
theorem KeySetting.parts_of_keyActions {setting : KeySetting} {key : Key} {actions : List Action}
    (given : setting.keyActions = .ok (key, actions)) (nameless : setting.name = none) :
    setting.key.key = .ok key ∧
    List.Forall₂ (fun setting action => setting.action = .ok action) setting.actions actions := by
  rw [keyActions] at given
  obtain ⟨named, known, given⟩ := bind_eq_ok.mp given
  obtain ⟨whole, read, given⟩ := bind_eq_ok.mp given
  split at given
  · cases given
  · cases given
    refine ⟨?_, forall₂_of_mapM read⟩
    rw [namedKey, nameless] at known
    split at known
    · rename_i found
      cases known
      exact found
    · cases known

end Config

namespace Plan

variable {plan : Plan} {key : Key}

/-- Steps given as texts are taken as the steps that they mean. -/
theorem advanceTexts_eq {texts : List StepText} {steps : List Step}
    (meant : List.Forall₂ (fun text step => text.step = .ok step) texts steps) :
    plan.advanceTexts texts = plan.advanceAll steps := by
  induction meant generalizing plan with
  | nil => rfl
  | cons own _ ih =>
    rw [advanceTexts, advanceAll, own]
    simp only
    cases plan.advance _ with
    | ok next => exact ih
    | error error => rfl

/-- An action that is given the default time has it already. -/
theorem advanceAll_default (kind : PressKind) (command : Step) :
    plan.advanceAll [.press kind key, command] =
      plan.advanceAll [.press kind key, .time kind.defaultTrigger, command] := by
  rw [advanceAll, advanceAll]
  cases pressed : plan.advance (.press kind key) with
  | error error => rfl
  | ok next =>
    obtain rfl := eq_of_press pressed
    simp only
    rw [advanceAll, advanceAll, advance_time]
    rfl

/-- The options of an action do what its steps do. -/
theorem advanceTexts_action {text : String} {setting : Config.ActionSetting} {action : Action}
    (known : Key.ofText text = .ok key) (given : setting.action = .ok action) :
    plan.advanceTexts (setting.options text) = plan.advanceAll (Draft.stepsOf key action) := by
  rw [Config.ActionSetting.action] at given
  rw [Config.ActionSetting.options]
  cases named : PressKind.ofText? setting.kind with
  | none =>
    rw [named] at given
    cases given
  | some kind =>
    rw [named] at given
    cases given
    have press : (StepText.press kind text).step = .ok (.press kind key) := by
      rw [StepText.step, known]
    cases setting.time with
    | some trigger => exact advanceTexts_eq (.cons press (.cons rfl (.cons rfl .nil)))
    | none =>
      rw [Draft.stepsOf, Option.getD_none, ← advanceAll_default]
      exact advanceTexts_eq (.cons press (.cons rfl .nil))

/-- If the options of each entry do what its steps do, those of all entries do. -/
theorem advanceTexts_flatMap {α β : Type} {means : α → β → Prop} {texts : α → List StepText}
    {steps : β → List Step} {entries : List α} {results : List β}
    (given : List.Forall₂ means entries results)
    (each : ∀ entry ∈ entries, ∀ result, means entry result →
      ∀ plan : Plan, plan.advanceTexts (texts entry) = plan.advanceAll (steps result)) :
    plan.advanceTexts (entries.flatMap texts) = plan.advanceAll (results.flatMap steps) := by
  induction given generalizing plan with
  | nil => rfl
  | cons own _ ih =>
    obtain ⟨first, others⟩ := List.forall_mem_cons.mp each
    rw [List.flatMap_cons, List.flatMap_cons, advanceTexts_append, advanceAll_append,
      first _ own plan]
    exact congrArg _ (funext fun middle => ih others)

/-- The options of keys without display names do what the steps of the keys do. -/
theorem advanceTexts_keys {settings : List Config.KeySetting} {keys : List (Key × List Action)}
    (given : List.Forall₂ (fun setting entry => setting.keyActions = .ok entry) settings keys)
    (nameless : ∀ setting ∈ settings, setting.name = none) :
    plan.advanceTexts (settings.flatMap fun setting =>
        setting.actions.flatMap (Config.ActionSetting.options setting.key.text)) =
      plan.advanceAll (keys.flatMap fun entry => entry.2.flatMap (Draft.stepsOf entry.1)) := by
  refine advanceTexts_flatMap given fun setting member entry own plan => ?_
  obtain ⟨known, actions⟩ := Config.KeySetting.parts_of_keyActions own (nameless setting member)
  have text := Config.KeyReference.ofText_text known
  exact advanceTexts_flatMap actions fun _ _ _ meant _ => advanceTexts_action text meant

end Plan

namespace Config

/-- The bindings of a configuration are those that it makes without a command line. -/
theorem bindings_eq (config : Config) : config.bindings = Application.bindings? config [] := by
  rw [bindings, Application.bindings?, Application.draft]
  rcases config.apply .empty with ⟨draft, failure⟩
  cases failure with
  | none => rfl
  | some error => rfl

/-- A file whose keys have no display names makes the same bindings as the options that say the
same, or is refused for the same reason. -/
theorem bindings_eq_options {settings : Settings} {config : Config}
    (converted : settings.config = .ok config)
    (nameless : ∀ key ∈ settings.keys, key.name = none) :
    config.bindings = Application.bindings? .empty settings.options := by
  rw [Settings.config] at converted
  obtain ⟨keys, read, converted⟩ := bind_eq_ok.mp converted
  cases converted
  have steps := @Plan.advanceTexts_keys [] _ _ (forall₂_of_mapM read) nameless
  have nothing : Plan.advanceAll [] Config.empty.steps = .ok [] := rfl
  rw [bindings_eq, Plan.bindings?_eq, Plan.bindings?_eq, nothing, Settings.options]
  simp only [Except.bind, Plan.advanceTexts]
  rw [steps]
  rfl

/-- Keys given as numbers and as names, one of them twice, and an action without time. -/
def unnamedSettings : Settings :=
  ⟨none, [], [],
    [⟨.number 116, none, [⟨"long", some 2000, "poweroff", true⟩, ⟨"Short", none, "A", false⟩]⟩,
      ⟨.name "volumeup", none, [⟨"long", none, "B", false⟩]⟩,
      ⟨.name "KEY_POWER", none, [⟨"long", some 800, "C", false⟩]⟩]⟩

/-- What the settings mean. -/
def unnamedConfig : Config :=
  ⟨none, [], [],
    [(⟨116, none⟩, [⟨.long, 2000, "poweroff", true⟩, ⟨.short, 1000, "A", false⟩]),
      (⟨115, some "volumeup"⟩, [⟨.long, 5000, "B", false⟩]),
      (⟨116, some "KEY_POWER"⟩, [⟨.long, 800, "C", false⟩])]⟩

/-- The settings make bindings, and the options that say the same make them too. -/
theorem bindings_of_unnamedSettings :
    unnamedSettings.config = .ok unnamedConfig ∧
    unnamedSettings.options =
      [.press .long "116", .time 2000, .command "poweroff" true,
        .press .short "116", .command "A" false,
        .press .long "volumeup", .command "B" false,
        .press .long "KEY_POWER", .time 800, .command "C" false] ∧
    unnamedConfig.bindings =
      .ok [⟨116, some "KEY_POWER", [⟨.short, 1000, "A", false⟩, ⟨.long, 800, "C", false⟩,
        ⟨.long, 2000, "poweroff", true⟩]⟩, ⟨115, some "volumeup", [⟨.long, 5000, "B", false⟩]⟩] ∧
    unnamedConfig.bindings = Application.bindings? .empty unnamedSettings.options := by
  have converted : unnamedSettings.config = .ok unnamedConfig := by decide +kernel
  have nameless : ∀ key ∈ unnamedSettings.keys, key.name = none := by decide
  have order : Action.arrange
      [⟨.long, 2000, "poweroff", true⟩, ⟨.short, 1000, "A", false⟩, ⟨.long, 800, "C", false⟩] =
      [⟨.short, 1000, "A", false⟩, ⟨.long, 800, "C", false⟩,
        ⟨.long, 2000, "poweroff", true⟩] := by
    simp [Action.arrange, List.mergeSort, List.cons_merge_cons, Action.precedes]
  have alone : ∀ action, Action.arrange [action] = [action] := List.mergeSort_singleton
  refine ⟨converted, by decide +kernel, ?_, bindings_eq_options converted nameless⟩
  rw [← order, ← alone ⟨.long, 5000, "B", false⟩]
  rfl

end Config

end Keyhold
