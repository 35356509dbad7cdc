import Keyhold.Proofs.Config.Bound

/-!
# Accepted settings

Which settings make bindings, and what they bind. `bindings_iff_wellFormed` says that the settings
of a file are accepted exactly when they are well formed, although the checks are spread over the
conversion of the file, the steps of a draft and its end. What is bound to a code depends on the
actions that the settings give for it and on their order only, so a key may be split into several
ones that write its code in other ways and stand elsewhere in the file.
-/

namespace Keyhold

/-- A list is turned into results exactly when each of its members has one. -/
theorem exists_mapM_ok_iff {ε α β : Type} {read : α → Except ε β} {list : List α} :
    (∃ results, list.mapM read = .ok results) ↔
      ∀ entry ∈ list, ∃ result, read entry = .ok result := by
  constructor
  · rintro ⟨results, given⟩ entry member
    obtain ⟨position, inside, rfl⟩ := List.mem_iff_getElem.mp member
    have each := forall₂_of_mapM given
    have same := each.length_eq
    exact ⟨_, each.get inside (same ▸ inside)⟩
  · intro each
    induction list with
    | nil => exact ⟨[], rfl⟩
    | cons first rest ih =>
      obtain ⟨⟨result, own⟩, others⟩ := List.forall_mem_cons.mp each
      obtain ⟨results, further⟩ := ih others
      refine ⟨result :: results, ?_⟩
      rw [List.mapM_cons]
      exact bind_eq_ok.mpr ⟨result, own, bind_eq_ok.mpr ⟨results, further, rfl⟩⟩

/-- A text names a kind exactly when it is its name in lower case. -/
theorem PressKind.ofText?_eq_some_iff {text : String} {kind : PressKind} :
    ofText? text = some kind ↔ text.toList.map Char.toLower = kind.text.toList := by
  have lower : text.toList.map Char.toLower =
      (String.ofList (text.toList.map Char.toLower)).toList := String.toList_ofList.symm
  rw [lower, String.toList_inj, ofText?]
  split
  · rename_i short
    rw [short]
    cases kind <;> decide
  · rename_i long
    rw [long]
    cases kind <;> decide
  · rename_i short long
    cases kind with
    | short => simpa [PressKind.text] using short
    | long => simpa [PressKind.text] using long

namespace Config

/-! ## Well-formed settings -/

/-- Whether a key is written as one: a number in the range of codes, or the text of a key. -/
def KeyReference.Denotes : KeyReference → Prop
  | .number code => 0 ≤ code ∧ code ≤ 65535
  | .name text => ∃ key, Key.ofText text = .ok key

/-- Whether an action is of a kind: it says so up to the case of ASCII letters. -/
def ActionSetting.Names (setting : ActionSetting) (kind : PressKind) : Prop :=
  setting.kind.toList.map Char.toLower = kind.text.toList

instance (setting : ActionSetting) (kind : PressKind) : Decidable (setting.Names kind) :=
  inferInstanceAs (Decidable (_ = _))

/-- The code of a key, however it is written. -/
def KeySetting.code? (setting : KeySetting) : Option UInt16 :=
  setting.key.key.toOption.map Key.code

namespace Settings

/-- The actions that the settings give for a code, in the order of the file. -/
def actionsOf (settings : Settings) (code : UInt16) : List ActionSetting :=
  (settings.keys.filter (·.code? == some code)).flatMap KeySetting.actions

/-- Whether settings are well formed: every key has actions and is written as a key, every action
is of a kind and has a command, and no code has two short actions. -/
structure WellFormed (settings : Settings) : Prop where
  active : ∀ setting ∈ settings.keys, setting.actions ≠ []
  denoted : ∀ setting ∈ settings.keys, setting.key.Denotes
  named : ∀ setting ∈ settings.keys, ∀ action ∈ setting.actions, ∃ kind, action.Names kind
  worded : ∀ setting ∈ settings.keys, ∀ action ∈ setting.actions, action.command ≠ ""
  single : ∀ code, (settings.actionsOf code).countP (fun action => action.Names .short) ≤ 1

/-- The bindings that the settings make. -/
def bindings (settings : Settings) : Except ConfigError Bindings :=
  settings.config.bind Config.bindings

end Settings

/-! ## Actions -/

variable {setting : ActionSetting} {action : Action}

/-- An action is understood exactly when it is of a kind. -/
theorem ActionSetting.exists_action_iff :
    (∃ action, setting.action = .ok action) ↔ ∃ kind, setting.Names kind := by
  rw [ActionSetting.action]
  simp only [Names, ← PressKind.ofText?_eq_some_iff]
  cases PressKind.ofText? setting.kind with
  | none => simp
  | some kind => simp

/-- An action that is understood is of the kind that it names and has its command. -/
theorem ActionSetting.parts_of_action (meant : setting.action = .ok action) :
    (∀ kind, setting.Names kind ↔ action.kind = kind) ∧ setting.command = action.command := by
  rw [ActionSetting.action] at meant
  split at meant
  · rename_i kind named
    cases meant
    refine ⟨fun other => ?_, rfl⟩
    rw [Names, ← PressKind.ofText?_eq_some_iff, named, Option.some.injEq]
  · contradiction

/-- Actions that are understood have commands when their settings do. -/
theorem forall_worded_iff {given : List ActionSetting} {meant : List Action}
    (understood : List.Forall₂ (fun setting action => setting.action = .ok action) given meant) :
    (∀ action ∈ meant, action.command ≠ "") ↔ ∀ setting ∈ given, setting.command ≠ "" := by
  induction understood with
  | nil => simp
  | cons own _ ih =>
    rw [List.forall_mem_cons, List.forall_mem_cons, ih,
      (ActionSetting.parts_of_action own).2]

/-- Of actions that are understood, those are short that are named so. -/
theorem countP_short {given : List ActionSetting} {meant : List Action}
    (understood : List.Forall₂ (fun setting action => setting.action = .ok action) given meant) :
    meant.countP (·.kind == .short) = given.countP (fun setting => setting.Names .short) := by
  induction understood with
  | nil => rfl
  | cons own _ ih =>
    have same := (ActionSetting.parts_of_action own).1 .short
    rw [List.countP_cons, List.countP_cons, ih]
    simp [same]

/-! ## Keys -/

variable {key : KeySetting} {entry : Key × List Action}

/-- A key is understood exactly when it is written as one. -/
theorem KeyReference.exists_key_iff {reference : KeyReference} :
    (∃ key, reference.key = .ok key) ↔ reference.Denotes := by
  cases reference with
  | name text => exact Iff.rfl
  | number code =>
    have range : 0 ≤ code ∧ code < 65536 ↔ 0 ≤ code ∧ code ≤ 65535 := by omega
    rw [KeyReference.key, Denotes, ← range]
    by_cases inside : 0 ≤ code ∧ code < 65536
    · rw [if_pos inside]
      simp [inside]
    · rw [if_neg inside]
      simp [inside]

/-- A key that is understood has a code, and only such a key has one. -/
theorem KeySetting.exists_code_iff : (∃ code, key.code? = some code) ↔ key.key.Denotes := by
  rw [← KeyReference.exists_key_iff, code?]
  cases key.key.key with
  | ok key => simp [Except.toOption]
  | error cause => simp [Except.toOption]

/-- The name that is given to a key does not matter to whether it is understood, nor to its
code. -/
theorem KeySetting.exists_namedKey_iff {code : UInt16} :
    (∃ named, key.namedKey = .ok named ∧ named.code = code) ↔ key.code? = some code := by
  rw [namedKey, code?]
  cases key.key.key with
  | ok key => simp [Except.toOption]
  | error cause => simp [Except.toOption]

/-- A key is understood with its actions when it is one, each action is understood and there is
one. -/
theorem KeySetting.keyActions_eq_ok_iff : key.keyActions = .ok entry ↔
    key.namedKey = .ok entry.1 ∧ key.actions.mapM ActionSetting.action = .ok entry.2 ∧
      key.actions ≠ [] := by
  have filled : ∀ actions, key.actions.mapM ActionSetting.action = .ok actions →
      (actions.isEmpty = true ↔ key.actions = []) := by
    intro actions read
    rw [List.isEmpty_iff, ← List.length_eq_zero_iff, ← List.length_eq_zero_iff,
      (forall₂_of_mapM read).length_eq]
  rw [keyActions]
  constructor
  · intro given
    obtain ⟨named, known, given⟩ := bind_eq_ok.mp given
    obtain ⟨actions, read, given⟩ := bind_eq_ok.mp given
    split at given
    · contradiction
    · rename_i some
      cases given
      exact ⟨known, read, mt (filled actions read).mpr some⟩
  · rintro ⟨known, read, some⟩
    refine bind_eq_ok.mpr ⟨_, known, bind_eq_ok.mpr ⟨_, read, ?_⟩⟩
    rw [if_neg (mt (filled entry.2 read).mp some)]

/-- A key is understood with its actions when it is written as a key, has actions, and each of
them is of a kind. -/
theorem KeySetting.exists_keyActions_iff : (∃ entry, key.keyActions = .ok entry) ↔
    key.key.Denotes ∧ (∀ action ∈ key.actions, ∃ kind, action.Names kind) ∧ key.actions ≠ [] := by
  simp only [← exists_code_iff, ← exists_namedKey_iff, ← ActionSetting.exists_action_iff,
    ← exists_mapM_ok_iff, keyActions_eq_ok_iff]
  constructor
  · rintro ⟨entry, known, read, some⟩
    exact ⟨⟨_, entry.1, known, rfl⟩, ⟨entry.2, read⟩, some⟩
  · rintro ⟨⟨_, named, known, _⟩, ⟨actions, read⟩, some⟩
    exact ⟨(named, actions), known, read, some⟩

/-- A key that is understood with its actions has its code, and its actions are understood. -/
theorem KeySetting.understood_of_keyActions (given : key.keyActions = .ok entry) :
    key.code? = some entry.1.code ∧
      List.Forall₂ (fun setting action => setting.action = .ok action) key.actions entry.2 := by
  obtain ⟨known, read, _⟩ := keyActions_eq_ok_iff.mp given
  exact ⟨exists_namedKey_iff.mp ⟨_, known, rfl⟩, forall₂_of_mapM read⟩

/-! ## Settings -/

namespace Settings

variable {settings other : Settings} {config : Config}

/-- The actions of a key are all under its code. -/
theorem underCode_key (code own : UInt16) (actions : List Action) :
    Action.underCode code (actions.map fun action => (own, action)) =
      if own = code then actions else [] := by
  rw [Action.underCode, List.filter_map, List.map_map]
  by_cases same : own = code
  · rw [if_pos same, List.filter_eq_self.mpr (by simpa using fun _ _ => same)]
    exact List.map_id actions
  · rw [if_neg same, List.filter_eq_nil_iff.mpr (by simpa using fun _ _ => same)]
    rfl

/-- Keys that are understood give a code the actions that their settings give it: a key of another
code adds nothing on either side. -/
theorem understood_of_keys {given : List KeySetting} {keys : List (Key × List Action)}
    (understood : List.Forall₂ (fun key entry => key.keyActions = .ok entry) given keys)
    (code : UInt16) :
    List.Forall₂ (fun setting action => setting.action = .ok action)
      ((given.filter (·.code? == some code)).flatMap KeySetting.actions)
      (Action.underCode code
        (keys.flatMap fun entry => entry.2.map fun action => (entry.1.code, action))) := by
  induction understood with
  | nil => exact .nil
  | @cons key entry _ others own _ ih =>
    obtain ⟨coded, actions⟩ := KeySetting.understood_of_keyActions own
    have first := underCode_key code entry.1.code entry.2
    rw [Action.underCode] at first ih ⊢
    rw [List.flatMap_cons, List.filter_append, List.map_append, first]
    by_cases same : entry.1.code = code
    · rw [List.filter_cons_of_pos (by simpa [coded] using same), List.flatMap_cons, if_pos same]
      exact List.rel_append actions ih
    · rw [List.filter_cons_of_neg (by simpa [coded] using same), if_neg same]
      exact ih

/-- The keys of a configuration are those of its settings. -/
theorem keys_of_config (converted : settings.config = .ok config) :
    settings.keys.mapM KeySetting.keyActions = .ok config.keys := by
  rw [Settings.config] at converted
  obtain ⟨keys, read, converted⟩ := bind_eq_ok.mp converted
  cases converted
  exact read

/-- Settings are understood exactly when each of their keys is with its actions. -/
theorem exists_config_iff : (∃ config, settings.config = .ok config) ↔
    ∀ key ∈ settings.keys, ∃ entry, key.keyActions = .ok entry := by
  rw [← exists_mapM_ok_iff]
  constructor
  · rintro ⟨config, converted⟩
    exact ⟨config.keys, keys_of_config converted⟩
  · rintro ⟨keys, read⟩
    refine ⟨⟨settings.debounce, settings.inputs, settings.waited, keys⟩, ?_⟩
    rw [Settings.config]
    exact bind_eq_ok.mpr ⟨keys, read, rfl⟩

/-- Settings that are understood give a code the actions that their configuration gives it. -/
theorem understood_of_config (converted : settings.config = .ok config) (code : UInt16) :
    List.Forall₂ (fun setting action => setting.action = .ok action) (settings.actionsOf code)
      (Action.underCode code config.actions) :=
  understood_of_keys (forall₂_of_mapM (keys_of_config converted)) code

/-- The actions of keys that are written as keys are given for some code. -/
theorem forall_actionsOf_iff {holds : ActionSetting → Prop}
    (denoted : ∀ key ∈ settings.keys, key.key.Denotes) :
    (∀ code, ∀ action ∈ settings.actionsOf code, holds action) ↔
      ∀ key ∈ settings.keys, ∀ action ∈ key.actions, holds action := by
  constructor
  · intro each key member action inside
    obtain ⟨code, coded⟩ := KeySetting.exists_code_iff.mpr (denoted key member)
    refine each code action (List.mem_flatMap.mpr ⟨key, ?_, inside⟩)
    exact List.mem_filter.mpr ⟨member, by simp [coded]⟩
  · intro each code action given
    obtain ⟨key, own, inside⟩ := List.mem_flatMap.mp given
    exact each key (List.mem_filter.mp own).1 action inside

/-- Settings that are understood make bindings exactly when, for every code, none of its actions
lacks a command and at most one is short. -/
theorem exists_bindings_of_config (converted : settings.config = .ok config) :
    (∃ bindings, config.bindings = .ok bindings) ↔
      ∀ code, (∀ setting ∈ settings.actionsOf code, setting.command ≠ "") ∧
        (settings.actionsOf code).countP (fun setting => setting.Names .short) ≤ 1 := by
  rw [exists_bindings_iff]
  refine forall_congr' fun code => ?_
  have given := understood_of_config converted code
  rw [forall_worded_iff given, countP_short given]

/-- Settings make bindings exactly when they are well formed. -/
theorem accepted_iff : (∃ bindings, settings.bindings = .ok bindings) ↔ settings.WellFormed := by
  have understood : (∃ config, settings.config = .ok config) ↔
      ∀ key ∈ settings.keys, key.key.Denotes ∧
        (∀ action ∈ key.actions, ∃ kind, action.Names kind) ∧ key.actions ≠ [] := by
    simp only [exists_config_iff, KeySetting.exists_keyActions_iff]
  constructor
  · rintro ⟨bindings, made⟩
    obtain ⟨config, converted, made⟩ := bind_eq_ok.mp made
    have each := understood.mp ⟨config, converted⟩
    have codes := (exists_bindings_of_config converted).mp ⟨bindings, made⟩
    have denoted := fun key member => (each key member).1
    exact {
      active := fun key member => (each key member).2.2
      denoted := denoted
      named := fun key member => (each key member).2.1
      worded := (forall_actionsOf_iff denoted).mp fun code => (codes code).1
      single := fun code => (codes code).2 }
  · intro wellFormed
    obtain ⟨config, converted⟩ := understood.mpr fun key member =>
      ⟨wellFormed.denoted key member, wellFormed.named key member, wellFormed.active key member⟩
    have worded := (forall_actionsOf_iff wellFormed.denoted).mpr wellFormed.worded
    obtain ⟨bindings, made⟩ := (exists_bindings_of_config converted).mpr fun code =>
      ⟨worded code, wellFormed.single code⟩
    exact ⟨bindings, bind_eq_ok.mpr ⟨config, converted, made⟩⟩

/-- What settings bind to a code depends on the actions that they give for it only. -/
theorem actions_eq_of_actionsOf {bindings otherBindings : Bindings} {code : UInt16}
    (made : settings.bindings = .ok bindings) (otherMade : other.bindings = .ok otherBindings)
    (same : other.actionsOf code = settings.actionsOf code) :
    (otherBindings.get? code).map Binding.actions = (bindings.get? code).map Binding.actions := by
  obtain ⟨config, converted, made⟩ := bind_eq_ok.mp made
  obtain ⟨otherConfig, otherConverted, otherMade⟩ := bind_eq_ok.mp otherMade
  have given := understood_of_config converted code
  have otherGiven := understood_of_config otherConverted code
  rw [same] at otherGiven
  have unique : Relator.RightUnique fun (setting : ActionSetting) (action : Action) =>
      setting.action = .ok action := by
    intro setting first second one two
    exact Except.ok.inj (one.symm.trans two)
  have equal : Action.underCode code otherConfig.actions = Action.underCode code config.actions :=
    List.right_unique_forall₂' unique otherGiven given
  rw [actions_of_bindings made, actions_of_bindings otherMade, equal]

/-! ## Splitting a key -/

/-- Whether settings have several keys in the place of one: keys of the same code with a part of
its actions each. They may stand anywhere as long as the actions of the code keep their order. -/
structure Splits (settings : Settings) (whole : KeySetting) (pieces : List KeySetting)
    (other : Settings) : Prop where
  several : pieces ≠ []
  sameCode : ∀ piece ∈ pieces, piece.code? = whole.code?
  active : ∀ piece ∈ pieces, piece.actions ≠ []
  together : pieces.flatMap KeySetting.actions = whole.actions
  placed : ∃ before after, settings.keys = before ++ whole :: after ∧
    other.keys.Perm (pieces ++ (before ++ after)) ∧ (before ++ after).Sublist other.keys
  ordered : ∀ code, whole.code? = some code → other.actionsOf code = settings.actionsOf code

variable {whole : KeySetting} {pieces : List KeySetting}

/-- Splitting a key leaves the actions of every code and their order alone: the keys of any other
code are as many as before, and those that are left keep their order. -/
theorem Splits.actionsOf_eq (splits : settings.Splits whole pieces other) (code : UInt16) :
    other.actionsOf code = settings.actionsOf code := by
  by_cases own : whole.code? = some code
  · exact splits.ordered code own
  · obtain ⟨before, after, keys, placed, kept⟩ := splits.placed
    have unlike : ¬ (whole.code? == some code) = true := by simpa using own
    have noPiece : pieces.filter (·.code? == some code) = [] := by
      refine List.filter_eq_nil_iff.mpr fun piece member => ?_
      rw [splits.sameCode piece member]
      exact unlike
    have lengths := (placed.filter (·.code? == some code)).length_eq
    rw [List.filter_append, noPiece, List.nil_append] at lengths
    have others := (kept.filter (·.code? == some code)).eq_of_length lengths.symm
    have passed : (whole :: after).filter (·.code? == some code) =
        after.filter (·.code? == some code) := List.filter_cons_of_neg unlike
    rw [actionsOf, actionsOf, keys, ← others, List.filter_append, List.filter_append, passed]

/-- What holds of all pieces exactly when it holds of the whole key holds of all keys exactly when
it did before the key was split. -/
theorem Splits.forall_keys_iff (splits : settings.Splits whole pieces other)
    {holds : KeySetting → Prop} (same : (∀ piece ∈ pieces, holds piece) ↔ holds whole) :
    (∀ key ∈ other.keys, holds key) ↔ ∀ key ∈ settings.keys, holds key := by
  obtain ⟨before, after, keys, placed, _⟩ := splits.placed
  have members : ∀ key, key ∈ other.keys ↔ key ∈ pieces ∨ key ∈ before ∨ key ∈ after := by
    intro key
    rw [placed.mem_iff, List.mem_append, List.mem_append]
  rw [keys]
  simp only [members, List.forall_mem_append, List.forall_mem_cons, or_imp, forall_and, same]
  tauto

/-- What holds of all actions holds of them once a key is split. -/
theorem Splits.forall_actions_iff (splits : settings.Splits whole pieces other)
    {holds : ActionSetting → Prop} :
    (∀ key ∈ other.keys, ∀ action ∈ key.actions, holds action) ↔
      ∀ key ∈ settings.keys, ∀ action ∈ key.actions, holds action := by
  refine splits.forall_keys_iff ?_
  rw [← splits.together, List.forall_mem_flatMap]

/-- Splitting a key changes nothing about whether settings are well formed. -/
theorem Splits.wellFormed_iff (splits : settings.Splits whole pieces other) :
    other.WellFormed ↔ settings.WellFormed := by
  obtain ⟨piece, inside⟩ := List.exists_mem_of_ne_nil _ splits.several
  have active : (∀ key ∈ other.keys, key.actions ≠ []) ↔
      ∀ key ∈ settings.keys, key.actions ≠ [] := by
    refine splits.forall_keys_iff ⟨fun _ none => ?_, fun _ => splits.active⟩
    rw [← splits.together, List.flatMap_eq_nil_iff] at none
    exact splits.active piece inside (none piece inside)
  have denoted : (∀ key ∈ other.keys, key.key.Denotes) ↔
      ∀ key ∈ settings.keys, key.key.Denotes := by
    refine splits.forall_keys_iff ?_
    simp only [← KeySetting.exists_code_iff]
    constructor
    · intro pieces
      rw [← splits.sameCode piece inside]
      exact pieces piece inside
    · intro whole piece member
      rw [splits.sameCode piece member]
      exact whole
  constructor
  · intro wellFormed
    exact {
      active := active.mp wellFormed.active
      denoted := denoted.mp wellFormed.denoted
      named := splits.forall_actions_iff.mp wellFormed.named
      worded := splits.forall_actions_iff.mp wellFormed.worded
      single := fun code => splits.actionsOf_eq code ▸ wellFormed.single code }
  · intro wellFormed
    exact {
      active := active.mpr wellFormed.active
      denoted := denoted.mpr wellFormed.denoted
      named := splits.forall_actions_iff.mpr wellFormed.named
      worded := splits.forall_actions_iff.mpr wellFormed.worded
      single := fun code => (splits.actionsOf_eq code).symm ▸ wellFormed.single code }

/-- Settings make bindings exactly when they are well formed. Having several keys of the same code
in the place of one, wherever they stand, changes neither this nor what is bound to any code, as
long as the actions of the code keep their order. -/
theorem bindings_iff_wellFormed (settings : Settings) :
    ((∃ bindings, settings.bindings = .ok bindings) ↔ settings.WellFormed) ∧
    ∀ whole pieces other, settings.Splits whole pieces other →
      ((∃ bindings, other.bindings = .ok bindings) ↔
        ∃ bindings, settings.bindings = .ok bindings) ∧
      ∀ bindings otherBindings, settings.bindings = .ok bindings →
        other.bindings = .ok otherBindings → ∀ code,
        (otherBindings.get? code).map Binding.actions =
          (bindings.get? code).map Binding.actions := by
  refine ⟨accepted_iff, fun whole pieces other splits => ⟨?_, ?_⟩⟩
  · rw [accepted_iff, accepted_iff]
    exact splits.wellFormed_iff
  · intro bindings otherBindings made otherMade code
    exact actions_eq_of_actionsOf made otherMade (splits.actionsOf_eq code)

/-- A key with three actions before another one. -/
def jointSettings : Settings :=
  ⟨none, [], [],
    [⟨.number 116, none, [⟨"long", some 4000, "B", true⟩, ⟨"Short", none, "A", false⟩,
        ⟨"LONG", none, "C", false⟩]⟩,
      ⟨.name "volumeup", none, [⟨"short", none, "D", false⟩]⟩]⟩

/-- The same actions with each of the first key's in a key of its own, which write the code in
other ways and stand around the other key. -/
def apartSettings : Settings :=
  ⟨none, [], [],
    [⟨.name "0x74", none, [⟨"long", some 4000, "B", true⟩]⟩,
      ⟨.name "power", none, [⟨"Short", none, "A", false⟩]⟩,
      ⟨.name "volumeup", none, [⟨"short", none, "D", false⟩]⟩,
      ⟨.name " KEY_POWER ", some "off", [⟨"LONG", none, "C", false⟩]⟩]⟩

/-- What the settings bind. -/
def jointBindings : Bindings :=
  [⟨116, none, [⟨.short, 1000, "A", false⟩, ⟨.long, 4000, "B", true⟩, ⟨.long, 5000, "C", false⟩]⟩,
    ⟨115, some "volumeup", [⟨.short, 1000, "D", false⟩]⟩]

/-- The settings with one key in the place of several are well formed, and those with several keys
bind the same actions. -/
theorem bindings_of_apartSettings :
    jointSettings.WellFormed ∧ jointSettings.bindings = .ok jointBindings ∧
    ∃ otherBindings, apartSettings.bindings = .ok otherBindings ∧
      ∀ code, (otherBindings.get? code).map Binding.actions =
        (jointBindings.get? code).map Binding.actions := by
  have order : Action.arrange
      [⟨.long, 4000, "B", true⟩, ⟨.short, 1000, "A", false⟩, ⟨.long, 5000, "C", false⟩] =
      [⟨.short, 1000, "A", false⟩, ⟨.long, 4000, "B", true⟩, ⟨.long, 5000, "C", false⟩] := by
    simp [Action.arrange, List.mergeSort, List.cons_merge_cons, Action.precedes]
  have alone : ∀ action, Action.arrange [action] = [action] := List.mergeSort_singleton
  have made : jointSettings.bindings = .ok jointBindings := by
    rw [jointBindings, ← order, ← alone ⟨.short, 1000, "D", false⟩]
    rfl
  have splits : jointSettings.Splits
      ⟨.number 116, none, [⟨"long", some 4000, "B", true⟩, ⟨"Short", none, "A", false⟩,
        ⟨"LONG", none, "C", false⟩]⟩
      [⟨.name "0x74", none, [⟨"long", some 4000, "B", true⟩]⟩,
        ⟨.name "power", none, [⟨"Short", none, "A", false⟩]⟩,
        ⟨.name " KEY_POWER ", some "off", [⟨"LONG", none, "C", false⟩]⟩]
      apartSettings := by
    refine ⟨by decide, by decide +kernel, by decide, rfl, ?_, ?_⟩
    · exact ⟨[], [⟨.name "volumeup", none, [⟨"short", none, "D", false⟩]⟩], rfl, by decide,
        by decide⟩
    · intro code own
      obtain rfl : 116 = code := Option.some.inj own
      decide +kernel
  obtain ⟨accepted, split⟩ := bindings_iff_wellFormed jointSettings
  obtain ⟨otherAccepted, same⟩ := split _ _ _ splits
  obtain ⟨otherBindings, otherMade⟩ := otherAccepted.mpr ⟨_, made⟩
  exact ⟨accepted.mp ⟨_, made⟩, made, otherBindings, otherMade,
    same _ _ made otherMade⟩

end Settings

end Config

end Keyhold
