import Keyhold.Proofs.Application.Options
import Keyhold.Proofs.Bindings.Result

/-!
# What a configuration binds

A configuration adds its actions one by one, and each of them is a group of steps of its own. So
whether it makes bindings, and what it binds to a code, can be read off the actions that it gives
for the code, whatever stands between them: `exists_bindings_iff` and `actions_of_bindings`.
-/

namespace Keyhold

namespace StepGroup

/-- The group whose steps configure a whole action. -/
def whole (key : Key) (action : Action) : StepGroup :=
  ⟨action.kind, key, [.time action.trigger, .command action.command action.exits]⟩

variable {key : Key} {action : Action}

/-- The group of an action is complete when the action has a command. -/
theorem complete_whole_iff : (whole key action).Complete ↔ action.command ≠ "" := by
  constructor
  · intro complete
    exact complete.worded action.command action.exits (by simp [whole])
  · intro worded
    refine ⟨⟨action.command, action.exits, by simp [whole]⟩, ?_⟩
    intro text exits member
    obtain ⟨rfl, rfl⟩ : text = action.command ∧ exits = action.exits := by
      simpa [whole] using member
    exact worded

end StepGroup

namespace Config

open StepGroup

variable {config : Config} {bindings : Bindings} {code : UInt16}

/-- The actions of a configuration with their keys, in its order. -/
def entries (config : Config) : List (Key × Action) :=
  config.keys.flatMap fun entry => entry.2.map (entry.1, ·)

/-- The groups of steps of a configuration: one for each action. -/
def groups (config : Config) : List StepGroup :=
  config.entries.map fun entry => whole entry.1 entry.2

/-- The steps of a configuration are those of its groups. -/
theorem steps_eq_flatMap (config : Config) :
    config.steps = config.groups.flatMap StepGroup.steps := by
  rw [groups, entries, List.flatMap_map, List.flatMap_assoc, steps]
  congr 1
  funext entry
  rw [List.flatMap_map]
  rfl

/-- The actions of a configuration with the codes of their keys. -/
theorem actions_eq_map (config : Config) :
    config.actions = config.entries.map fun entry => (entry.1.code, entry.2) := by
  rw [entries, List.map_flatMap, actions]
  congr 1
  funext entry
  rw [List.map_map]
  rfl

/-- The actions of a configuration as they are opened. -/
theorem opened_eq_map (config : Config) :
    config.opened = config.entries.map fun entry => ⟨entry.1, .whole entry.2⟩ := by
  rw [entries, List.map_flatMap, opened]
  congr 1
  funext entry
  rw [List.map_map]
  rfl

/-- The actions that a configuration gives for a code are those of keys with the code. -/
theorem mem_underCode_iff {action : Action} : action ∈ Action.underCode code config.actions ↔
    ∃ key : Key, (key, action) ∈ config.entries ∧ key.code = code := by
  rw [Action.underCode, actions_eq_map]
  constructor
  · intro member
    obtain ⟨_, own, rfl⟩ := List.mem_map.mp member
    obtain ⟨inside, same⟩ := List.mem_filter.mp own
    obtain ⟨entry, given, rfl⟩ := List.mem_map.mp inside
    exact ⟨entry.1, given, by simpa using same⟩
  · rintro ⟨key, given, rfl⟩
    have own : (key.code, action) ∈ (config.entries.map fun entry => (entry.1.code, entry.2)) :=
      List.mem_map.mpr ⟨_, given, rfl⟩
    exact List.mem_map.mpr ⟨_, List.mem_filter.mpr ⟨own, by simp⟩, rfl⟩

/-- A code is opened for a short press as often as the configuration gives it a short action. -/
theorem count_shortCodes (config : Config) (code : UInt16) :
    (shortCodes config.groups).count code =
      (Action.underCode code config.actions).countP (·.kind == .short) := by
  rw [shortCodes, Action.underCode, actions_eq_map, groups, List.count_eq_countP]
  simp only [List.countP_map, List.countP_filter]
  refine List.countP_congr fun entry _ => ?_
  exact Iff.of_eq (congrArg (· = true) (Bool.and_comm _ _))

/-- The groups of a configuration are complete when none of its actions lacks a command. -/
theorem forall_complete_iff : (∀ group ∈ config.groups, group.Complete) ↔
    ∀ code, ∀ action ∈ Action.underCode code config.actions, action.command ≠ "" := by
  constructor
  · intro complete code action member
    obtain ⟨key, given, _⟩ := mem_underCode_iff.mp member
    exact complete_whole_iff.mp (complete _ (List.mem_map.mpr ⟨_, given, rfl⟩))
  · intro worded group member
    obtain ⟨entry, given, rfl⟩ := List.mem_map.mp member
    exact complete_whole_iff.mpr (worded _ _ (mem_underCode_iff.mpr ⟨_, given, rfl⟩))

/-- The bindings of a configuration are those of the plan that its steps make. -/
theorem bindings_eq_build (config : Config) :
    config.bindings =
      (Plan.advanceAll [] config.steps).bind fun plan => plan.draft.build := by
  rw [bindings_eq, Plan.bindings?_eq]
  rfl

/-- A configuration makes bindings exactly when, for every code, none of its actions lacks a
command and at most one is short. -/
theorem exists_bindings_iff (config : Config) :
    (∃ bindings, config.bindings = .ok bindings) ↔
      ∀ code, (∀ action ∈ Action.underCode code config.actions, action.command ≠ "") ∧
        (Action.underCode code config.actions).countP (·.kind == .short) ≤ 1 := by
  simp only [forall_and, ← forall_complete_iff, ← count_shortCodes, ← List.nodup_iff_count_le_one]
  constructor
  · rintro ⟨bindings, made⟩
    rw [bindings_eq_build] at made
    obtain ⟨plan, advanced, built⟩ := bind_eq_ok.mp made
    obtain ⟨_, complete, single⟩ := Plan.groups_of_build advanced built
    have own : ofSteps config.steps = config.groups := by
      rw [steps_eq_flatMap, ofSteps, split_flatMap]
    rw [own] at complete single
    exact ⟨complete, single⟩
  · rintro ⟨complete, single⟩
    have advanced : Plan.advanceAll [] config.steps = .ok (config.groups.map StepGroup.opened) := by
      rw [steps_eq_flatMap]
      exact Plan.advanceAll_groups [] complete single
    have finished : ∀ entry ∈ config.groups.map StepGroup.opened,
        ∃ finished, entry.action.finish? = some finished := by
      intro entry member
      obtain ⟨group, inside, rfl⟩ := List.mem_map.mp member
      rw [finish?_opened]
      exact exists_action?_iff.mpr (complete group inside).commanded
    obtain ⟨bindings, built⟩ := Plan.exists_build_iff.mpr finished
    refine ⟨bindings, ?_⟩
    rw [bindings_eq_build, advanced]
    exact built

/-- The plan of a configuration names the codes for which it gives actions. -/
theorem mem_codes_opened_iff (config : Config) (code : UInt16) :
    code ∈ config.opened.codes ↔ Action.underCode code config.actions ≠ [] := by
  rw [Plan.mem_codes, opened_eq_map]
  constructor
  · rintro ⟨_, member, rfl⟩
    obtain ⟨entry, given, rfl⟩ := List.mem_map.mp member
    exact List.ne_nil_of_mem (mem_underCode_iff.mpr ⟨_, given, rfl⟩)
  · intro some
    obtain ⟨action, member⟩ := List.exists_mem_of_ne_nil _ some
    obtain ⟨key, given, same⟩ := mem_underCode_iff.mp member
    exact ⟨_, List.mem_map.mpr ⟨_, given, rfl⟩, same⟩

/-- What a configuration binds to a code are the actions that it gives for the code, arranged. -/
theorem actions_of_bindings (made : config.bindings = .ok bindings) (code : UInt16) :
    (bindings.get? code).map Binding.actions =
      if Action.underCode code config.actions = [] then none
      else some (Action.arrange (Action.underCode code config.actions)) := by
  rw [bindings_eq_build] at made
  obtain ⟨plan, advanced, built⟩ := bind_eq_ok.mp made
  obtain rfl := Plan.eq_of_config advanced
  have named := config.mem_codes_opened_iff code
  by_cases bound : code ∈ config.opened.codes
  · obtain ⟨actions, finished, found⟩ := Plan.binding_of_build built bound
    have given := Plan.underCode_listed finished
    rw [Plan.listed_opened] at given
    rw [if_neg (named.mp bound), found, given]
    rfl
  · rw [if_pos (not_not.mp (mt named.mpr bound)), Plan.get?_of_unnamed built bound]
    rfl

end Config

end Keyhold
