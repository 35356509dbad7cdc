import Keyhold.Proofs.Bindings.Group

/-!
# The grammar of steps

Which lists of steps make bindings. `accepted_iff_groups` says that they are the concatenations of
complete groups in which no code is opened twice for a short press. What a draft refuses while the
steps are taken and what it refuses at the end come together here: a group without command stops
the next press, and the last group has no next press, so it is refused at the end.
-/

namespace Keyhold

namespace StepGroup

/-- Whether the group sets a command, and none of its commands is empty. -/
structure Complete (group : StepGroup) : Prop where
  commanded : ∃ text exits, Detail.command text exits ∈ group.details
  worded : ∀ text exits, Detail.command text exits ∈ group.details → text ≠ ""

/-- The codes for which groups open a short action, in the order of opening. -/
def shortCodes (groups : List StepGroup) : List UInt16 :=
  (groups.filter (·.kind == .short)).map StepGroup.code

variable {group : StepGroup} {groups earlier : List StepGroup} {code : UInt16}

/-- None of a group's details is an empty command exactly when each of its commands has a text. -/
theorem worded_iff : (∀ detail ∈ group.details, detail.Worded) ↔
    ∀ text exits, Detail.command text exits ∈ group.details → text ≠ "" := by
  constructor
  · intro worded text exits member
    exact worded _ member text exits rfl
  · rintro worded detail member text exits rfl
    exact worded text exits member

/-- A group means an action exactly when it sets a command. -/
theorem exists_action?_iff : (∃ action, group.action? = some action) ↔
    ∃ text exits, Detail.command text exits ∈ group.details := by
  rw [← Option.isSome_iff_exists, action?, Option.isSome_map, command?, List.getLast?_isSome]
  constructor
  · intro nonempty
    obtain ⟨command, member⟩ := List.exists_mem_of_ne_nil _ nonempty
    obtain ⟨detail, inside, set⟩ := List.mem_filterMap.mp member
    cases detail with
    | time trigger => cases set
    | command text exits => exact ⟨text, exits, inside⟩
  · rintro ⟨text, exits, member⟩
    exact List.ne_nil_of_mem (List.mem_filterMap.mpr ⟨_, member, rfl⟩)

/-- A short action was opened for a code exactly when a group of the code opens one. -/
theorem any_short_iff :
    (Plan.ofCode (earlier.map opened) code).any (·.action.kind == .short) = true ↔
      code ∈ shortCodes earlier := by
  simp only [Plan.ofCode, shortCodes, List.any_eq_true, List.mem_filter, List.mem_map]
  constructor
  · rintro ⟨_, ⟨⟨group, member, rfl⟩, own⟩, short⟩
    refine ⟨group, ⟨member, ?_⟩, by simpa [StepGroup.code] using own⟩
    rwa [kind_opened] at short
  · rintro ⟨group, ⟨member, short⟩, rfl⟩
    refine ⟨group.opened, ⟨⟨group, member, rfl⟩, by simp [StepGroup.code]⟩, ?_⟩
    rwa [kind_opened]

/-- One more group opens no code twice for a short press exactly when those before it do not and
it does not open one of theirs. -/
theorem nodup_shortCodes_iff : (shortCodes (earlier ++ [group])).Nodup ↔
    (shortCodes earlier).Nodup ∧ ¬ (group.kind = .short ∧ group.code ∈ shortCodes earlier) := by
  rw [shortCodes, List.filter_append, List.map_append, ← shortCodes]
  by_cases short : group.kind = .short
  · have own : [group].filter (·.kind == .short) = [group] := by simp [short]
    have apart : (∀ code ∈ shortCodes earlier, ∀ other ∈ [group.code], code ≠ other) ↔
        group.code ∉ shortCodes earlier := by
      simp only [List.mem_singleton, forall_eq, ne_eq]
      exact ⟨fun other member => other _ member rfl, fun fresh code member same =>
        fresh (same ▸ member)⟩
    rw [own, List.map_singleton, List.nodup_append, apart]
    simp [short]
  · have own : [group].filter (·.kind == .short) = [] := by simp [short]
    rw [own, List.map_nil, List.append_nil]
    simp [short]

end StepGroup

namespace Plan

variable {plan last : Plan} {group : StepGroup} {groups earlier : List StepGroup}

open StepGroup

/-! ## Groups on a plan -/

/-- Nothing is missing before a group when the group before it sets a command. -/
theorem unfinished?_of_complete (complete : ∀ group ∈ earlier, group.Complete) :
    unfinished? (earlier.map opened) = none := by
  rcases earlier.eq_nil_or_concat' with rfl | ⟨init, final, rfl⟩
  · rfl
  · have member : final ∈ init ++ [final] := List.mem_append_right _ (List.mem_singleton_self _)
    obtain ⟨action, means⟩ := exists_action?_iff.mpr (complete final member).commanded
    rw [unfinished?, List.map_append, List.map_singleton, List.getLast?_concat,
      Option.bind_some, action_opened]
    rw [action?] at means
    obtain ⟨command, sets, _⟩ := Option.map_eq_some_iff.mp means
    simp [sets]

/-- Groups whose steps are taken add their actions. They set no empty command, and no code is
opened twice for a short press. -/
theorem groups_of_advanceAll (earlier : List StepGroup) (single : (shortCodes earlier).Nodup)
    (advanced : advanceAll (earlier.map opened) (groups.flatMap StepGroup.steps) = .ok last) :
    last = (earlier ++ groups).map opened ∧
    (∀ group ∈ groups, ∀ detail ∈ group.details, detail.Worded) ∧
    (shortCodes (earlier ++ groups)).Nodup := by
  induction groups generalizing earlier with
  | nil =>
    cases advanced
    simpa using single
  | cons group rest ih =>
    rw [List.flatMap_cons, advanceAll_append] at advanced
    obtain ⟨middle, first, further⟩ := bind_eq_ok.mp advanced
    obtain ⟨_, fresh, worded, rfl⟩ := advanceAll_group_iff.mp first
    rw [any_short_iff] at fresh
    have added : earlier.map opened ++ [group.opened] = (earlier ++ [group]).map opened := by simp
    rw [added] at further
    obtain ⟨whole, others, distinct⟩ := ih _ (nodup_shortCodes_iff.mpr ⟨single, fresh⟩) further
    rw [List.append_assoc, List.singleton_append] at whole distinct
    exact ⟨whole, List.forall_mem_cons.mpr ⟨worded, others⟩, distinct⟩

/-- The steps of complete groups are taken if no code is opened twice for a short press. -/
theorem advanceAll_groups (earlier : List StepGroup)
    (complete : ∀ group ∈ earlier ++ groups, group.Complete)
    (single : (shortCodes (earlier ++ groups)).Nodup) :
    advanceAll (earlier.map opened) (groups.flatMap StepGroup.steps) =
      .ok ((earlier ++ groups).map opened) := by
  induction groups generalizing earlier with
  | nil => simp [advanceAll]
  | cons group rest ih =>
    have parts : earlier ++ group :: rest = (earlier ++ [group]) ++ rest := by simp
    rw [parts] at complete single ⊢
    have before := fun other member =>
      complete other (List.mem_append_left _ (List.mem_append_left _ member))
    have own := complete group (by simp)
    have distinct : (shortCodes (earlier ++ [group])).Nodup := by
      rw [shortCodes, List.filter_append, List.map_append] at single
      exact (List.nodup_append.mp single).1
    have first : advanceAll (earlier.map opened) group.steps =
        .ok ((earlier ++ [group]).map opened) := by
      refine advanceAll_group_iff.mpr ⟨unfinished?_of_complete before, ?_, ?_, by simp⟩
      · rw [any_short_iff]
        exact (nodup_shortCodes_iff.mp distinct).2
      · exact worded_iff.mpr own.worded
    rw [List.flatMap_cons, advanceAll_append, first]
    exact ih _ complete single

/-! ## Bindings of a plan -/

/-- Entries make bindings exactly when each of them can be finished. -/
theorem exists_finishAll_iff {entries : List DraftKey} :
    (∃ bindings, Draft.finishAll entries = .ok bindings) ↔
      ∀ entry ∈ entries, ∃ binding, entry.finish? = some binding := by
  induction entries with
  | nil => simp [Draft.finishAll]
  | cons entry rest ih =>
    rw [List.forall_mem_cons, ← ih]
    constructor
    · rintro ⟨bindings, finished⟩
      obtain ⟨binding, others, own, further, _⟩ := finishAll_cons finished
      exact ⟨⟨binding, own⟩, ⟨others, further⟩⟩
    · rintro ⟨⟨binding, own⟩, ⟨others, further⟩⟩
      refine ⟨binding :: others, ?_⟩
      rw [Draft.finishAll, own, further]
      rfl

/-- An entry can be finished exactly when each of its actions can. -/
theorem exists_finish?_iff {entry : DraftKey} :
    (∃ binding, entry.finish? = some binding) ↔
      ∀ action ∈ entry.actions, ∃ finished, action.finish? = some finished := by
  rw [← exists_mapM_iff]
  simp [DraftKey.finish?]

/-- A plan makes bindings exactly when each of its actions can be finished. -/
theorem exists_build_iff : (∃ bindings, plan.draft.build = .ok bindings) ↔
    ∀ opened ∈ plan, ∃ finished, opened.action.finish? = some finished := by
  rw [Draft.build, exists_finishAll_iff]
  constructor
  · intro entries opened member
    have named : opened.key.code ∈ plan.codes := mem_codes.mpr ⟨opened, member, rfl⟩
    have entry := entries _ (List.mem_map.mpr ⟨_, named, rfl⟩)
    refine exists_finish?_iff.mp entry opened.action ?_
    exact List.mem_map.mpr ⟨opened, List.mem_filter.mpr ⟨member, by simp⟩, rfl⟩
  · intro actions entry member
    obtain ⟨code, _, rfl⟩ := List.mem_map.mp member
    refine exists_finish?_iff.mpr fun action inside => ?_
    obtain ⟨opened, own, rfl⟩ := List.mem_map.mp inside
    exact actions opened (List.mem_filter.mp own).1

/-! ## Steps that make bindings -/

/-- Steps make bindings exactly when they make a plan that does. -/
theorem accepted_iff_plan {steps : List Step} {bindings : Bindings} :
    (∃ draft, Draft.empty.applyAll steps = (draft, none) ∧ draft.build = .ok bindings) ↔
      ∃ plan, advanceAll [] steps = .ok plan ∧ plan.draft.build = .ok bindings := by
  have together := applyAll_draft [] steps
  rw [show Plan.draft [] = Draft.empty from rfl] at together
  cases advanced : advanceAll [] steps with
  | ok plan =>
    rw [advanced] at together
    simp only at together
    rw [together]
    simp
  | error error =>
    rw [advanced] at together
    simp only at together
    simp [Prod.ext_iff, together]

/-- Steps that are taken begin with a press, so they are those of their groups. -/
theorem flatMap_ofSteps {steps : List Step} (advanced : advanceAll [] steps = .ok plan) :
    (ofSteps steps).flatMap StepGroup.steps = steps := by
  have parts := flatMap_split steps
  cases leading : (split steps).1 with
  | nil =>
    rw [leading] at parts
    exact parts
  | cons detail rest =>
    rw [leading] at parts
    rw [← parts, List.map_cons, List.cons_append, advanceAll_cons_iff] at advanced
    obtain ⟨next, first, _⟩ := advanced
    exact absurd first advance_detail_ne

/-- Steps that make bindings are those of complete groups that open no code twice for a short
press, and they make the plan of the actions that these groups open. -/
theorem groups_of_build {steps : List Step} {bindings : Bindings}
    (advanced : advanceAll [] steps = .ok plan) (built : plan.draft.build = .ok bindings) :
    plan = (ofSteps steps).map opened ∧ (∀ group ∈ ofSteps steps, group.Complete) ∧
    (shortCodes (ofSteps steps)).Nodup := by
  rw [← flatMap_ofSteps advanced] at advanced
  obtain ⟨rfl, worded, single⟩ := groups_of_advanceAll [] List.nodup_nil advanced
  refine ⟨rfl, fun group member => ⟨?_, worded_iff.mp (worded group member)⟩, single⟩
  have finished := exists_build_iff.mp ⟨bindings, built⟩ group.opened
    (List.mem_map.mpr ⟨group, member, rfl⟩)
  rw [finish?_opened] at finished
  exact exists_action?_iff.mp finished

/-- Steps make bindings exactly when they are those of complete groups, one after the other, that
open no code twice for a short press. -/
theorem accepted_iff_groups (steps : List Step) :
    (∃ draft bindings, Draft.empty.applyAll steps = (draft, none) ∧ draft.build = .ok bindings) ↔
      ∃ groups : List StepGroup, groups.flatMap StepGroup.steps = steps ∧
        (∀ group ∈ groups, group.Complete) ∧ (shortCodes groups).Nodup := by
  constructor
  · rintro ⟨draft, bindings, applied, built⟩
    obtain ⟨plan, advanced, built⟩ := accepted_iff_plan.mp ⟨draft, applied, built⟩
    obtain ⟨_, complete, single⟩ := groups_of_build advanced built
    exact ⟨ofSteps steps, flatMap_ofSteps advanced, complete, single⟩
  · rintro ⟨groups, rfl, complete, single⟩
    have advanced := advanceAll_groups [] complete single
    have finished : ∀ entry ∈ groups.map opened,
        ∃ finished, entry.action.finish? = some finished := by
      intro entry member
      obtain ⟨group, inside, rfl⟩ := List.mem_map.mp member
      rw [finish?_opened]
      exact exists_action?_iff.mpr (complete group inside).commanded
    obtain ⟨bindings, built⟩ := exists_build_iff.mpr finished
    obtain ⟨draft, applied, built⟩ := accepted_iff_plan.mpr ⟨_, advanced, built⟩
    exact ⟨draft, bindings, applied, built⟩

end Plan

end Keyhold
