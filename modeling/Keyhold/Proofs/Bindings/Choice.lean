import Keyhold.Proofs.Bindings.Result

/-!
# The choice among configured actions

Which action runs for a press of a given length, read off the steps that configured the key.
`StepGroup.Chosen` says it without the order in which a binding keeps its actions and without
the search through them: the last of the long groups with the greatest trigger time that the press
has reached, or, where it has reached none, the short group if the press stayed below its trigger
time. `choice_of_groups` says that the search through the binding finds this action and no other.
-/

namespace Keyhold

namespace Action

variable {given arranged : List Action} {action : Action} {elapsed : UInt64}

/-- A long action applies to the presses that have reached its trigger time. -/
theorem appliesTo_of_long (long : action.kind = .long) :
    action.appliesTo elapsed = true ↔ action.trigger ≤ elapsed := by
  rw [appliesTo, long, decide_eq_true_eq]

/-- A short action applies to the presses that stay below its trigger time. -/
theorem appliesTo_of_short (short : action.kind = .short) :
    action.appliesTo elapsed = true ↔ elapsed < action.trigger := by
  rw [appliesTo, short, decide_eq_true_eq]

/-- The chosen action is the last of the list that applies. -/
theorem choose?_eq_some_iff : choose? arranged elapsed = some action ↔
    action.appliesTo elapsed = true ∧ ∃ front back, arranged = front ++ action :: back ∧
      ∀ other ∈ back, other.appliesTo elapsed = false := by
  rw [choose?, List.find?_eq_some_iff_append]
  refine and_congr_right fun _ => ?_
  constructor
  · rintro ⟨back, front, same, unfit⟩
    refine ⟨front.reverse, back.reverse, ?_, fun other member => ?_⟩
    · rw [← List.reverse_reverse arranged, same]
      simp
    · simpa using unfit other (List.mem_reverse.mp member)
  · rintro ⟨front, back, rfl, unfit⟩
    refine ⟨back.reverse, front.reverse, by simp, fun other member => ?_⟩
    simpa using unfit other (List.mem_reverse.mp member)

/-- No action is chosen exactly when none applies. -/
theorem choose?_eq_none_iff : choose? arranged elapsed = none ↔
    ∀ action ∈ arranged, action.appliesTo elapsed = false := by
  rw [choose?, List.find?_eq_none]
  simp

/-- A long action that is chosen has the greatest trigger time that the press has reached, and it
was given last among the long ones with its trigger time: nothing arranged behind it is reached,
and what stands before it has no later trigger. -/
theorem Arranged.of_choose?_long (order : Arranged given arranged)
    (chosen : choose? arranged elapsed = some action) (long : action.kind = .long) :
    action.trigger ≤ elapsed ∧
    (∀ other ∈ given, other.kind = .long → other.trigger ≤ elapsed →
      other.trigger ≤ action.trigger) ∧
    (given.filter fun other => other.kind == .long && other.trigger == action.trigger).getLast? =
      some action := by
  obtain ⟨applies, front, back, rfl, unfit⟩ := choose?_eq_some_iff.mp chosen
  have reached := (appliesTo_of_long long).mp applies
  have behind : ∀ other ∈ back, other.kind = .long → ¬ other.trigger ≤ elapsed := by
    intro other member otherLong within
    have fits := (appliesTo_of_long otherLong).mpr within
    rw [unfit other member] at fits
    contradiction
  have before : ∀ other ∈ front, other.kind = .long → other.trigger ≤ action.trigger :=
    fun other member otherLong =>
      (List.pairwise_append.mp order.ascending).2.2 other member action List.mem_cons_self
        otherLong long
  refine ⟨reached, fun other member otherLong within => ?_, ?_⟩
  · rcases List.mem_append.mp (order.perm.mem_iff.mpr member) with inFront | inRest
    · exact before other inFront otherLong
    · rcases List.mem_cons.mp inRest with rfl | inBack
      · exact UInt64.le_refl _
      · exact absurd within (behind other inBack otherLong)
  · have rest : back.filter (fun other =>
        other.kind == .long && other.trigger == action.trigger) = [] := by
      refine List.filter_eq_nil_iff.mpr fun other member alike => ?_
      rw [Bool.and_eq_true, beq_iff_eq, beq_iff_eq] at alike
      exact behind other member alike.1 (alike.2 ▸ reached)
    rw [← order.longStable action.trigger, List.filter_append, List.filter_cons, rest]
    simp [long]

/-- A short action is chosen only when the press has reached no long one, for no long action stands
before a short one. -/
theorem Arranged.of_choose?_short (order : Arranged given arranged)
    (chosen : choose? arranged elapsed = some action) (short : action.kind = .short) :
    action ∈ given ∧ elapsed < action.trigger ∧
    ∀ other ∈ given, other.kind = .long → elapsed < other.trigger := by
  obtain ⟨applies, front, back, rfl, unfit⟩ := choose?_eq_some_iff.mp chosen
  have member : action ∈ front ++ action :: back :=
    List.mem_append_right _ List.mem_cons_self
  refine ⟨order.perm.mem_iff.mp member, (appliesTo_of_short short).mp applies, ?_⟩
  intro other inGiven long
  rcases List.mem_append.mp (order.perm.mem_iff.mpr inGiven) with inFront | inRest
  · have first := (List.pairwise_append.mp order.shortFirst).2.2 other inFront action
      List.mem_cons_self short
    rw [long] at first
    contradiction
  · rcases List.mem_cons.mp inRest with rfl | inBack
    · rw [long] at short
      contradiction
    · refine UInt64.not_le.mp fun within => ?_
      have fits := (appliesTo_of_long long).mpr within
      rw [unfit other inBack] at fits
      contradiction

end Action

namespace StepGroup

variable {groups others : List StepGroup} {group other : StepGroup} {action : Action}
  {elapsed : UInt64}

/-- Whether a group is the one to run for a press of some milliseconds. -/
inductive Chosen (groups : List StepGroup) (elapsed : UInt64) : StepGroup → Prop where
  /-- The last of the long groups with the greatest trigger time that the press has reached. -/
  | long {group : StepGroup} (long : group.kind = .long) (reached : group.trigger ≤ elapsed)
      (greatest : ∀ other ∈ groups, other.kind = .long → other.trigger ≤ elapsed →
        other.trigger ≤ group.trigger)
      (last : (groups.filter fun other =>
        other.kind == .long && other.trigger == group.trigger).getLast? = some group) :
      Chosen groups elapsed group
  /-- The short group, when the press has reached no long one and stays below its trigger time. -/
  | short {group : StepGroup} (member : group ∈ groups) (short : group.kind = .short)
      (below : elapsed < group.trigger)
      (unreached : ∀ other ∈ groups, other.kind = .long → elapsed < other.trigger) :
      Chosen groups elapsed group

/-- An action that a group means has the group's kind and trigger time. -/
theorem kind_trigger_of_action? (means : group.action? = some action) :
    action.kind = group.kind ∧ action.trigger = group.trigger := by
  obtain ⟨command, _, rfl⟩ := Option.map_eq_some_iff.mp means
  exact ⟨rfl, rfl⟩

/-- A chosen group is one of the groups. -/
theorem Chosen.mem (chosen : Chosen groups elapsed group) : group ∈ groups := by
  cases chosen with
  | long _ _ _ last => exact (List.mem_filter.mp (List.mem_of_getLast? last)).1
  | short member _ _ _ => exact member

/-- A chosen group means an action that applies to the press. -/
theorem Chosen.applies (chosen : Chosen groups elapsed group)
    (means : group.action? = some action) : action.appliesTo elapsed = true := by
  obtain ⟨kind, trigger⟩ := kind_trigger_of_action? means
  cases chosen with
  | long long reached _ _ =>
    exact (Action.appliesTo_of_long (kind.trans long)).mpr (trigger ▸ reached)
  | short _ short below _ =>
    exact (Action.appliesTo_of_short (kind.trans short)).mpr (trigger ▸ below)

/-- Where there is one short group at most, no two groups are chosen. -/
theorem Chosen.unique (single : ∀ first ∈ groups, ∀ second ∈ groups,
      first.kind = .short → second.kind = .short → first = second)
    (chosen : Chosen groups elapsed group) (also : Chosen groups elapsed other) :
    group = other := by
  have member := chosen.mem
  have otherMember := also.mem
  cases chosen with
  | long long reached greatest last =>
    cases also with
    | long otherLong otherReached otherGreatest otherLast =>
      have same : group.trigger = other.trigger :=
        UInt64.le_antisymm (otherGreatest group member long reached)
          (greatest other otherMember otherLong otherReached)
      rw [← same] at otherLast
      exact Option.some.inj (last.symm.trans otherLast)
    | short _ _ _ unreached =>
      exact absurd reached (UInt64.not_le.mpr (unreached group member long))
  | short _ short below unreached =>
    cases also with
    | long otherLong otherReached _ _ =>
      exact absurd otherReached (UInt64.not_le.mpr (unreached other otherMember otherLong))
    | short _ otherShort _ _ => exact single _ member _ otherMember short otherShort

/-- The choice sees the order only of groups with one trigger time. -/
theorem Chosen.reorder (same : ∀ trigger,
      others.filter (·.trigger == trigger) = groups.filter (·.trigger == trigger))
    (chosen : Chosen groups elapsed group) : Chosen others elapsed group := by
  have members (other : StepGroup) : other ∈ others ↔ other ∈ groups := by
    have alike : other ∈ others.filter (·.trigger == other.trigger) ↔
        other ∈ groups.filter (·.trigger == other.trigger) := by rw [same]
    simpa using alike
  cases chosen with
  | long long reached greatest last =>
    refine .long long reached
      (fun other member => greatest other ((members other).mp member)) ?_
    rw [← List.filter_filter, same, List.filter_filter]
    exact last
  | short member short below unreached =>
    exact .short ((members group).mpr member) short below
      fun other member => unreached other ((members other).mp member)

/-- Groups of one code of which no two open a short action for it. -/
theorem short_unique {code : UInt16} (single : (shortCodes groups).Nodup) :
    ∀ first ∈ ofCode code groups, ∀ second ∈ ofCode code groups,
      first.kind = .short → second.kind = .short → first = second := by
  intro first inFirst second inSecond short otherShort
  obtain ⟨member, own⟩ := List.mem_filter.mp inFirst
  obtain ⟨otherMember, otherOwn⟩ := List.mem_filter.mp inSecond
  have codes : first.code = second.code := by
    rw [beq_iff_eq] at own otherOwn
    exact own.trans otherOwn.symm
  exact List.inj_on_of_nodup_map single
    (List.mem_filter.mpr ⟨member, by simpa using short⟩)
    (List.mem_filter.mpr ⟨otherMember, by simpa using otherShort⟩) codes

/-! ## The choice among the actions of groups -/

variable {given arranged : List Action}

/-- The actions that groups mean, selected by kind and trigger time, are those of the groups so
selected. -/
theorem filter_map_action? (whole : groups.map action? = given.map some)
    (select : PressKind → UInt64 → Bool) :
    (groups.filter fun group => select group.kind group.trigger).map action? =
      (given.filter fun action => select action.kind action.trigger).map some := by
  induction groups generalizing given with
  | nil =>
    obtain rfl : given = [] := by simpa using whole.symm
    rfl
  | cons group rest ih =>
    obtain ⟨action, others, rfl, means, further⟩ := List.map_eq_cons_iff.mp whole.symm
    obtain ⟨kind, trigger⟩ := kind_trigger_of_action? means.symm
    rw [List.filter_cons, List.filter_cons, kind, trigger]
    split
    · rw [List.map_cons, List.map_cons, ih further.symm, means]
    · exact ih further.symm

/-- Every group means one of the actions. -/
theorem mem_given_of_mem (whole : groups.map action? = given.map some) (member : group ∈ groups) :
    ∃ action ∈ given, group.action? = some action := by
  have mapped := List.mem_map_of_mem (f := action?) member
  rw [whole] at mapped
  obtain ⟨action, inGiven, same⟩ := List.mem_map.mp mapped
  exact ⟨action, inGiven, same.symm⟩

/-- Every action is meant by one of the groups. -/
theorem mem_of_mem_given (whole : groups.map action? = given.map some) (member : action ∈ given) :
    ∃ group ∈ groups, group.action? = some action := by
  have mapped := List.mem_map_of_mem (f := some) member
  rw [← whole] at mapped
  exact List.mem_map.mp mapped

/-- What is true of the kinds and trigger times of the actions that groups mean is true of the
groups. -/
theorem forall_of_given (whole : groups.map action? = given.map some)
    (holds : PressKind → UInt64 → Prop)
    (each : ∀ action ∈ given, holds action.kind action.trigger) :
    ∀ group ∈ groups, holds group.kind group.trigger := by
  intro group member
  obtain ⟨action, inGiven, means⟩ := mem_given_of_mem whole member
  obtain ⟨kind, trigger⟩ := kind_trigger_of_action? means
  rw [← kind, ← trigger]
  exact each action inGiven

/-- The action that is chosen from the actions of groups is that of a chosen group. -/
theorem exists_chosen (whole : groups.map action? = given.map some)
    (order : Action.Arranged given arranged)
    (chosen : Action.choose? arranged elapsed = some action) :
    ∃ group, Chosen groups elapsed group ∧ group.action? = some action := by
  cases kind : action.kind with
  | long =>
    obtain ⟨reached, greatest, last⟩ := order.of_choose?_long chosen kind
    have selected := congrArg List.getLast? (filter_map_action? whole fun kind trigger =>
      kind == .long && trigger == action.trigger)
    rw [List.getLast?_map, List.getLast?_map, last, Option.map_some] at selected
    obtain ⟨group, final, means⟩ := Option.map_eq_some_iff.mp selected
    obtain ⟨sameKind, sameTrigger⟩ := kind_trigger_of_action? means
    rw [sameTrigger] at reached greatest final
    have bound := forall_of_given whole
      (fun kind trigger => kind = .long → trigger ≤ elapsed → trigger ≤ group.trigger) greatest
    exact ⟨group, .long (sameKind.symm.trans kind) reached bound final, means⟩
  | short =>
    obtain ⟨member, below, unreached⟩ := order.of_choose?_short chosen kind
    obtain ⟨group, inGroups, means⟩ := mem_of_mem_given whole member
    obtain ⟨sameKind, sameTrigger⟩ := kind_trigger_of_action? means
    have later := forall_of_given whole
      (fun kind trigger => kind = .long → elapsed < trigger) unreached
    exact ⟨group, .short inGroups (sameKind.symm.trans kind) (sameTrigger ▸ below) later, means⟩

/-- No action is chosen exactly when the press has reached no long group and is not below the
trigger time of a short one. -/
theorem choose?_eq_none_iff (whole : groups.map action? = given.map some)
    (order : Action.Arranged given arranged) :
    Action.choose? arranged elapsed = none ↔ ∀ group ∈ groups,
      (group.kind = .long → elapsed < group.trigger) ∧
        (group.kind = .short → group.trigger ≤ elapsed) := by
  rw [Action.choose?_eq_none_iff]
  have meaning (action : Action) : action.appliesTo elapsed = false ↔
      (action.kind = .long → elapsed < action.trigger) ∧
        (action.kind = .short → action.trigger ≤ elapsed) := by
    rw [Action.appliesTo]
    cases action.kind <;> simp
  constructor
  · intro none
    exact forall_of_given whole (fun kind trigger =>
      (kind = .long → elapsed < trigger) ∧ (kind = .short → trigger ≤ elapsed))
      fun action member => (meaning action).mp (none action (order.perm.mem_iff.mpr member))
  · intro none action member
    obtain ⟨group, inGroups, means⟩ := mem_of_mem_given whole (order.perm.mem_iff.mp member)
    obtain ⟨kind, trigger⟩ := kind_trigger_of_action? means
    rw [meaning, kind, trigger]
    exact none group inGroups

/-- The action that is chosen from the actions of groups, among which one at most is short, is
exactly that of the chosen group. -/
theorem choose?_eq_some_iff (whole : groups.map action? = given.map some)
    (order : Action.Arranged given arranged)
    (single : ∀ first ∈ groups, ∀ second ∈ groups,
      first.kind = .short → second.kind = .short → first = second) :
    Action.choose? arranged elapsed = some action ↔
      ∃ group, Chosen groups elapsed group ∧ group.action? = some action := by
  refine ⟨exists_chosen whole order, ?_⟩
  rintro ⟨group, chosen, means⟩
  cases found : Action.choose? arranged elapsed with
  | none =>
    obtain ⟨other, inGiven, same⟩ := mem_given_of_mem whole chosen.mem
    obtain rfl : other = action := Option.some.inj (same.symm.trans means)
    have unfit := Action.choose?_eq_none_iff.mp found other (order.perm.mem_iff.mpr inGiven)
    rw [chosen.applies means] at unfit
    contradiction
  | some other =>
    obtain ⟨found, also, same⟩ := exists_chosen whole order found
    rw [Chosen.unique single chosen also, same] at means
    exact means

end StepGroup

namespace Plan

open StepGroup

variable {steps : List Step} {draft : Draft} {bindings : Bindings} {binding : Binding}

/-- The actions of a binding are those that the groups of its code mean, arranged. -/
theorem arranged_of_mem (applied : Draft.empty.applyAll steps = (draft, none))
    (built : draft.build = .ok bindings) (member : binding ∈ bindings) :
    (shortCodes (ofSteps steps)).Nodup ∧
    ∃ given, (StepGroup.ofCode binding.code (ofSteps steps)).map StepGroup.action? =
      given.map some ∧ Action.Arranged given binding.actions := by
  obtain ⟨plan, advanced, made⟩ := accepted_iff_plan.mp ⟨draft, applied, built⟩
  obtain ⟨rfl, _, single⟩ := groups_of_build advanced made
  exact ⟨single, (binding_of_groups made member).2⟩

/-- The action that runs for a press of a configured key is that of the chosen group of the key:
the last of its long groups with the greatest trigger time that the press has reached; where it
has reached none, its short group if the press stayed below its trigger time; otherwise none.
Steps that give a code the same groups, in another order as far as groups with different trigger
times go, make the same choice. -/
theorem choice_of_groups (applied : Draft.empty.applyAll steps = (draft, none))
    (built : draft.build = .ok bindings) (member : binding ∈ bindings) (elapsed : UInt64) :
    (∀ action, Action.choose? binding.actions elapsed = some action ↔
      ∃ group, Chosen (StepGroup.ofCode binding.code (ofSteps steps)) elapsed group ∧
        group.action? = some action) ∧
    (Action.choose? binding.actions elapsed = none ↔
      ∀ group ∈ StepGroup.ofCode binding.code (ofSteps steps),
        (group.kind = .long → elapsed < group.trigger) ∧
          (group.kind = .short → group.trigger ≤ elapsed)) ∧
    ∀ (others : List Step) (otherDraft : Draft) (otherBindings : Bindings) (other : Binding),
      Draft.empty.applyAll others = (otherDraft, none) →
      otherDraft.build = .ok otherBindings → other ∈ otherBindings →
      other.code = binding.code →
      (∀ trigger, (StepGroup.ofCode binding.code (ofSteps others)).filter (·.trigger == trigger) =
        (StepGroup.ofCode binding.code (ofSteps steps)).filter (·.trigger == trigger)) →
      Action.choose? other.actions elapsed = Action.choose? binding.actions elapsed := by
  obtain ⟨single, given, whole, order⟩ := arranged_of_mem applied built member
  have chosen (action : Action) : Action.choose? binding.actions elapsed = some action ↔
      ∃ group, Chosen (StepGroup.ofCode binding.code (ofSteps steps)) elapsed group ∧
        group.action? = some action :=
    StepGroup.choose?_eq_some_iff whole order (short_unique single)
  refine ⟨chosen, StepGroup.choose?_eq_none_iff whole order, ?_⟩
  intro others otherDraft otherBindings other otherApplied otherBuilt otherMember code same
  obtain ⟨otherSingle, otherGiven, otherWhole, otherOrder⟩ :=
    arranged_of_mem otherApplied otherBuilt otherMember
  rw [code] at otherWhole
  refine Option.ext fun action => ?_
  rw [chosen, StepGroup.choose?_eq_some_iff otherWhole otherOrder (short_unique otherSingle)]
  exact exists_congr fun group => and_congr_left fun _ =>
    ⟨Chosen.reorder fun trigger => (same trigger).symm, Chosen.reorder same⟩

/-- Three long groups of one key, two of them with one trigger time, and a short group that
overlaps with the earliest of them. -/
def tieredSteps : List Step :=
  [.press .long ⟨116, none⟩, .time 3000, .command "first" false,
    .press .long ⟨116, none⟩, .time 1000, .command "early" false,
    .press .short ⟨116, none⟩, .time 2000, .command "brief" false,
    .press .long ⟨116, none⟩, .time 3000, .command "second" true]

/-- The same groups with those of different trigger times in another order. -/
def reorderedSteps : List Step :=
  [.press .short ⟨116, none⟩, .time 2000, .command "brief" false,
    .press .long ⟨116, none⟩, .time 3000, .command "first" false,
    .press .long ⟨116, none⟩, .time 3000, .command "second" true,
    .press .long ⟨116, none⟩, .time 1000, .command "early" false]

/-- The binding that either list of steps makes. -/
def tieredBinding : Binding :=
  ⟨116, none, [⟨.short, 2000, "brief", false⟩, ⟨.long, 1000, "early", false⟩,
    ⟨.long, 3000, "first", false⟩, ⟨.long, 3000, "second", true⟩]⟩

/-- Each of the two lists of steps makes this binding. -/
theorem build_tiered :
    (Draft.empty.applyAll tieredSteps).1.build = .ok [tieredBinding] ∧
      (Draft.empty.applyAll reorderedSteps).1.build = .ok [tieredBinding] := by
  have order : Action.arrange [⟨.long, 3000, "first", false⟩, ⟨.long, 1000, "early", false⟩,
      ⟨.short, 2000, "brief", false⟩, ⟨.long, 3000, "second", true⟩] = tieredBinding.actions := by
    simp [tieredBinding, Action.arrange, List.mergeSort, List.merge, Action.precedes]
  have reorder : Action.arrange [⟨.short, 2000, "brief", false⟩, ⟨.long, 3000, "first", false⟩,
      ⟨.long, 3000, "second", true⟩, ⟨.long, 1000, "early", false⟩] = tieredBinding.actions := by
    simp [tieredBinding, Action.arrange, List.mergeSort, List.merge, Action.precedes]
  have whole : tieredBinding = ⟨116, none, tieredBinding.actions⟩ := rfl
  constructor
  · rw [whole, ← order]
    rfl
  · rw [whole, ← reorder]
    rfl

/-- The two lists of steps give the groups with one trigger time in one order. -/
theorem filter_reorderedSteps (trigger : UInt64) :
    (StepGroup.ofCode 116 (ofSteps reorderedSteps)).filter (·.trigger == trigger) =
      (StepGroup.ofCode 116 (ofSteps tieredSteps)).filter (·.trigger == trigger) := by
  by_cases early : trigger = 1000
  · subst early
    decide
  · by_cases brief : trigger = 2000
    · subst brief
      decide
    · by_cases late : trigger = 3000
      · subst late
        decide
      · have none (steps : List Step) (known : ∀ group ∈ StepGroup.ofCode 116 (ofSteps steps),
            group.trigger = 1000 ∨ group.trigger = 2000 ∨ group.trigger = 3000) :
            (StepGroup.ofCode 116 (ofSteps steps)).filter (·.trigger == trigger) = [] := by
          refine List.filter_eq_nil_iff.mpr fun group member same => ?_
          rw [beq_iff_eq] at same
          rcases known group member with is | is | is <;> simp_all
        rw [none tieredSteps (by decide), none reorderedSteps (by decide)]

/-- A press that has reached the greatest trigger time runs the last of its groups, and one that
has reached the earliest runs its group although the short one applies as well. -/
theorem choice_of_tieredSteps :
    (∃ group, Chosen (StepGroup.ofCode 116 (ofSteps tieredSteps)) 3000 group ∧
      group.action? = some ⟨.long, 3000, "second", true⟩) ∧
    (∃ group, Chosen (StepGroup.ofCode 116 (ofSteps tieredSteps)) 1500 group ∧
      group.action? = some ⟨.long, 1000, "early", false⟩) ∧
    ∀ other, (Draft.empty.applyAll reorderedSteps).1.build = .ok [other] → other.code = 116 →
      Action.choose? other.actions 3000 = some ⟨.long, 3000, "second", true⟩ := by
  have applied : Draft.empty.applyAll tieredSteps =
      ((Draft.empty.applyAll tieredSteps).1, none) := by decide
  have otherApplied : Draft.empty.applyAll reorderedSteps =
      ((Draft.empty.applyAll reorderedSteps).1, none) := by decide
  have choice (elapsed : UInt64) :=
    choice_of_groups applied build_tiered.1 (List.mem_singleton_self _) elapsed
  refine ⟨((choice 3000).1 _).mp (by decide), ((choice 1500).1 _).mp (by decide), ?_⟩
  intro other otherBuilt code
  have same := (choice 3000).2.2 _ _ _ other otherApplied otherBuilt (List.mem_singleton_self _)
    code filter_reorderedSteps
  rw [same]
  decide

end Plan

end Keyhold
