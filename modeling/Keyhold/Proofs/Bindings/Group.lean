import Keyhold.Proofs.Bindings.Steps
import Mathlib.Data.List.Induction

/-!
# Groups of steps

Steps read in groups: a group begins with a step that opens an action and runs to the next one
that does. What a group means does not depend on the others: its last time and its last command
count. `advanceAll_group_iff` says when the steps of a group are taken, and that they then add to
a plan the one action that the group means.
-/

namespace Keyhold

/-- What a step sets on the action opened last. -/
inductive Detail where
  | time (trigger : UInt64)
  | command (text : String) (exits : Bool)
  deriving DecidableEq, Repr

namespace Detail

/-- The step that sets the detail. -/
def step : Detail → Step
  | .time trigger => .time trigger
  | .command text exits => .command text exits

/-- The trigger time that is set. -/
def trigger? : Detail → Option UInt64
  | .time trigger => some trigger
  | .command _ _ => none

/-- The command that is set, and whether the daemon stops after it. -/
def command? : Detail → Option (String × Bool)
  | .time _ => none
  | .command text exits => some (text, exits)

/-- The action once the detail is set. -/
def set (action : DraftAction) : Detail → DraftAction
  | .time trigger => { action with trigger := trigger }
  | .command text exits => { action with command := some text, exits := exits }

/-- Whether the detail sets no empty command. -/
def Worded (detail : Detail) : Prop :=
  ∀ text exits, detail = .command text exits → text ≠ ""

end Detail

/-- A step that opens an action, and what the steps up to the next such step set on it. -/
structure StepGroup where
  kind : PressKind
  key : Key
  details : List Detail
  deriving DecidableEq, Repr

namespace StepGroup

/-- The code of the group's key. -/
def code (group : StepGroup) : UInt16 := group.key.code

/-- The steps of a group. -/
def steps (group : StepGroup) : List Step :=
  .press group.kind group.key :: group.details.map Detail.step

/-- What steps set before any of them opens an action, and their groups. -/
def split : List Step → List Detail × List StepGroup
  | [] => ([], [])
  | .press kind key :: rest => ([], ⟨kind, key, (split rest).1⟩ :: (split rest).2)
  | .time trigger :: rest => (.time trigger :: (split rest).1, (split rest).2)
  | .command text exits :: rest => (.command text exits :: (split rest).1, (split rest).2)

/-- The groups of a list of steps. -/
def ofSteps (steps : List Step) : List StepGroup := (split steps).2

/-- The groups of one code. -/
def ofCode (code : UInt16) (groups : List StepGroup) : List StepGroup :=
  groups.filter (·.code == code)

/-- The trigger time that a group means: the last one it sets, else that of its kind. -/
def trigger (group : StepGroup) : UInt64 :=
  (group.details.filterMap Detail.trigger?).getLast?.getD group.kind.defaultTrigger

/-- The command that a group means, and whether the daemon stops after it: the last it sets. -/
def command? (group : StepGroup) : Option (String × Bool) :=
  (group.details.filterMap Detail.command?).getLast?

/-- The action that a group means, if it sets a command. -/
def action? (group : StepGroup) : Option Action :=
  group.command?.map fun command => ⟨group.kind, group.trigger, command.1, command.2⟩

/-- The action that the steps of a group open, with its key. -/
def opened (group : StepGroup) : Opened :=
  ⟨group.key, group.details.foldl Detail.set (.fresh group.kind)⟩

/-! ## Reading steps in groups -/

/-- Reading steps in groups loses none of them and keeps their order. -/
theorem flatMap_split (steps : List Step) :
    (split steps).1.map Detail.step ++ (split steps).2.flatMap StepGroup.steps = steps := by
  induction steps with
  | nil => rfl
  | cons step rest ih =>
    cases step with
    | press kind key => simpa [split, StepGroup.steps] using ih
    | time trigger => simpa [split, Detail.step] using ih
    | command text exits => simpa [split, Detail.step] using ih

/-- Steps that begin with details are read as these and the groups of the others. -/
theorem split_details_append (details : List Detail) (steps : List Step) :
    split (details.map Detail.step ++ steps) = (details ++ (split steps).1, (split steps).2) := by
  induction details with
  | nil => rfl
  | cons detail rest ih =>
    rw [List.map_cons, List.cons_append]
    cases detail with
    | time trigger =>
      rw [Detail.step, split, ih]
      rfl
    | command text exits =>
      rw [Detail.step, split, ih]
      rfl

/-- There is one reading only: the steps of groups are read as these groups. -/
theorem split_flatMap (groups : List StepGroup) :
    split (groups.flatMap StepGroup.steps) = ([], groups) := by
  induction groups with
  | nil => rfl
  | cons group rest ih =>
    rw [List.flatMap_cons, StepGroup.steps, List.cons_append, split, split_details_append, ih,
      List.append_nil]

/-! ## The meaning of a group -/

/-- The steps of a group open an action with the trigger time and the command of the group. -/
theorem action_opened (group : StepGroup) :
    group.opened.action =
      ⟨group.kind, group.trigger, group.command?.map Prod.fst,
        group.command?.elim false Prod.snd⟩ := by
  obtain ⟨kind, key, details⟩ := group
  unfold opened trigger command?
  induction details using List.reverseRecOn with
  | nil => rfl
  | append_singleton init last ih =>
    rw [List.foldl_append, List.foldl_cons, List.foldl_nil]
    simp only at ih
    rw [ih]
    cases last with
    | time trigger =>
      simp [Detail.set, Detail.trigger?, Detail.command?, List.filterMap_append]
    | command text exits =>
      simp [Detail.set, Detail.trigger?, Detail.command?, List.filterMap_append]

/-- The action that the steps of a group open is finished as the group means it. -/
theorem finish?_opened (group : StepGroup) : group.opened.action.finish? = group.action? := by
  rw [action_opened, DraftAction.finish?, action?]
  cases group.command? with
  | none => rfl
  | some command => rfl

/-- The steps of a group do not change its kind. -/
@[simp] theorem kind_opened (group : StepGroup) : group.opened.action.kind = group.kind := by
  rw [action_opened]

/-- The steps of a group do not change its key. -/
@[simp] theorem key_opened (group : StepGroup) : group.opened.key = group.key := rfl

end StepGroup

namespace Plan

variable {plan next last init : Plan} {opened : Opened}

/-! ## The steps of a group on a plan -/

/-- Steps are taken exactly when the first is taken and the others after it. -/
theorem advanceAll_cons_iff {step : Step} {rest : List Step} :
    plan.advanceAll (step :: rest) = .ok last ↔
      ∃ next, plan.advance step = .ok next ∧ next.advanceAll rest = .ok last := by
  rw [advanceAll]
  cases plan.advance step with
  | ok next => simp
  | error error => simp

/-- A press is taken exactly when no command is missing and no second short action is opened. -/
theorem advance_press_iff {kind : PressKind} {key : Key} :
    plan.advance (.press kind key) = .ok next ↔
      plan.unfinished? = none ∧
      ¬ (kind = .short ∧ (plan.ofCode key.code).any (·.action.kind == .short) = true) ∧
      next = plan ++ [⟨key, .fresh kind⟩] := by
  constructor
  · intro advanced
    have added := eq_of_press advanced
    rw [advance] at advanced
    split at advanced
    · cases advanced
    · rename_i finished
      split at advanced
      · cases advanced
      · rename_i single
        exact ⟨finished, single, added⟩
  · rintro ⟨finished, single, rfl⟩
    exact advance_press finished single

/-- A detail is set on the last action exactly when it is no empty command. -/
theorem advance_detail_iff {detail : Detail} :
    (init ++ [opened]).advance detail.step = .ok next ↔
      detail.Worded ∧ next = init ++ [{ opened with action := detail.set opened.action }] := by
  cases detail with
  | time trigger =>
    rw [Detail.step, advance_time, Except.ok.injEq, eq_comm]
    simp [Detail.Worded, Detail.set]
  | command text exits =>
    constructor
    · intro advanced
      have nonempty := nonempty_of_command advanced
      rw [Detail.step, advance_command _ _ _ nonempty] at advanced
      cases advanced
      refine ⟨?_, rfl⟩
      rintro _ _ ⟨⟩ rfl
      contradiction
    · rintro ⟨worded, rfl⟩
      have nonempty : text.isEmpty = false := by simpa using worded text exits rfl
      exact advance_command _ _ _ nonempty

/-- Details are set on the last action one after the other, unless one is an empty command. -/
theorem advanceAll_details_iff {details : List Detail} :
    (init ++ [opened]).advanceAll (details.map Detail.step) = .ok last ↔
      (∀ detail ∈ details, detail.Worded) ∧
      last = init ++ [{ opened with action := details.foldl Detail.set opened.action }] := by
  induction details generalizing opened with
  | nil => simp [advanceAll, eq_comm]
  | cons detail rest ih =>
    rw [List.map_cons, advanceAll_cons_iff, List.forall_mem_cons, List.foldl_cons]
    constructor
    · rintro ⟨next, first, further⟩
      obtain ⟨worded, rfl⟩ := advance_detail_iff.mp first
      obtain ⟨others, rfl⟩ := ih.mp further
      exact ⟨⟨worded, others⟩, rfl⟩
    · rintro ⟨⟨worded, others⟩, rfl⟩
      exact ⟨_, advance_detail_iff.mpr ⟨worded, rfl⟩, ih.mpr ⟨others, rfl⟩⟩

/-- The steps of a group are taken exactly when no command is missing before them, they open no
second short action and set no empty command; they then add the action of the group. -/
theorem advanceAll_group_iff {group : StepGroup} :
    plan.advanceAll group.steps = .ok last ↔
      plan.unfinished? = none ∧
      ¬ (group.kind = .short ∧
        (plan.ofCode group.code).any (·.action.kind == .short) = true) ∧
      (∀ detail ∈ group.details, detail.Worded) ∧ last = plan ++ [group.opened] := by
  rw [StepGroup.steps, advanceAll_cons_iff]
  constructor
  · rintro ⟨next, pressed, further⟩
    obtain ⟨finished, single, rfl⟩ := advance_press_iff.mp pressed
    obtain ⟨worded, rfl⟩ := advanceAll_details_iff.mp further
    exact ⟨finished, single, worded, rfl⟩
  · rintro ⟨finished, single, worded, rfl⟩
    exact ⟨_, advance_press_iff.mpr ⟨finished, single, rfl⟩,
      advanceAll_details_iff.mpr ⟨worded, rfl⟩⟩

/-- Nothing can be set before an action is opened. -/
theorem advance_detail_ne {detail : Detail} : advance [] detail.step ≠ .ok next := by
  intro advanced
  cases detail with
  | time trigger => cases advanced
  | command text exits =>
    have nonempty := nonempty_of_command advanced
    simp [Detail.step, advance, nonempty] at advanced

end Plan

end Keyhold
