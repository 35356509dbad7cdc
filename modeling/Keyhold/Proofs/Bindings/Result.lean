import Keyhold.Proofs.Bindings.Grammar
import Keyhold.Proofs.Bindings.Order
import Mathlib.Data.List.Nodup

/-!
# The bindings that steps make

What steps mean, read off their groups. `bindings_of_groups` says that there is one binding for
each code, in the order of its first group, and that it holds the actions of the groups of its
code and the first name given there. Nothing in it depends on the groups of other codes or on
where these stand.
-/

namespace Keyhold

/-- The bindings of distinct codes are found under their codes. -/
theorem Bindings.get?_of_mem {bindings : Bindings} {binding : Binding}
    (distinct : (bindings.map Binding.code).Nodup) (member : binding ∈ bindings) :
    bindings.get? binding.code = some binding := by
  have found : (bindings.get? binding.code).isSome = true :=
    List.find?_isSome.mpr ⟨binding, member, by simp⟩
  obtain ⟨other, found⟩ := Option.isSome_iff_exists.mp found
  have same : other.code = binding.code := by simpa using List.find?_some found
  have present : other ∈ bindings := List.mem_of_find?_eq_some found
  rw [found, List.inj_on_of_nodup_map distinct present member same]

namespace Plan

open StepGroup

variable {groups : List StepGroup} {bindings : Bindings} {code : UInt16}

/-- A plan names its codes in the order of their first actions. -/
theorem codes_eq_eraseDups (plan : Plan) : plan.codes = (plan.map (·.key.code)).eraseDups := by
  induction plan using List.reverseRecOn with
  | nil => rfl
  | append_singleton init last ih =>
    have known : last.key.code ∈ init.map (·.key.code) ↔ last.key.code ∈ codes init := by
      rw [ih, List.mem_eraseDups]
    rw [codes_append_singleton, List.map_append, List.map_singleton, List.eraseDups_append, ← ih]
    by_cases here : last.key.code ∈ codes init
    · have twice : [last.key.code].removeAll (init.map (·.key.code)) = [] := by
        simpa [List.removeAll] using known.mpr here
      rw [if_pos here, twice, List.eraseDups_nil, List.append_nil]
    · have once : [last.key.code].removeAll (init.map (·.key.code)) = [last.key.code] := by
        simpa [List.removeAll] using fun member => here (known.mp member)
      rw [if_neg here, once]
      rfl

/-- The actions that groups open for a code are those of the groups of the code. -/
theorem ofCode_map_opened (groups : List StepGroup) (code : UInt16) :
    Plan.ofCode (groups.map opened) code = (StepGroup.ofCode code groups).map opened := by
  rw [Plan.ofCode, List.filter_map]
  rfl

/-- A plan of groups names the codes of the groups. -/
theorem mem_codes_iff_ofCode :
    code ∈ codes (groups.map opened) ↔ StepGroup.ofCode code groups ≠ [] := by
  rw [mem_codes, StepGroup.ofCode, ne_eq, List.filter_eq_nil_iff]
  simp [StepGroup.code]

/-- Steps that are taken are the steps of their own groups and of no others. -/
theorem ofSteps_eq_iff {plan : Plan} {steps : List Step}
    (advanced : advanceAll [] steps = .ok plan) :
    groups.flatMap StepGroup.steps = steps ↔ groups = ofSteps steps := by
  constructor
  · rintro rfl
    rw [ofSteps, split_flatMap]
  · rintro rfl
    exact flatMap_ofSteps advanced

/-- What is bound to a code is made of the groups of the code alone. -/
theorem get?_of_groups (built : (draft (groups.map opened)).build = .ok bindings)
    (code : UInt16) :
    bindings.get? code =
      if StepGroup.ofCode code groups = [] then none
      else ((StepGroup.ofCode code groups).mapM StepGroup.action?).map fun actions =>
        ⟨code, (StepGroup.ofCode code groups).findSome? (·.key.name),
          Action.arrange actions⟩ := by
  by_cases named : code ∈ codes (groups.map opened)
  · obtain ⟨actions, finished, bound⟩ := binding_of_build built named
    have name : (entry (groups.map opened) code).name =
        (StepGroup.ofCode code groups).findSome? (·.key.name) := by
      rw [entry, ofCode_map_opened, List.findSome?_map]
      rfl
    have whole : (StepGroup.ofCode code groups).mapM StepGroup.action? = some actions := by
      rw [finished?, ofCode_map_opened, List.mapM_map] at finished
      rw [← finished]
      exact congrArg (List.mapM · _) (funext fun group => (finish?_opened group).symm)
    rw [if_neg (mem_codes_iff_ofCode.mp named), whole, bound, name, Option.map_some]
  · have none : StepGroup.ofCode code groups = [] :=
      not_not.mp fun some => named (mem_codes_iff_ofCode.mpr some)
    rw [if_pos none]
    exact get?_of_unnamed built named

/-- The codes that steps bind are those of their groups, in the order of their first groups. -/
theorem codes_of_groups (built : (draft (groups.map opened)).build = .ok bindings) :
    bindings.map Binding.code = (groups.map StepGroup.code).eraseDups := by
  rw [codes_of_build built, codes_eq_eraseDups, List.map_map]
  rfl

/-- A binding has the first name and the actions that the groups of its code give. -/
theorem binding_of_groups {binding : Binding}
    (built : (draft (groups.map opened)).build = .ok bindings) (member : binding ∈ bindings) :
    binding.name = (StepGroup.ofCode binding.code groups).findSome? (·.key.name) ∧
      ∃ actions, (StepGroup.ofCode binding.code groups).map StepGroup.action? =
        actions.map some ∧ Action.Arranged actions binding.actions := by
  have found := get?_of_groups built binding.code
  rw [Bindings.get?_of_mem (nodup_of_build built) member] at found
  split at found
  · contradiction
  · obtain ⟨actions, whole, same⟩ := Option.map_eq_some_iff.mp found.symm
    refine ⟨(congrArg Binding.name same).symm, actions, mapM_eq_some_iff.mp whole, ?_⟩
    rw [← congrArg Binding.actions same]
    exact Action.arranged_arrange actions

/-- Steps that make bindings can be read in groups in one way. They make one binding for each
code, in the order of the first groups of the codes. It has the first name that a group of its
code gives, and one action for each group of its code: with the last time of the group, else the
default of its kind, and with the last command, in the order of a binding. Other steps with the
same groups of a code bind the same to it. -/
theorem bindings_of_groups {steps : List Step} {draft : Draft} {bindings : Bindings}
    (applied : Draft.empty.applyAll steps = (draft, none)) (built : draft.build = .ok bindings) :
    (∀ groups : List StepGroup,
      groups.flatMap StepGroup.steps = steps ↔ groups = ofSteps steps) ∧
    bindings.map Binding.code = ((ofSteps steps).map StepGroup.code).eraseDups ∧
    (∀ binding ∈ bindings,
      binding.name =
        (StepGroup.ofCode binding.code (ofSteps steps)).findSome? (·.key.name) ∧
      ∃ actions,
        (StepGroup.ofCode binding.code (ofSteps steps)).map StepGroup.action? =
          actions.map some ∧
        Action.Arranged actions binding.actions) ∧
    ∀ (others : List Step) (otherDraft : Draft) (otherBindings : Bindings),
      Draft.empty.applyAll others = (otherDraft, none) →
      otherDraft.build = .ok otherBindings →
      ∀ code, StepGroup.ofCode code (ofSteps others) = StepGroup.ofCode code (ofSteps steps) →
        otherBindings.get? code = bindings.get? code := by
  obtain ⟨plan, advanced, made⟩ := accepted_iff_plan.mp ⟨draft, applied, built⟩
  obtain ⟨rfl, _, _⟩ := groups_of_build advanced made
  refine ⟨fun groups => ofSteps_eq_iff advanced, codes_of_groups made,
    fun binding member => binding_of_groups made member, ?_⟩
  intro others otherDraft otherBindings otherApplied otherBuilt code same
  obtain ⟨otherPlan, otherAdvanced, otherMade⟩ :=
    accepted_iff_plan.mp ⟨otherDraft, otherApplied, otherBuilt⟩
  obtain ⟨rfl, _, _⟩ := groups_of_build otherAdvanced otherMade
  rw [get?_of_groups otherMade, get?_of_groups made, same]

/-- Three groups of one key around one of another, with a second time and a second command. -/
def interleavedSteps : List Step :=
  [.press .long ⟨116, none⟩, .time 6000, .command "C" false,
    .press .short ⟨30, none⟩, .command "D" false,
    .press .long ⟨116, some "POWER"⟩, .time 7000, .command "E" false, .command "B" true,
    .time 4000,
    .press .short ⟨116, some "power"⟩, .command "A" false]

/-- The same groups of the first key with none between them. -/
def adjacentSteps : List Step :=
  [.press .long ⟨116, none⟩, .time 6000, .command "C" false,
    .press .long ⟨116, some "POWER"⟩, .time 7000, .command "E" false, .command "B" true,
    .time 4000,
    .press .short ⟨116, some "power"⟩, .command "A" false]

/-- The bindings of the steps with the second key's group among those of the first. -/
def interleavedBindings : Bindings :=
  [⟨116, some "POWER",
    [⟨.short, 1000, "A", false⟩, ⟨.long, 4000, "B", true⟩, ⟨.long, 6000, "C", false⟩]⟩,
    ⟨30, none, [⟨.short, 1000, "D", false⟩]⟩]

/-- The groups of the second key do not matter to the first. -/
theorem bindings_of_interleavedSteps :
    ∃ draft otherDraft otherBindings,
      Draft.empty.applyAll interleavedSteps = (draft, none) ∧
      draft.build = .ok interleavedBindings ∧
      Draft.empty.applyAll adjacentSteps = (otherDraft, none) ∧
      otherDraft.build = .ok otherBindings ∧
      interleavedBindings.map Binding.code =
        ((ofSteps interleavedSteps).map StepGroup.code).eraseDups ∧
      otherBindings.get? 116 = interleavedBindings.get? 116 := by
  have applied : Draft.empty.applyAll interleavedSteps =
      ((Draft.empty.applyAll interleavedSteps).1, none) := by decide
  have order : Action.arrange
      [⟨.long, 6000, "C", false⟩, ⟨.long, 4000, "B", true⟩, ⟨.short, 1000, "A", false⟩] =
      [⟨.short, 1000, "A", false⟩, ⟨.long, 4000, "B", true⟩, ⟨.long, 6000, "C", false⟩] := by
    simp [Action.arrange, List.mergeSort, Action.precedes]
  have alone : ∀ action, Action.arrange [action] = [action] := List.mergeSort_singleton
  have built : (Draft.empty.applyAll interleavedSteps).1.build = .ok interleavedBindings := by
    rw [interleavedBindings, ← order, ← alone ⟨.short, 1000, "D", false⟩]
    rfl
  have otherApplied : Draft.empty.applyAll adjacentSteps =
      ((Draft.empty.applyAll adjacentSteps).1, none) := by decide
  have otherBuilt : (Draft.empty.applyAll adjacentSteps).1.build =
      .ok (interleavedBindings.take 1) := by
    rw [interleavedBindings, ← order]
    rfl
  obtain ⟨_, codes, _, others⟩ := bindings_of_groups applied built
  have same := others adjacentSteps _ _ otherApplied otherBuilt 116 (by decide)
  exact ⟨_, _, _, applied, built, otherApplied, otherBuilt, codes, same⟩

end Plan

end Keyhold
