import Keyhold.Proofs.Bindings.Choice
import Keyhold.Proofs.Tracker.Timer
import Keyhold.Proofs.Tracker.Verdict

/-!
# The longest action of a held key

A held key waits for the last action of its binding, if that is a long one. Of the actions as they
were configured this is the longest: the last of the long ones with the greatest trigger time. The
wait is counted in nanoseconds from the start of the press, the choice of an action in whole
milliseconds; `held_key_runs_longest` says for every draft that builds bindings and every run of one
of its keys that the two agree, so that the action which the key waited for is the one that runs.
-/

namespace Keyhold

open StepGroup

namespace Action

variable {given : List Action} {action other : Action}

/-- Whether an action is the longest of those given: the last of the long ones with the greatest
trigger time. -/
structure Longest (given : List Action) (action : Action) : Prop where
  long : action.kind = .long
  greatest : ∀ other ∈ given, other.kind = .long → other.trigger ≤ action.trigger
  last : (given.filter fun other =>
    other.kind == .long && other.trigger == action.trigger).getLast? = some action

/-- The longest action is one of those given. -/
theorem Longest.mem (longest : Longest given action) : action ∈ given :=
  (List.mem_filter.mp (List.mem_of_getLast? longest.last)).1

/-- There is one longest action at most. -/
theorem Longest.unique (longest : Longest given action) (also : Longest given other) :
    action = other := by
  have triggers : action.trigger = other.trigger :=
    UInt64.le_antisymm (also.greatest action longest.mem longest.long)
      (longest.greatest other also.mem also.long)
  have last := longest.last
  rw [triggers, also.last] at last
  exact (Option.some.inj last).symm

/-- A binding whose last action is not long was given no long action. -/
theorem Arranged.short_of_held?_eq_none {binding : Binding}
    (order : Arranged given binding.actions) (waitless : binding.held? = none) :
    ∀ action ∈ given, action.kind ≠ .long := by
  intro action member
  have inside : action ∈ binding.actions := order.perm.mem_iff.mpr member
  rcases binding.actions.eq_nil_or_concat' with empty | ⟨front, final, parts⟩
  · rw [empty] at inside
    contradiction
  · have short : final.kind = .short := by
      rw [Binding.held?, parts, List.getLast?_concat, Option.filter_some] at waitless
      cases kind : final.kind with
      | short => rfl
      | long => simp [kind] at waitless
    have before := order.shortFirst
    rw [parts, List.pairwise_append] at before
    rw [parts] at inside
    rcases List.mem_append.mp inside with inFront | isFinal
    · rw [before.2.2 action inFront final (List.mem_singleton_self _) short]
      decide
    · rw [List.mem_singleton.mp isFinal, short]
      decide

/-- The action that a held key waits for is the longest of those given: a press of the greatest
length that can be counted, which has reached every trigger time, chooses it. -/
theorem Arranged.held?_eq_some_iff {binding : Binding} (order : Arranged given binding.actions) :
    binding.held? = some action ↔ Longest given action := by
  have longest {waited : Action} (held : binding.held? = some waited) : Longest given waited := by
    have long : waited.kind = .long := by
      simpa using (Option.filter_eq_some_iff.mp held).2
    have reached (other : Action) : other.trigger ≤ (18446744073709551615 : UInt64) :=
      UInt64.le_iff_toNat_le.mpr (Nat.le_of_lt_succ other.trigger.toNat_lt)
    obtain ⟨_, greatest, last⟩ := order.of_choose?_long (choose?_of_held held (reached waited)) long
    exact ⟨long, fun other member isLong => greatest other member isLong (reached other), last⟩
  constructor
  · exact longest
  · intro isLongest
    cases held : binding.held? with
    | none => exact absurd isLongest.long (order.short_of_held?_eq_none held action isLongest.mem)
    | some waited => rw [(longest held).unique isLongest]

end Action

namespace Draft

variable {draft : Draft} {bindings : Bindings} {binding : Binding} {code : UInt16}
  {given : List Action} {steps : List Step}

/-- Whether a draft holds the given actions for a code, in the order in which they were opened. -/
def Configures (draft : Draft) (code : UInt16) (given : List Action) : Prop :=
  ∃ entry ∈ draft.keys, entry.code = code ∧
    entry.actions.map DraftAction.finish? = given.map some

/-- Every binding of finished entries is one of them, finished. -/
theorem entry_of_finishAll {entries : List DraftKey} (finished : finishAll entries = .ok bindings)
    (member : binding ∈ bindings) : ∃ entry ∈ entries, entry.finish? = some binding := by
  induction entries generalizing bindings with
  | nil =>
    cases finished
    contradiction
  | cons entry rest ih =>
    obtain ⟨first, others, own, further, rfl⟩ := Plan.finishAll_cons finished
    rcases List.mem_cons.mp member with rfl | member
    · exact ⟨entry, List.mem_cons_self, own⟩
    · obtain ⟨found, inside, isFound⟩ := ih further member
      exact ⟨found, List.mem_cons_of_mem _ inside, isFound⟩

/-- A built binding holds the actions that the draft has for its code, arranged. -/
theorem configures_of_build (built : draft.build = .ok bindings) (member : binding ∈ bindings) :
    ∃ given, draft.Configures binding.code given ∧ Action.Arranged given binding.actions := by
  obtain ⟨entry, inside, finished⟩ := entry_of_finishAll built member
  obtain ⟨given, whole, rfl⟩ := Option.map_eq_some_iff.mp finished
  exact ⟨given, ⟨entry, inside, rfl, mapM_eq_some_iff.mp whole⟩, Action.arranged_arrange given⟩

/-- What a draft holds for a code after steps are the actions that the groups of the code mean. -/
theorem groups_of_configures (applied : empty.applyAll steps = (draft, none))
    (built : draft.build = .ok bindings) (configures : draft.Configures code given) :
    (StepGroup.ofCode code (ofSteps steps)).map StepGroup.action? = given.map some := by
  have together := Plan.applyAll_draft [] steps
  rw [show Plan.draft [] = empty from rfl, applied] at together
  cases advanced : Plan.advanceAll [] steps with
  | error error =>
    rw [advanced] at together
    contradiction
  | ok plan =>
    rw [advanced] at together
    obtain rfl : draft = plan.draft := (Prod.mk.inj together).1
    obtain ⟨rfl, _, _⟩ := Plan.groups_of_build advanced built
    obtain ⟨entry, inside, isCode, whole⟩ := configures
    obtain ⟨own, _, rfl⟩ := List.mem_map.mp inside
    rw [Plan.code_entry] at isCode
    rw [← whole, isCode, Plan.entry, Plan.ofCode_map_opened, List.map_map, List.map_map]
    exact List.map_congr_left fun group _ => (finish?_opened group).symm

end Draft

namespace Tracker

variable {last : Tracker} {draft : Draft} {bindings : Bindings} {binding : Binding} {window : Span}
  {inputs : List Input} {moments : List Moment} {given : List Action} {action : Action}
  {origin now : Instant}

/-- A held key is due exactly when the longest of the actions given for it has come, counted from
the start of the press. -/
theorem Sound.isDue_held_iff (sound : last.Sound) (held : last.phase = .pressed)
    (began : last.pressedAt = some origin) (order : Action.Arranged given last.binding.actions)
    (now : Instant) :
    last.isDue now = true ↔
      ∃ action, Action.Longest given action ∧ origin.later (.ofMillis action.trigger) ≤ now := by
  obtain ⟨start, same, deadline⟩ := sound.pressed held
  rw [began] at same
  cases same
  simp only [isDue, deadline, Binding.heldUntil?, Option.any_map, Option.any_eq_true,
    order.held?_eq_some_iff, decide_eq_true_eq]

/-- A held key that is due runs the longest of the actions given for it, if the milliseconds since
the start of the press fit their count. -/
theorem expire_of_held (held : last.phase = .pressed) (began : last.pressedAt = some origin)
    (due : last.isDue now = true) (waits : last.binding.held? = some action)
    (reached : origin.later (.ofMillis action.trigger) ≤ now)
    (fits : (now.since origin).nanos / 1000000 < UInt64.size) :
    action.trigger ≤ (now.since origin).wholeMillis ∧
      last.expire now =
        ({ last with phase := .handled, releasedAt := some now, deadline := none },
          some (last.firing action (now.since origin).wholeMillis)) := by
  have counted := Instant.le_wholeMillis_since reached fits
  obtain ⟨next, fires⟩ := (last.change_expire now).verdict_of_held held began due
  rw [verdict, Action.choose?_of_held waits counted] at fires
  exact ⟨counted, Prod.ext next fires⟩

/-- A key of built bindings that is held in any state of a run is due exactly when the longest of
the actions configured for it has come since the start of the press. A look then runs that action,
with no less than its time as the length of the press, as long as the milliseconds fit their count,
and leaves the press decided. Without a long action no look at a held key ever does anything. -/
theorem held_key_runs_longest (built : draft.build = .ok bindings) (member : binding ∈ bindings)
    (ran : (start binding window).run? inputs = some (moments, last))
    (held : last.phase = .pressed) :
    ∃ given origin, draft.Configures binding.code given ∧ last.pressedAt = some origin ∧
      (∀ steps, Draft.empty.applyAll steps = (draft, none) →
        (StepGroup.ofCode binding.code (ofSteps steps)).map StepGroup.action? =
          given.map some) ∧
      (∀ now, last.isDue now = true ↔
        ∃ action, Action.Longest given action ∧
          origin.later (.ofMillis action.trigger) ≤ now) ∧
      (∀ now, last.isDue now = true → now.nanos - origin.nanos < UInt64.size * 1000000 →
        ∃ action elapsed, Action.Longest given action ∧ action.trigger ≤ elapsed ∧
          elapsed.toNat = (now.nanos - origin.nanos).toNat / 1000000 ∧
          last.expire now =
            ({ last with phase := .handled, releasedAt := some now, deadline := none },
              some ⟨binding.code, binding.name, action.command, action.exits, elapsed⟩)) ∧
      ((∀ action ∈ given, action.kind ≠ .long) → ∀ now, last.expire now = (last, none)) := by
  obtain ⟨course, _⟩ := course_of_run? ran
  have sound := (sound_start binding window).along course
  have fixed : last.binding = binding := (fixed_of_course course).1
  obtain ⟨given, configures, order⟩ := Draft.configures_of_build built member
  rw [← fixed] at order
  obtain ⟨origin, began, _⟩ := sound.pressed held
  have due_iff := sound.isDue_held_iff held began order
  refine ⟨given, origin, configures, began,
    fun steps applied => Draft.groups_of_configures applied built configures, due_iff,
    fun now due fits => ?_, fun waitless now => ?_⟩
  · obtain ⟨action, longest, reached⟩ := (due_iff now).mp due
    have counts : (now.since origin).nanos / 1000000 < UInt64.size := by
      simp only [Instant.since, UInt64.size] at fits ⊢
      omega
    obtain ⟨counted, expires⟩ :=
      expire_of_held held began due (order.held?_eq_some_iff.mpr longest) reached counts
    refine ⟨action, _, longest, counted, UInt64.toNat_ofNat_of_lt' counts, ?_⟩
    rw [expires, firing, fixed]
  · refine expire_of_early (Bool.eq_false_iff.mpr fun due => ?_)
    obtain ⟨action, longest, _⟩ := (due_iff now).mp due
    exact waitless action longest.mem longest.long

/-- Two long actions with one trigger time and an earlier one, for one key, and a short action for
another. -/
def heldSteps : List Step :=
  [.press .long ⟨116, none⟩, .time 3000, .command "first" false,
    .press .short ⟨30, none⟩, .command "brief" false,
    .press .long ⟨116, none⟩, .time 3000, .command "second" true,
    .press .long ⟨116, none⟩, .time 1000, .command "early" false]

/-- The draft that the steps make. -/
def heldDraft : Draft := (Draft.empty.applyAll heldSteps).1

/-- The binding of the first key. -/
def heldBinding : Binding :=
  ⟨116, none, [⟨.long, 1000, "early", false⟩, ⟨.long, 3000, "first", false⟩,
    ⟨.long, 3000, "second", true⟩]⟩

/-- The binding of the other key. -/
def briefBinding : Binding := ⟨30, none, [⟨.short, 1000, "brief", false⟩]⟩

/-- The steps make these bindings. -/
theorem build_held : heldDraft.build = .ok [heldBinding, briefBinding] := by
  have order : Action.arrange [⟨.long, 3000, "first", false⟩, ⟨.long, 3000, "second", true⟩,
      ⟨.long, 1000, "early", false⟩] = heldBinding.actions := by
    simp [heldBinding, Action.arrange, List.mergeSort, Action.precedes]
  have alone : Action.arrange [⟨.short, 1000, "brief", false⟩] = briefBinding.actions :=
    List.mergeSort_singleton _
  rw [show heldBinding = ⟨116, none, heldBinding.actions⟩ from rfl,
    show briefBinding = ⟨30, none, briefBinding.actions⟩ from rfl, ← order, ← alone]
  rfl

/-- A press that bounces. -/
def heldPress : List Input :=
  [.record ⟨0⟩ true, .record ⟨100000000⟩ false, .record ⟨104000000⟩ true]

/-- The run of the bouncing press of the first key. -/
def longRun : List Moment × Tracker :=
  ((start heldBinding (.ofMillis 10)).run? heldPress).get (by decide)

/-- The run of the bouncing press of the other key. -/
def briefRun : List Moment × Tracker :=
  ((start briefBinding (.ofMillis 10)).run? heldPress).get (by decide)

/-- The bouncing press has a run of either key. -/
theorem ran_heldPress :
    (start heldBinding (.ofMillis 10)).run? heldPress = some (longRun.1, longRun.2) ∧
      (start briefBinding (.ofMillis 10)).run? heldPress = some (briefRun.1, briefRun.2) :=
  ⟨Option.eq_some_of_isSome (by decide), Option.eq_some_of_isSome (by decide)⟩

/-- The statement on held keys at the bouncing press: three seconds after it began the first key
runs the second of the two actions with this trigger time, and the other key is never due. -/
theorem longest_of_heldPress :
    (longRun.2.expire ⟨3000000000⟩).2 = some ⟨116, none, "second", true, 3000⟩ ∧
    ∀ now, briefRun.2.expire now = (briefRun.2, none) := by
  constructor
  · obtain ⟨given, origin, _, began, groups, _, runs, _⟩ :=
      held_key_runs_longest build_held (by decide) ran_heldPress.1 (by decide)
    have isGiven : given = [⟨.long, 3000, "first", false⟩, ⟨.long, 3000, "second", true⟩,
        ⟨.long, 1000, "early", false⟩] :=
      List.map_injective_iff.mpr (fun _ _ => Option.some.inj)
        ((groups heldSteps rfl).symm.trans rfl)
    obtain rfl : origin = ⟨0⟩ := Option.some.inj (began.symm.trans rfl)
    obtain ⟨action, elapsed, longest, _, counted, expires⟩ :=
      runs ⟨3000000000⟩ (by decide) (by decide)
    have isAction : action = ⟨.long, 3000, "second", true⟩ :=
      longest.unique ⟨rfl, by rw [isGiven]; decide, by rw [isGiven]; rfl⟩
    have isElapsed : elapsed = 3000 := UInt64.toNat_inj.mp counted
    rw [expires, isAction, isElapsed]
    rfl
  · obtain ⟨given, _, _, _, groups, _, _, waitless⟩ :=
      held_key_runs_longest build_held (by decide) ran_heldPress.2 (by decide)
    have isGiven : given = [⟨.short, 1000, "brief", false⟩] :=
      List.map_injective_iff.mpr (fun _ _ => Option.some.inj)
        ((groups heldSteps rfl).symm.trans rfl)
    exact waitless (by rw [isGiven]; decide)

end Tracker

end Keyhold
