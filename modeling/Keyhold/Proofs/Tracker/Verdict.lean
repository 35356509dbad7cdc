import Keyhold.Proofs.Tracker.Run

/-!
# The verdict on a press

A deadline that has come decides a press by its length. The length is taken from the last
release where the key bounces, and from the look at the deadline where the key is held. So the
verdict on a bouncing key does not depend on when the deadline is noticed, while the verdict on
a held key does; it is the long action that the key waits for as long as the length fits its
64 bits of milliseconds.
-/

namespace Keyhold

/-- A long action that the key waits for is chosen for every press that reaches its time. -/
theorem Action.choose?_of_held {binding : Binding} {action : Action} {elapsed : UInt64}
    (held : binding.held? = some action) (reached : action.trigger ≤ elapsed) :
    choose? binding.actions elapsed = some action := by
  obtain ⟨last, long⟩ := Option.filter_eq_some_iff.mp held
  have kind : action.kind = .long := by simpa using long
  obtain ⟨others, parts⟩ := List.getLast?_eq_some_iff.mp last
  have applies : action.appliesTo elapsed = true := by simpa [appliesTo, kind] using reached
  rw [choose?, parts, List.reverse_append, List.reverse_singleton, List.singleton_append]
  exact List.find?_cons_of_pos applies

/-- A chosen action applies. -/
theorem Action.appliesTo_of_choose? {actions : List Action} {action : Action} {elapsed : UInt64}
    (chosen : choose? actions elapsed = some action) : action.appliesTo elapsed = true := by
  rw [choose?] at chosen
  simpa using List.find?_some chosen

/-- Another length leads to the long action that the key waits for exactly when it reaches its
time, too. -/
theorem Action.choose?_eq_iff_of_held {binding : Binding} {action : Action}
    {elapsed other : UInt64} (held : binding.held? = some action)
    (reached : action.trigger ≤ elapsed) :
    choose? binding.actions other = choose? binding.actions elapsed ↔ action.trigger ≤ other := by
  rw [choose?_of_held held reached]
  constructor
  · intro chosen
    have applies := appliesTo_of_choose? chosen
    obtain ⟨_, long⟩ := Option.filter_eq_some_iff.mp held
    have kind : action.kind = .long := by simpa using long
    simpa [appliesTo, kind] using applies
  · exact choose?_of_held held

/-- A span of at least a trigger time counts at least its milliseconds, if they fit. -/
theorem Span.le_wholeMillis {span : Span} {trigger : UInt64}
    (reached : (ofMillis trigger).nanos ≤ span.nanos) (fits : span.nanos / 1000000 < UInt64.size) :
    trigger ≤ span.wholeMillis := by
  rw [UInt64.le_iff_toNat_le, wholeMillis, UInt64.toNat_ofNat_of_lt' fits]
  simp only [ofMillis] at reached
  omega

/-- Once a trigger time has passed since an instant, the span since then counts its milliseconds,
if they fit. -/
theorem Instant.le_wholeMillis_since {origin now : Instant} {trigger : UInt64}
    (reached : origin.later (.ofMillis trigger) ≤ now)
    (fits : (now.since origin).nanos / 1000000 < UInt64.size) :
    trigger ≤ (now.since origin).wholeMillis := by
  refine Span.le_wholeMillis ?_ fits
  have order := Instant.le_iff.mp reached
  simp only [Instant.nanos_later] at order
  simp only [Instant.since]
  omega

/-- A span that counts at least the milliseconds of a trigger time is at least that long. -/
theorem Span.ofMillis_le_of_le_wholeMillis {span : Span} {trigger : UInt64}
    (counted : trigger ≤ span.wholeMillis) : (ofMillis trigger).nanos ≤ span.nanos := by
  rw [UInt64.le_iff_toNat_le, wholeMillis, UInt64.toNat_ofNat'] at counted
  have modulus := Nat.mod_le (span.nanos / 1000000) UInt64.size
  simp only [ofMillis]
  omega

namespace Tracker

variable {tracker next last : Tracker} {input : Input} {firing : Option Firing}
  {moments : List Moment} {origin up now : Instant}

/-- The firing for a press of the given length; none if no action applies. -/
def verdict (tracker : Tracker) (length : Span) : Option Firing :=
  (Action.choose? tracker.binding.actions length.wholeMillis).map fun action =>
    tracker.firing action length.wholeMillis

/-- The verdict depends on nothing but the binding. -/
theorem verdict_eq (same : next.binding = tracker.binding) (length : Span) :
    next.verdict length = tracker.verdict length := by
  rw [verdict, verdict, same]
  congr 1
  funext action
  rw [firing, firing, same]

/-- A held key is judged by the time up to the look at its deadline. -/
theorem Change.verdict_of_held (change : Change tracker (.timeout now) next firing)
    (phase : tracker.phase = .pressed) (began : tracker.pressedAt = some origin)
    (due : tracker.isDue now = true) :
    next = { tracker with phase := .handled, releasedAt := some now, deadline := none } ∧
      firing = tracker.verdict (now.since origin) := by
  cases change with
  | waits now early =>
    rw [due] at early
    contradiction
  | decides now _ => simp [decided, decide?, verdict, heldMillis, endOfPress, phase, began]

/-- A bouncing key is judged by the time up to its last release. -/
theorem Change.verdict_of_bouncing (change : Change tracker (.timeout now) next firing)
    (phase : tracker.phase = .debounce) (began : tracker.pressedAt = some origin)
    (came : tracker.releasedAt = some up) (due : tracker.isDue now = true) :
    next = { tracker with phase := .released, deadline := none } ∧
      firing = tracker.verdict (up.since origin) := by
  cases change with
  | waits now early =>
    rw [due] at early
    contradiction
  | decides now _ => simp [decided, decide?, verdict, heldMillis, endOfPress, phase, began, came]

/-- A bouncing key that is not pressed again is decided at the first look after the window, and
only then. -/
theorem decided_of_bouncing {deadline : Instant} (course : Course Change tracker moments last)
    (phase : tracker.phase = .debounce) (began : tracker.pressedAt = some origin)
    (came : tracker.releasedAt = some up) (waits : tracker.deadline = some deadline)
    (quiet : ∀ moment ∈ moments, moment.input.isPress = false)
    (looked : ∃ moment ∈ moments, ∃ now, moment.input = .timeout now ∧ deadline ≤ now) :
    last = { tracker with phase := .released, deadline := none } ∧
      firings moments = (tracker.verdict (up.since origin)).toList := by
  induction moments with
  | nil =>
    obtain ⟨_, member, _⟩ := looked
    contradiction
  | cons moment rest ih =>
    obtain ⟨_, change, further⟩ := course
    have quietRest := fun other member => quiet other (List.mem_cons_of_mem _ member)
    by_cases comes : ∃ now, moment.input = .timeout now ∧ deadline ≤ now
    · obtain ⟨now, isTimeout, passed⟩ := comes
      rw [isTimeout] at change
      obtain ⟨next, fires⟩ :=
        change.verdict_of_bouncing phase began came (by simpa [isDue, waits] using passed)
      rw [next] at further
      have sound : Sound { tracker with phase := .released, deadline := none } :=
        ⟨fun _ => rfl, by simp, by simp, by simp⟩
      obtain ⟨unmoved, silent⟩ := unmoved_of_ignored further fun other member =>
        sound.ignores_of_released rfl (quietRest other member)
      refine ⟨unmoved, ?_⟩
      have nothing : firings rest = [] := List.filterMap_eq_nil_iff.mpr silent
      rw [firings, List.filterMap_cons, fires]
      rw [firings] at nothing
      cases verdict : tracker.verdict (up.since origin) with
      | none => exact nothing
      | some one => simp only [nothing, Option.toList_some]
    · have ignores : tracker.Ignores moment.input :=
        ignores_of_bouncing phase waits (quiet moment List.mem_cons_self)
          fun now isTimeout passed => comes ⟨now, isTimeout, passed⟩
      obtain ⟨same, silent⟩ := change.ignored ignores
      rw [same] at further
      obtain ⟨found, member, now, isTimeout, passed⟩ := looked
      rcases List.mem_cons.mp member with rfl | member
      · exact absurd ⟨now, isTimeout, passed⟩ comes
      · obtain ⟨final, fired⟩ := ih further quietRest ⟨found, member, now, isTimeout, passed⟩
        refine ⟨final, ?_⟩
        rw [firings, List.filterMap_cons, silent]
        exact fired

/-- A change leads to a decided press either by deciding it while the key is held, or by leaving
alone one that was decided before. -/
theorem Change.to_handled (change : Change tracker input next firing) (sound : tracker.Sound)
    (phase : next.phase = .handled) :
    (tracker.phase = .handled ∧ next = tracker ∧ firing = none) ∨
      (tracker.phase = .pressed ∧ ∃ now, input = .timeout now ∧ tracker.isDue now = true) := by
  cases change with
  | begins stamp up => contradiction
  | resumes stamp bouncing => contradiction
  | releases stamp held => contradiction
  | letsGo stamp decided => contradiction
  | repeats stamp down same => exact .inl ⟨phase, rfl, rfl⟩
  | waits now early => exact .inl ⟨phase, rfl, rfl⟩
  | decides now due =>
    rcases sound.phase_of_isDue due with held | bouncing
    · exact .inr ⟨held, now, rfl, due⟩
    · simp [decided, bouncing] at phase

/-- A press that counts as decided was decided by a look at its deadline while the key was held,
and nothing has changed since. -/
theorem decision_of_handled (course : Course Change tracker moments last) (sound : tracker.Sound)
    (phase : last.phase = .handled) :
    (tracker.phase = .handled ∧ last = tracker ∧ ∀ moment ∈ moments, moment.output = none) ∨
      ∃ earlier decision later now, moments = earlier ++ decision :: later ∧
        Course Change tracker earlier decision.before ∧
        Change decision.before decision.input decision.after decision.output ∧
        decision.input = .timeout now ∧ decision.before.isDue now = true ∧
        decision.before.phase = .pressed ∧ last = decision.after ∧
        ∀ moment ∈ later, moment.output = none := by
  induction moments generalizing tracker with
  | nil =>
    have same : tracker = last := course
    refine .inl ⟨?_, same.symm, fun _ member => absurd member List.not_mem_nil⟩
    rw [same]
    exact phase
  | cons moment rest ih =>
    obtain ⟨same, change, further⟩ := course
    rcases ih further (change.sound sound) with ⟨handled, unmoved, silent⟩ |
      ⟨earlier, decision, later, now, rfl, course, found⟩
    · rcases change.to_handled sound handled with ⟨before, unchanged, quiet⟩ |
        ⟨held, now, isTimeout, due⟩
      · refine .inl ⟨before, unmoved.trans unchanged, fun other member => ?_⟩
        rcases List.mem_cons.mp member with rfl | member
        · exact quiet
        · exact silent other member
      · refine .inr ⟨[], moment, rest, now, rfl, same.symm, ?_, isTimeout, ?_, ?_, unmoved, silent⟩
        all_goals rw [same]
        · exact change
        · exact due
        · exact held
    · exact .inr ⟨moment :: earlier, decision, later, now, rfl, ⟨same, change, course⟩, found⟩

/-- A press of a key that started up counts as decided because a look at its deadline found the
long action's time reached. -/
theorem held_verdict {binding : Binding} {window : Span}
    (course : Course Change (start binding window) moments last)
    (phase : last.phase = .handled) :
    ∃ decision ∈ moments, ∃ now origin action, decision.input = .timeout now ∧
      last.pressedAt = some origin ∧ decision.output = last.verdict (now.since origin) ∧
      last.binding.held? = some action ∧
      origin.later (.ofMillis action.trigger) ≤ now := by
  rcases decision_of_handled course (sound_start binding window) phase with ⟨handled, _⟩ |
    ⟨earlier, decision, later, now, rfl, before, change, isTimeout, due, held, same, _⟩
  · contradiction
  · obtain ⟨origin, began, deadline⟩ := ((sound_start binding window).along before).pressed held
    rw [isTimeout] at change
    obtain ⟨after, fires⟩ := change.verdict_of_held held began due
    have fixed : last.binding = decision.before.binding := by rw [same, after]
    refine ⟨decision, List.mem_append_right _ List.mem_cons_self, now, origin, ?_⟩
    rw [isDue, deadline, Binding.heldUntil?] at due
    cases waits : decision.before.binding.held? with
    | none =>
      rw [waits] at due
      contradiction
    | some action =>
      rw [waits] at due
      refine ⟨action, isTimeout, ?_, ?_, fixed ▸ waits, by simpa using due⟩
      · rw [same, after]
        exact began
      · rw [fires, verdict_eq fixed]

end Tracker

end Keyhold
