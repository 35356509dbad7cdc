import Keyhold.Proofs.Tracker.Run

/-!
# The timer of a key

The deadline of a key is given by its phase and by the times that the tracker keeps:
`timer_fits_phase` says how, after inputs in any order and with any stamps. A look at a deadline
that has come therefore finds a press that is still to be decided, and knows both of its ends.

An input sets a deadline or leaves the present one. `sets?` is the deadline that it asks for. A
step has no result exactly when that lies beyond the clock, so every deadline of a run is one
that the clock will show.
-/

namespace Keyhold

/-- A held key waits for its last action, and only if that is a long one. -/
theorem Binding.heldUntil?_eq (binding : Binding) (origin : Instant) :
    binding.heldUntil? origin = binding.actions.getLast?.bind fun action =>
      if action.kind = .long then some (origin.later (.ofMillis action.trigger)) else none := by
  rw [heldUntil?, held?]
  cases binding.actions.getLast? with
  | none => rfl
  | some action => cases kind : action.kind <;> simp [Option.filter_some, kind]

namespace Tracker

variable {tracker next last : Tracker} {input : Input} {firing : Option Firing}
  {moments : List Moment}

/-- The deadline that an input asks for, whether or not the clock can represent it. -/
def sets? (tracker : Tracker) : Input → Option Instant
  | .record stamp true =>
    match tracker.phase with
    | .released => tracker.binding.heldUntil? stamp
    | .debounce => tracker.binding.heldUntil? (tracker.pressedAt.getD stamp)
    | .pressed => none
    | .handled => none
  | .record stamp false =>
    if tracker.phase = .pressed then some (stamp.later tracker.window) else none
  | .timeout _ => none

/-- A key cannot go down exactly when its long action comes due beyond the clock. -/
theorem goDown_eq_none_iff {origin : Instant} :
    tracker.goDown origin = none ↔ ∃ deadline, tracker.binding.heldUntil? origin = some deadline ∧
      Instant.ceiling ≤ deadline.nanos := by
  rw [goDown, Binding.heldUntil?]
  cases tracker.binding.held? with
  | none => simp
  | some action => simp [Instant.add?_eq_none_iff]

/-- A step has no result exactly when it asks for a deadline beyond the clock. -/
theorem step_eq_none_iff :
    tracker.step input = none ↔ ∃ deadline, tracker.sets? input = some deadline ∧
      Instant.ceiling ≤ deadline.nanos := by
  cases input with
  | timeout now => simp [step, sets?]
  | record stamp down =>
    rw [step, Option.map_eq_none_iff]
    cases down with
    | true => cases phase : tracker.phase <;> simp [handle, sets?, phase, goDown_eq_none_iff]
    | false =>
      cases phase : tracker.phase <;>
        simp [handle, sets?, phase, goUp, Instant.add?_eq_none_iff]

/-- After an input the deadline is the one that the input asks for, or the one before it. -/
theorem Change.deadline (change : Change tracker input next firing) :
    next.deadline = tracker.sets? input ∨ next.deadline = tracker.deadline := by
  cases change with
  | begins stamp up => exact .inl (by simp [sets?, up])
  | resumes stamp bouncing => exact .inl (by simp [sets?, bouncing])
  | releases stamp held => exact .inl (by simp [sets?, held])
  | letsGo stamp decided => exact .inr rfl
  | repeats stamp down same => exact .inr rfl
  | waits now early => exact .inr rfl
  | decides now due => exact .inl rfl

/-- Whether the clock can represent the deadline. -/
def InClock (tracker : Tracker) : Prop :=
  ∀ deadline, tracker.deadline = some deadline → deadline.nanos < Instant.ceiling

/-- A step keeps the deadline within the clock. -/
theorem inClock_of_step (stepped : tracker.step input = some (next, firing))
    (inClock : tracker.InClock) : next.InClock := by
  intro deadline waits
  rcases (change_of_step stepped).deadline with asked | kept
  · refine Int.not_le.mp fun beyond => ?_
    have stuck := step_eq_none_iff.mpr ⟨deadline, asked.symm.trans waits, beyond⟩
    rw [stepped] at stuck
    contradiction
  · exact inClock deadline (kept.symm.trans waits)

/-- A look at a deadline that has come knows both ends of the press. -/
theorem Sound.ends_of_isDue (sound : tracker.Sound) {now : Instant}
    (due : tracker.isDue now = true) :
    ∃ origin up, tracker.pressedAt = some origin ∧ tracker.endOfPress now = some up ∧
      tracker.heldMillis now = (up.since origin).wholeMillis := by
  rcases sound.phase_of_isDue due with held | bouncing
  · obtain ⟨origin, began, _⟩ := sound.pressed held
    refine ⟨origin, now, began, ?_, ?_⟩
    · simp [endOfPress, held]
    · simp [heldMillis, endOfPress, held, began]
  · obtain ⟨origin, up, began, came, _⟩ := sound.debounce bouncing
    refine ⟨origin, up, began, ?_, ?_⟩
    · simp [endOfPress, bouncing, came]
    · simp [heldMillis, endOfPress, bouncing, began, came]

/-- The timer after any inputs, unless one of them asks for a deadline beyond the clock. A key that
is up or decided has none, a bouncing one waits for the end of its window, and a held one for its
long action. A timer that has come due finds an undecided press and both of its ends. -/
theorem timer_fits_phase (binding : Binding) (window : Span) (inputs : List Input) :
    ((start binding window).run? inputs = none ↔
      ∃ earlier input later moments middle deadline, inputs = earlier ++ input :: later ∧
        (start binding window).run? earlier = some (moments, middle) ∧
        middle.sets? input = some deadline ∧ Instant.ceiling ≤ deadline.nanos) ∧
      ∀ moments last, (start binding window).run? inputs = some (moments, last) →
        (last.phase = .released → last.deadline = none) ∧
        (last.phase = .handled → last.deadline = none) ∧
        (last.phase = .debounce → ∃ origin up, last.pressedAt = some origin ∧
          last.releasedAt = some up ∧ last.deadline = some (up.later window)) ∧
        (last.phase = .pressed → ∃ origin, last.pressedAt = some origin ∧
          last.deadline = binding.actions.getLast?.bind fun action =>
            if action.kind = .long then some (origin.later (.ofMillis action.trigger)) else none) ∧
        ∀ now, last.isDue now = true →
          (last.phase = .pressed ∨ last.phase = .debounce) ∧
          ∃ origin up, last.pressedAt = some origin ∧ last.endOfPress now = some up ∧
            last.heldMillis now = (up.since origin).wholeMillis := by
  refine ⟨?_, fun moments last ran => ?_⟩
  · rw [run?_eq_none_iff]
    constructor
    · rintro ⟨earlier, input, later, moments, middle, parts, ran, stuck⟩
      obtain ⟨deadline, asked, beyond⟩ := step_eq_none_iff.mp stuck
      exact ⟨earlier, input, later, moments, middle, deadline, parts, ran, asked, beyond⟩
    · rintro ⟨earlier, input, later, moments, middle, deadline, parts, ran, asked, beyond⟩
      exact ⟨earlier, input, later, moments, middle, parts, ran,
        step_eq_none_iff.mpr ⟨deadline, asked, beyond⟩⟩
  · obtain ⟨course, _⟩ := course_of_run? ran
    have sound := (sound_start binding window).along course
    obtain ⟨sameBinding, sameWindow⟩ := fixed_of_course course
    refine ⟨sound.released, sound.handled, fun bouncing => ?_, fun held => ?_,
      fun now due => ⟨sound.phase_of_isDue due, sound.ends_of_isDue due⟩⟩
    · obtain ⟨origin, up, began, came, waits⟩ := sound.debounce bouncing
      rw [sameWindow] at waits
      exact ⟨origin, up, began, came, waits⟩
    · obtain ⟨origin, began, waits⟩ := sound.pressed held
      rw [sameBinding, Binding.heldUntil?_eq] at waits
      exact ⟨origin, began, waits⟩

/-- A key that goes down at five seconds, comes up at a stamp of three, and is looked at early. -/
def disorderedPress : List Input :=
  [.record ⟨5000000000⟩ true, .record ⟨3000000000⟩ false, .timeout ⟨3009999999⟩]

/-- The run of the disordered press. -/
def disorderedRun : List Moment × Tracker :=
  ((start .shortAndLong (.ofMillis 10)).run? disorderedPress).get (by decide)

/-- The disordered press has a run. -/
theorem ran_disordered : (start .shortAndLong (.ofMillis 10)).run? disorderedPress =
    some (disorderedRun.1, disorderedRun.2) :=
  Option.eq_some_of_isSome (by decide)

/-- The statement on the timer at the disordered press: it bounces until ten milliseconds after the
release, and is then due with an empty length. -/
theorem timer_of_disorderedPress :
    (∃ origin up, disorderedRun.2.pressedAt = some origin ∧ disorderedRun.2.releasedAt = some up ∧
      disorderedRun.2.deadline = some (up.later (.ofMillis 10))) ∧
    ∃ origin up, disorderedRun.2.pressedAt = some origin ∧
      disorderedRun.2.endOfPress ⟨3010000000⟩ = some up ∧
      disorderedRun.2.heldMillis ⟨3010000000⟩ = (up.since origin).wholeMillis := by
  obtain ⟨_, _, bouncing, _, due⟩ :=
    (timer_fits_phase .shortAndLong (.ofMillis 10) disorderedPress).2 disorderedRun.1
      disorderedRun.2 ran_disordered
  exact ⟨bouncing (by decide), (due ⟨3010000000⟩ (by decide)).2⟩

end Tracker

end Keyhold
