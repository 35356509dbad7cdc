import Keyhold.Proofs.Tracker.Bounce
import Keyhold.Proofs.Tracker.Timer

/-!
# A press through its bounces

A press that begins when the key is up may bounce and repeat any number of times. As long as no one
looks at its deadline when that has come, it remains the same press. `bounces_keep_origin` says what
this means, whatever the stamps of the records: the start stays where it was, the long action stays
due when it was, and no bounce asks the clock for more than the first press did. Once the key
bounces, the verdict is settled by the last release that found it held, and lateness does not change
it.
-/

namespace Keyhold.Tracker

variable {tracker next last : Tracker} {firing : Option Firing} {inputs : List Input}
  {moments : List Moment} {origin stamp : Instant}

/-- A press that begins is undecided from then on, and its tracker is sound whatever it was
before. -/
theorem undecided_of_begins (change : Change tracker (.record origin true) next firing)
    (up : tracker.phase = .released) : next.Undecided origin ∧ next.Sound := by
  rw [change.begins_of_released up rfl]
  exact ⟨⟨.inl rfl, rfl⟩, nofun, fun _ => ⟨origin, rfl, rfl⟩, nofun, nofun⟩

/-- A held key whose press is undecided waits for its long action, counted from the start. -/
theorem Undecided.deadline (undecided : tracker.Undecided origin) (sound : tracker.Sound)
    (held : tracker.phase = .pressed) :
    tracker.deadline = tracker.binding.heldUntil? origin := by
  obtain ⟨start, began, deadline⟩ := sound.pressed held
  rw [undecided.began] at began
  cases began
  exact deadline

/-- An undecided press whose long action comes due within the clock stops at nothing but a release
whose window ends beyond the clock. -/
theorem Undecided.handle_eq_none_iff (undecided : tracker.Undecided origin)
    (within : ∀ deadline, tracker.binding.heldUntil? origin = some deadline →
      deadline.nanos < Instant.ceiling) {down : Bool} :
    tracker.handle stamp down = none ↔
      tracker.phase = .pressed ∧ down = false ∧
        Instant.ceiling ≤ (stamp.later tracker.window).nanos := by
  rw [← Option.map_eq_none_iff (f := fun next => (next, (none : Option Firing))),
    show (tracker.handle stamp down).map _ = tracker.step (.record stamp down) from rfl,
    step_eq_none_iff]
  rcases undecided.phase with held | bouncing
  · cases down <;> simp [sets?, held]
  · cases down with
    | false => simp [sets?, bouncing]
    | true =>
      simp only [sets?, bouncing, undecided.began, Option.getD_some, reduceCtorEq, false_and,
        iff_false]
      rintro ⟨deadline, pending, beyond⟩
      exact absurd (within deadline pending) (Int.not_lt.mpr beyond)

/-- A press that has begun comes due within the clock. -/
theorem within_of_begins (began : tracker.step (.record origin true) = some (next, firing))
    (up : tracker.phase = .released) {deadline : Instant}
    (pending : tracker.binding.heldUntil? origin = some deadline) :
    deadline.nanos < Instant.ceiling := by
  refine Int.not_le.mp fun beyond => ?_
  have stuck : tracker.step (.record origin true) = none :=
    step_eq_none_iff.mpr ⟨deadline, by rw [sets?, up, pending], beyond⟩
  rw [began] at stuck
  contradiction

/-- A held key that bounces later came up in a release after which nothing found it held; this
release opened the window. -/
theorem release_of_held (course : Course Change tracker moments last)
    (held : tracker.phase = .pressed) (bouncing : last.phase = .debounce) :
    ∃ before release after, moments = before ++ release :: after ∧
      release.input.isRelease = true ∧ release.before.phase = .pressed ∧
      (∀ moment ∈ after, moment.before.phase ≠ .pressed) ∧
      last.releasedAt = some release.input.time ∧
      last.deadline = some (release.input.time.later tracker.window) := by
  rcases bouncing_since course bouncing with ⟨unmoved, _⟩ |
    ⟨before, release, after, rfl, heldThen, releases, isAfter, idle⟩
  · rw [unmoved, held] at bouncing
    contradiction
  · obtain ⟨middle, earlier, isBefore, change, _⟩ := course_append.mp course
    have bounced := change.bounces_of_pressed (isBefore ▸ heldThen) releases
    rw [← isAfter] at bounced
    refine ⟨before, release, after, rfl, releases, heldThen, fun moment member => ?_, ?_, ?_⟩
    · rw [(idle moment member).1, bouncing]
      nofun
    · rw [bounced]
    · rw [bounced, ← (fixed_of_course earlier).2]

/-- The start of a press and the release that ended it settle the verdict on a bouncing key: any
look after the window ends the press with the action for the time between them. -/
theorem expire_of_bouncing {up now : Instant} (phase : tracker.phase = .debounce)
    (began : tracker.pressedAt = some origin) (came : tracker.releasedAt = some up)
    (due : tracker.isDue now = true) :
    tracker.expire now = ({ tracker with phase := .released, deadline := none },
      tracker.verdict (up.since origin)) := by
  obtain ⟨next, fires⟩ := (tracker.change_expire now).verdict_of_bouncing phase began came due
  exact Prod.ext next fires

/-- The milliseconds between two readings are counted in 64 bits; there are none to a reading that
is not later. -/
theorem toNat_wholeMillis_since (later earlier : Instant) :
    (later.since earlier).wholeMillis.toNat =
      (later.nanos - earlier.nanos).toNat / 1000000 % UInt64.size := by
  rw [Instant.since, Span.wholeMillis, UInt64.toNat_ofNat']

/-- A press that begins when the key is up goes on, from the same start, through any records and any
looks that come before its deadline. While the key is held the press waits for the long action
counted from that start. When the key bounces, the last release that found it held opened the
window, and any look after the window ends the press with the action for the whole milliseconds from
the start to that release. Only a release whose window ends beyond the clock can stop the press. -/
theorem bounces_keep_origin (up : tracker.phase = .released)
    (ran : tracker.run? (.record origin true :: inputs) = some (moments, last))
    (early : ∀ moment ∈ moments, ∀ now, moment.input = .timeout now →
      moment.before.isDue now = false) :
    (last.phase = .pressed ∨ last.phase = .debounce) ∧
    last.pressedAt = some origin ∧
    (last.phase = .pressed → last.deadline =
      tracker.binding.actions.getLast?.bind fun action =>
        if action.kind = .long then some (origin.later (.ofMillis action.trigger)) else none) ∧
    (last.phase = .debounce →
      ∃ before release after, moments = before ++ release :: after ∧
        release.input.isRelease = true ∧ release.before.phase = .pressed ∧
        (∀ moment ∈ after, moment.before.phase ≠ .pressed) ∧
        last.deadline = some (release.input.time.later tracker.window) ∧
        ∃ elapsed : UInt64,
          elapsed.toNat = (release.input.time.nanos - origin.nanos).toNat / 1000000 % UInt64.size ∧
          ∀ now, release.input.time.later tracker.window ≤ now →
            last.expire now = ({ last with phase := .released, deadline := none },
              (Action.choose? tracker.binding.actions elapsed).map fun action =>
                ⟨tracker.binding.code, tracker.binding.name, action.command, action.exits,
                  elapsed⟩)) ∧
    ∀ stamp down, last.handle stamp down = none ↔
      last.phase = .pressed ∧ down = false ∧
        Instant.ceiling ≤ (stamp.later tracker.window).nanos := by
  obtain ⟨_, stepped, _⟩ := Option.bind_eq_some_iff.mp ran
  obtain ⟨course, isInputs⟩ := course_of_run? ran
  obtain ⟨press, rest, rfl, isPress, _⟩ := List.map_eq_cons_iff.mp isInputs
  obtain ⟨same, change, further⟩ := course
  obtain ⟨sameBinding, sameWindow⟩ :=
    fixed_of_course (show Course Change tracker (press :: rest) last from ⟨same, change, further⟩)
  rw [isPress] at change
  obtain ⟨begun, soundBegun⟩ := undecided_of_begins change up
  have undecided := begun.along further fun moment member =>
    early moment (List.mem_cons_of_mem _ member)
  have sound := soundBegun.along further
  refine ⟨undecided.phase, undecided.began, fun held => ?_, fun bouncing => ?_,
    fun stamp down => ?_⟩
  · rw [undecided.deadline sound held, sameBinding, Binding.heldUntil?_eq]
  · have held : press.after.phase = .pressed := by rw [change.begins_of_released up rfl]
    obtain ⟨before, release, after, rfl, releases, heldThen, final, came, deadline⟩ :=
      release_of_held further held bouncing
    rw [change.fixed.2] at deadline
    refine ⟨press :: before, release, after, rfl, releases, heldThen, final, deadline,
      (release.input.time.since origin).wholeMillis, toNat_wholeMillis_since _ _, ?_⟩
    intro now passed
    have due : last.isDue now = true := by simpa [isDue, deadline] using passed
    rw [expire_of_bouncing bouncing undecided.began came due, verdict_eq sameBinding]
    rfl
  · rw [undecided.handle_eq_none_iff, sameWindow]
    intro deadline pending
    rw [sameBinding] at pending
    exact within_of_begins stepped up pending

/-- A press that repeats, bounces and is looked at early, and comes up twice after the bounce. -/
def bouncingPress : List Input :=
  [.record ⟨0⟩ true, .record ⟨10000000⟩ true, .record ⟨100000000⟩ false,
    .record ⟨104000000⟩ true, .timeout ⟨108000000⟩, .record ⟨700000000⟩ false,
    .record ⟨703000000⟩ false, .timeout ⟨705000000⟩]

/-- The run of the bouncing press. -/
def bouncingRun : List Moment × Tracker :=
  ((start .shortAndLong (.ofMillis 10)).run? bouncingPress).get (by decide)

/-- The bouncing press has a run. -/
theorem ran_bouncing : (start .shortAndLong (.ofMillis 10)).run? bouncingPress =
    some (bouncingRun.1, bouncingRun.2) :=
  Option.eq_some_of_isSome (by decide)

/-- No look at the bouncing press comes at its deadline or after it. -/
theorem early_bouncing : ∀ moment ∈ bouncingRun.1, ∀ now, moment.input = .timeout now →
    moment.before.isDue now = false := by
  intro moment member now isTimeout
  have early : ∀ moment ∈ bouncingRun.1, moment.input.isRecord = false →
      moment.before.isDue moment.input.time = false := by decide
  have found := early moment member (by rw [isTimeout]; rfl)
  rwa [isTimeout] at found

/-- The statement on bounces at the bouncing press: the press still starts at zero, and a look a
minute later decides on the 700 milliseconds up to the last release that found the key held. -/
theorem origin_of_bouncingPress :
    bouncingRun.2.pressedAt = some ⟨0⟩ ∧
    bouncingRun.2.expire ⟨60000000000⟩ =
      ({ bouncingRun.2 with phase := .released, deadline := none },
        some ⟨116, none, "A", false, 700⟩) := by
  obtain ⟨_, began, _, settled, _⟩ := bounces_keep_origin (by decide) ran_bouncing early_bouncing
  obtain ⟨_, release, _, _, _, _, _, deadline, elapsed, counted, decides⟩ := settled (by decide)
  have window : bouncingRun.2.deadline = some ⟨710000000⟩ := by decide
  have time : release.input.time.nanos = 700000000 := by
    have sum : (710000000 : Int) = release.input.time.nanos + (10000000 : Nat) :=
      congrArg Instant.nanos (Option.some.inj (window.symm.trans deadline))
    omega
  have isElapsed : elapsed = 700 := UInt64.toNat_inj.mp (by rw [counted, time]; rfl)
  rw [isElapsed] at decides
  refine ⟨began, decides ⟨60000000000⟩ ?_⟩
  rw [Instant.le_iff, Instant.nanos_later, time]
  decide

end Keyhold.Tracker
