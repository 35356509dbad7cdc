import Keyhold.Proofs.Run
import Keyhold.Tracker

/-!
# Runs of a tracker

A run takes a tracker through inputs: records of its key and looks at its deadline. `Change`
lists the ways in which one input can change a tracker, and everything known of whole runs
follows from it by induction. `Sound` ties the fields of a tracker to its phase; a tracker that
starts with its key up is sound and stays so, whatever the order of the inputs and of their
times.

A run stops when a deadline cannot be represented; the statements are about the runs that do
not.
-/

namespace Keyhold

/-- The deadline of the key while it is held down since the given time. -/
def Binding.heldUntil? (binding : Binding) (origin : Instant) : Option Instant :=
  binding.held?.map fun action => origin.later (Span.ofMillis action.trigger)

/-- A key with a short and a long action, for runs on fixed inputs. -/
def Binding.shortAndLong : Binding :=
  ⟨116, none, [⟨.short, 800, "A", false⟩, ⟨.long, 4000, "B", false⟩]⟩

namespace Tracker

/-- Something that happens to a tracker. -/
inductive Input where
  /-- A record of the key; `down` tells a press or repeat from a release. -/
  | record (stamp : Instant) (down : Bool)
  /-- A look at the deadline. -/
  | timeout (now : Instant)
  deriving DecidableEq, Repr

namespace Input

/-- When the input happens. -/
def time : Input → Instant
  | .record stamp _ => stamp
  | .timeout now => now

/-- Whether the input is a record. -/
def isRecord : Input → Bool
  | .record _ _ => true
  | .timeout _ => false

/-- Whether the input is a press or a repeat. -/
def isPress : Input → Bool
  | .record _ down => down
  | .timeout _ => false

/-- Whether the input is a release. -/
def isRelease : Input → Bool
  | .record _ down => !down
  | .timeout _ => false

/-- A release is no press. -/
theorem isPress_of_isRelease {input : Input} (release : input.isRelease = true) :
    input.isPress = false := by
  cases input with
  | record stamp down => simpa [isRelease, isPress] using release
  | timeout now => rfl

/-- Whether one input may come before another: no record is stamped before what precedes it. -/
def inOrder (earlier : Input) : Input → Prop
  | .record stamp _ => earlier.time ≤ stamp
  | .timeout _ => True

instance (earlier later : Input) : Decidable (earlier.inOrder later) :=
  match later with
  | .record stamp _ => inferInstanceAs (Decidable (earlier.time ≤ stamp))
  | .timeout _ => inferInstanceAs (Decidable True)

/-- No press is stamped before what precedes it. -/
theorem le_of_inOrder {earlier later : Input} (order : earlier.inOrder later)
    (press : later.isPress = true) : earlier.time ≤ later.time := by
  cases later with
  | record stamp down => exact order
  | timeout now => contradiction

end Input

/-- Whether the key is down. -/
def isDown (tracker : Tracker) : Bool := tracker.phase == .pressed || tracker.phase == .handled

/-- The tracker after an input and the firing that came of it; none if a deadline cannot be
represented. -/
def step (tracker : Tracker) : Input → Option (Tracker × Option Firing)
  | .record stamp down => (tracker.handle stamp down).map fun next => (next, none)
  | .timeout now => some (tracker.expire now)

/-- One input of a run of a tracker. -/
abbrev Moment := Keyhold.Moment Tracker Input (Option Firing)

/-- The firings of moments, in order. -/
def firings (moments : List Moment) : List Firing := moments.filterMap Moment.output

/-- The moments of a run of a tracker, and the tracker at its end. -/
abbrev run? (tracker : Tracker) (inputs : List Input) : Option (List Moment × Tracker) :=
  Keyhold.run? step tracker inputs

/-! ## One input -/

/-- The ways in which an input can change a tracker. -/
inductive Change (tracker : Tracker) : Input → Tracker → Option Firing → Prop where
  /-- A press begins. -/
  | begins (stamp : Instant) (up : tracker.phase = .released) :
      Change tracker (.record stamp true)
        { tracker with
          phase := .pressed
          pressedAt := some stamp
          deadline := tracker.binding.heldUntil? stamp } none
  /-- A press goes on after a bounce. -/
  | resumes (stamp : Instant) (bouncing : tracker.phase = .debounce) :
      Change tracker (.record stamp true)
        { tracker with
          phase := .pressed
          pressedAt := some (tracker.pressedAt.getD stamp)
          deadline := tracker.binding.heldUntil? (tracker.pressedAt.getD stamp) } none
  /-- The key comes up and its press is still to be decided. -/
  | releases (stamp : Instant) (held : tracker.phase = .pressed) :
      Change tracker (.record stamp false)
        { tracker with
          phase := .debounce
          releasedAt := some stamp
          deadline := some (stamp.later tracker.window) } none
  /-- The key comes up and its press was decided before. -/
  | letsGo (stamp : Instant) (decided : tracker.phase = .handled) :
      Change tracker (.record stamp false) { tracker with phase := .released } none
  /-- A record repeats what is known of the key. -/
  | repeats (stamp : Instant) (down : Bool) (same : tracker.isDown = down) :
      Change tracker (.record stamp down) tracker none
  /-- The deadline has not come. -/
  | waits (now : Instant) (early : tracker.isDue now = false) :
      Change tracker (.timeout now) tracker none
  /-- The deadline has come and the press is decided. -/
  | decides (now : Instant) (due : tracker.isDue now = true) :
      Change tracker (.timeout now) (tracker.decided now)
        ((tracker.decide? now).map fun action => tracker.firing action (tracker.heldMillis now))

/-- Whether an input says nothing new: it repeats the level of the key, or the deadline has not
come. -/
def Ignores (tracker : Tracker) : Input → Prop
  | .record _ down => tracker.isDown = down
  | .timeout now => tracker.isDue now = false

variable {tracker next last : Tracker} {input : Input} {firing : Option Firing}

/-- A key that goes down waits for its long action, if it has one. -/
theorem eq_of_goDown {origin : Instant} (down : tracker.goDown origin = some next) :
    next = { tracker with
      phase := .pressed
      pressedAt := some origin
      deadline := tracker.binding.heldUntil? origin } := by
  unfold goDown at down
  cases held : tracker.binding.held? with
  | none =>
    rw [held] at down
    cases down
    simp only [Binding.heldUntil?, held, Option.map_none]
  | some action =>
    rw [held] at down
    obtain ⟨deadline, sum, rfl⟩ := Option.map_eq_some_iff.mp down
    simp only [Binding.heldUntil?, held, Option.map_some, Instant.eq_later_of_add? sum]

/-- A key that comes up waits for the end of the debounce window. -/
theorem eq_of_goUp {stamp : Instant} (up : tracker.goUp stamp = some next) :
    next = { tracker with
      phase := .debounce
      releasedAt := some stamp
      deadline := some (stamp.later tracker.window) } := by
  obtain ⟨deadline, sum, rfl⟩ := Option.map_eq_some_iff.mp up
  rw [Instant.eq_later_of_add? sum]

/-- A record changes a tracker in one of the listed ways. -/
theorem change_of_handle {stamp : Instant} {down : Bool}
    (handled : tracker.handle stamp down = some next) :
    Change tracker (.record stamp down) next none := by
  unfold handle at handled
  split at handled
  case h_1 up =>
    rw [eq_of_goDown handled]
    exact .begins stamp up
  case h_2 bouncing =>
    rw [eq_of_goDown handled]
    exact .resumes stamp bouncing
  case h_3 held =>
    rw [eq_of_goUp handled]
    exact .releases stamp held
  case h_4 decided =>
    cases handled
    exact .letsGo stamp decided
  all_goals
    rename_i phase
    cases handled
    exact .repeats stamp _ (by simp [isDown, phase])

/-- Every input changes a tracker in one of the listed ways. -/
theorem change_of_step (stepped : tracker.step input = some (next, firing)) :
    Change tracker input next firing := by
  cases input with
  | record stamp down =>
    obtain ⟨after, handled, same⟩ := Option.map_eq_some_iff.mp stepped
    cases same
    exact change_of_handle handled
  | timeout now =>
    simp only [step, expire, Option.some.injEq] at stepped
    split at stepped
    · rename_i due
      cases stepped
      exact .decides now due
    · rename_i early
      cases stepped
      exact .waits now (by simpa using early)

/-- A look at the deadline changes a tracker in one of the listed ways. -/
theorem change_expire (tracker : Tracker) (now : Instant) :
    Change tracker (.timeout now) (tracker.expire now).1 (tracker.expire now).2 :=
  change_of_step rfl

/-- A press of a key that is up and does not bounce starts at its own stamp. -/
theorem Change.begins_of_released (change : Change tracker input next firing)
    (phase : tracker.phase = .released) (presses : input.isPress = true) :
    next = { tracker with
      phase := .pressed
      pressedAt := some input.time
      deadline := tracker.binding.heldUntil? input.time } := by
  cases change with
  | begins stamp up => rfl
  | resumes stamp bouncing => simp [phase] at bouncing
  | repeats stamp down level =>
    rw [isDown, phase] at level
    subst level
    contradiction
  | _ => contradiction

/-- A press of a bouncing key starts when the press before the bounce did. -/
theorem Change.resumes_of_bouncing (change : Change tracker input next firing)
    (phase : tracker.phase = .debounce) (presses : input.isPress = true) :
    next = { tracker with
      phase := .pressed
      pressedAt := some (tracker.pressedAt.getD input.time)
      deadline := tracker.binding.heldUntil? (tracker.pressedAt.getD input.time) } := by
  cases change with
  | begins stamp up => simp [phase] at up
  | resumes stamp bouncing => rfl
  | repeats stamp down level =>
    rw [isDown, phase] at level
    subst level
    contradiction
  | _ => contradiction

/-- A release of a press that is still to be decided opens the debounce window. -/
theorem Change.bounces_of_pressed (change : Change tracker input next firing)
    (phase : tracker.phase = .pressed) (releases : input.isRelease = true) :
    next = { tracker with
      phase := .debounce
      releasedAt := some input.time
      deadline := some (input.time.later tracker.window) } := by
  cases change with
  | releases stamp held => rfl
  | letsGo stamp decided => simp [phase] at decided
  | repeats stamp down level =>
    rw [isDown, phase] at level
    subst level
    contradiction
  | _ => contradiction

/-- A release ends a press that was decided before. -/
theorem Change.released_of_handled (change : Change tracker input next firing)
    (phase : tracker.phase = .handled) (releases : input.isRelease = true) :
    next = { tracker with phase := .released } := by
  cases change with
  | releases stamp held => simp [phase] at held
  | letsGo stamp _ => rfl
  | repeats stamp down level =>
    rw [isDown, phase] at level
    subst level
    contradiction
  | _ => contradiction

/-- An input that says nothing new changes nothing. -/
theorem Change.ignored (change : Change tracker input next firing)
    (ignores : tracker.Ignores input) : next = tracker ∧ firing = none := by
  cases change with
  | begins stamp up => simp [Ignores, isDown, up] at ignores
  | resumes stamp bouncing => simp [Ignores, isDown, bouncing] at ignores
  | releases stamp held => simp [Ignores, isDown, held] at ignores
  | letsGo stamp decided => simp [Ignores, isDown, decided] at ignores
  | repeats stamp down same => exact ⟨rfl, rfl⟩
  | waits now early => exact ⟨rfl, rfl⟩
  | decides now due =>
    have early : tracker.isDue now = false := ignores
    rw [due] at early
    contradiction

/-- A key is due when it waits for a moment that has come. -/
theorem isDue_iff {now : Instant} :
    tracker.isDue now = true ↔ ∃ deadline, tracker.deadline = some deadline ∧ deadline ≤ now := by
  simp [isDue, Option.any_eq_true]

/-- A look at a deadline that has not come changes nothing. -/
theorem expire_of_early {now : Instant} (early : tracker.isDue now = false) :
    tracker.expire now = (tracker, none) := by
  rw [expire, if_neg (by simp [early])]

/-! ## Soundness -/

/-- How the fields of a tracker fit its phase. -/
structure Sound (tracker : Tracker) : Prop where
  /-- A key that is up waits for nothing. -/
  released : tracker.phase = .released → tracker.deadline = none
  /-- A held key waits for its long action, counted from the start of the press. -/
  pressed : tracker.phase = .pressed → ∃ origin, tracker.pressedAt = some origin ∧
    tracker.deadline = tracker.binding.heldUntil? origin
  /-- A key that came up waits for the end of the debounce window. -/
  debounce : tracker.phase = .debounce → ∃ origin up, tracker.pressedAt = some origin ∧
    tracker.releasedAt = some up ∧ tracker.deadline = some (up.later tracker.window)
  /-- A key whose press was decided waits for nothing. -/
  handled : tracker.phase = .handled → tracker.deadline = none

/-- A tracker that starts with its key up is sound. -/
theorem sound_start (binding : Binding) (window : Span) : (start binding window).Sound where
  released _ := rfl
  pressed := nofun
  debounce := nofun
  handled := nofun

/-- A sound tracker that is due is held or bouncing. -/
theorem Sound.phase_of_isDue (sound : tracker.Sound) {now : Instant}
    (due : tracker.isDue now = true) : tracker.phase = .pressed ∨ tracker.phase = .debounce := by
  cases phase : tracker.phase with
  | released => simp [isDue, sound.released phase] at due
  | pressed => exact .inl rfl
  | debounce => exact .inr rfl
  | handled => simp [isDue, sound.handled phase] at due

/-- A look at a deadline that has come changes the phase. -/
theorem Sound.phase_expire_ne (sound : tracker.Sound) {now : Instant}
    (due : tracker.isDue now = true) : (tracker.expire now).1.phase ≠ tracker.phase := by
  rw [expire, if_pos due]
  rcases sound.phase_of_isDue due with held | bouncing
  · simp [decided, held]
  · simp [decided, bouncing]

/-- A sound key that is up and does not bounce ignores all but presses. -/
theorem Sound.ignores_of_released (sound : tracker.Sound) (phase : tracker.phase = .released)
    (quiet : input.isPress = false) : tracker.Ignores input := by
  cases input with
  | record stamp down =>
    rw [show down = false from quiet]
    simp [Ignores, isDown, phase]
  | timeout now => simp [Ignores, isDue, sound.released phase]

/-- A sound key whose press was decided ignores all but releases. -/
theorem Sound.ignores_of_handled (sound : tracker.Sound) (phase : tracker.phase = .handled)
    (quiet : input.isRelease = false) : tracker.Ignores input := by
  cases input with
  | record stamp down =>
    have level : down = true := by simpa [Input.isRelease] using quiet
    rw [level]
    simp [Ignores, isDown, phase]
  | timeout now => simp [Ignores, isDue, sound.handled phase]

/-- A bouncing key ignores all but presses and looks after the window. -/
theorem ignores_of_bouncing {deadline : Instant} (phase : tracker.phase = .debounce)
    (waits : tracker.deadline = some deadline) (quiet : input.isPress = false)
    (unlooked : ∀ now, input = .timeout now → ¬ deadline ≤ now) : tracker.Ignores input := by
  cases input with
  | record stamp down =>
    rw [show down = false from quiet]
    simp [Ignores, isDown, phase]
  | timeout now => simpa [Ignores, isDue, waits] using unlooked now rfl

/-- An input keeps a tracker sound. -/
theorem Change.sound (change : Change tracker input next firing) (sound : tracker.Sound) :
    next.Sound := by
  cases change with
  | begins stamp up => exact ⟨nofun, fun _ => ⟨stamp, rfl, rfl⟩, nofun, nofun⟩
  | resumes stamp bouncing => exact ⟨nofun, fun _ => ⟨_, rfl, rfl⟩, nofun, nofun⟩
  | releases stamp held =>
    obtain ⟨origin, pressed, _⟩ := sound.pressed held
    exact ⟨nofun, nofun, fun _ => ⟨origin, stamp, pressed, rfl, rfl⟩, nofun⟩
  | letsGo stamp decided => exact ⟨fun _ => sound.handled decided, nofun, nofun, nofun⟩
  | repeats stamp down same => exact sound
  | waits now early => exact sound
  | decides now due =>
    refine ⟨fun _ => rfl, fun phase => ?_, fun phase => ?_, fun _ => rfl⟩
    all_goals
      simp only [decided] at phase
      split at phase <;> contradiction

/-- An input changes neither the binding nor the debounce window. -/
theorem Change.fixed (change : Change tracker input next firing) :
    next.binding = tracker.binding ∧ next.window = tracker.window := by
  cases change <;> exact ⟨rfl, rfl⟩

/-- Only a look at the deadline fires. -/
theorem Change.due_of_firing (change : Change tracker input next firing)
    (fires : firing.isSome = true) :
    ∃ now, input = .timeout now ∧ tracker.isDue now = true ∧ next = tracker.decided now := by
  cases change with
  | decides now due => exact ⟨now, rfl, due, rfl⟩
  | _ => contradiction

/-! ## Whole runs -/

variable {moments : List Moment}

/-- The moments of a run of a tracker are a course over its inputs. -/
theorem course_of_run? {inputs : List Input} (ran : tracker.run? inputs = some (moments, last)) :
    Course Change tracker moments last ∧ moments.map Moment.input = inputs :=
  Keyhold.course_of_run? change_of_step ran

/-- Sound trackers stay sound. -/
theorem Sound.along (sound : tracker.Sound) (course : Course Change tracker moments last) :
    last.Sound :=
  course.keeps Change.sound sound

/-- Runs change neither the binding nor the debounce window. -/
theorem fixed_of_course (course : Course Change tracker moments last) :
    last.binding = tracker.binding ∧ last.window = tracker.window :=
  course.keeps (P := fun later => later.binding = tracker.binding ∧ later.window = tracker.window)
    (fun change same => ⟨change.fixed.1.trans same.1, change.fixed.2.trans same.2⟩) ⟨rfl, rfl⟩

/-- Inputs that say nothing new change nothing. -/
theorem unmoved_of_ignored (course : Course Change tracker moments last)
    (ignores : ∀ moment ∈ moments, tracker.Ignores moment.input) :
    last = tracker ∧ ∀ moment ∈ moments, moment.output = none := by
  induction moments generalizing last with
  | nil => exact ⟨course.symm, fun _ member => absurd member List.not_mem_nil⟩
  | cons moment rest ih =>
    obtain ⟨_, change, further⟩ := course
    obtain ⟨same, silent⟩ := change.ignored (ignores moment List.mem_cons_self)
    rw [same] at further
    obtain ⟨unmoved, others⟩ := ih further
      fun other member => ignores other (List.mem_cons_of_mem _ member)
    refine ⟨unmoved, fun other member => ?_⟩
    rcases List.mem_cons.mp member with rfl | member
    · exact silent
    · exact others other member

end Tracker

end Keyhold
