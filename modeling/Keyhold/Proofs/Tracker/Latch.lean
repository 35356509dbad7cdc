import Keyhold.Proofs.Tracker.Run

/-!
# The firing latch

A press fires once at most. A press that is decided leaves nothing to wait for, and nothing but a
press that finds the key up makes it wait again; where the press was decided while the key was
held, the key has to come up first. `firings_latched` says so of runs with inputs in any order and
with any stamps, and counts: there are no more firings than presses that found the key up.

The count goes by what each input adds. An accepted press is under way until it is decided, so the
firings so far and the press under way never outnumber the accepted presses.
-/

namespace Keyhold.Tracker

variable {tracker next last : Tracker} {input : Input} {firing : Option Firing}
  {moments : List Moment} {now : Instant}

/-- Whether an input is a press that finds the key up, with no press under way. -/
def accepts (tracker : Tracker) (input : Input) : Bool :=
  tracker.phase == .released && input.isPress

/-! ## Between two firings -/

/-- A key that was up is due only after a press that found it up: until then it ignores
everything. -/
theorem Sound.press_of_due (sound : tracker.Sound) (course : Course Change tracker moments last)
    (phase : tracker.phase = .released) (due : last.isDue now = true) :
    ∃ press ∈ moments, press.before.accepts press.input = true := by
  induction moments generalizing tracker with
  | nil =>
    have same : tracker = last := course
    rw [← same, isDue, sound.released phase] at due
    contradiction
  | cons moment rest ih =>
    obtain ⟨same, change, further⟩ := course
    by_cases presses : moment.input.isPress = true
    · refine ⟨moment, List.mem_cons_self, ?_⟩
      simp [accepts, same, phase, presses]
    · obtain ⟨unmoved, _⟩ :=
        change.ignored (sound.ignores_of_released phase (by simpa using presses))
      rw [unmoved] at further
      obtain ⟨press, member, accepted⟩ := ih sound further phase
      exact ⟨press, List.mem_cons_of_mem _ member, accepted⟩

/-- A key whose press was decided while it was held is due only after it came up and was pressed
anew. -/
theorem Sound.release_of_due (sound : tracker.Sound) (course : Course Change tracker moments last)
    (phase : tracker.phase = .handled) (due : last.isDue now = true) :
    ∃ release press, [release, press].Sublist moments ∧ release.before.phase = .handled ∧
      release.input.isRelease = true ∧ press.before.accepts press.input = true := by
  induction moments generalizing tracker with
  | nil =>
    have same : tracker = last := course
    rw [← same, isDue, sound.handled phase] at due
    contradiction
  | cons moment rest ih =>
    obtain ⟨same, change, further⟩ := course
    by_cases releases : moment.input.isRelease = true
    · have up : moment.after.phase = .released := by
        rw [change.released_of_handled phase releases]
      obtain ⟨press, member, accepted⟩ := (change.sound sound).press_of_due further up due
      exact ⟨moment, press, (List.singleton_sublist.mpr member).cons_cons _, same ▸ phase, releases,
        accepted⟩
    · obtain ⟨unmoved, _⟩ :=
        change.ignored (sound.ignores_of_handled phase (by simpa using releases))
      rw [unmoved] at further
      obtain ⟨release, press, sublist, found⟩ := ih sound further phase
      exact ⟨release, press, sublist.cons _, found⟩

/-- A firing leaves the key up if it bounced, and decided if it was held. -/
theorem Change.phase_of_firing (change : Change tracker input next firing) (sound : tracker.Sound)
    (fires : firing.isSome = true) :
    tracker.phase = .pressed ∧ next.phase = .handled ∨
      tracker.phase = .debounce ∧ next.phase = .released := by
  obtain ⟨now, _, due, rfl⟩ := change.due_of_firing fires
  rcases sound.phase_of_isDue due with held | bouncing
  · exact .inl ⟨held, by simp [decided, held]⟩
  · exact .inr ⟨bouncing, by simp [decided, bouncing]⟩

/-! ## The count -/

/-- How many presses are under way and undecided. -/
def pending (tracker : Tracker) : Nat :=
  match tracker.phase with
  | .released => 0
  | .pressed => 1
  | .debounce => 1
  | .handled => 0

/-- A firing uses up the press under way, and only an accepted press brings one. -/
theorem Change.pending (change : Change tracker input next firing) (sound : tracker.Sound) :
    firing.toList.length + next.pending ≤
      (if tracker.accepts input = true then 1 else 0) + tracker.pending := by
  cases change with
  | begins stamp up => simp [Tracker.pending, accepts, up, Input.isPress]
  | resumes stamp bouncing => simp [Tracker.pending, bouncing]
  | releases stamp held => simp [Tracker.pending, held]
  | letsGo stamp decided => simp [Tracker.pending]
  | repeats stamp down same => simp
  | waits now early => simp
  | decides now due =>
    rcases sound.phase_of_isDue due with held | bouncing
    · simp [Tracker.pending, decided, held, accepts]
    · simp [Tracker.pending, decided, bouncing, accepts]

/-- The firings of a course and the press under way at its end do not outnumber the accepted presses
and the press under way at its start. -/
theorem firings_le (course : Course Change tracker moments last) (sound : tracker.Sound) :
    (firings moments).length + last.pending ≤
      moments.countP (fun moment => moment.before.accepts moment.input) + tracker.pending := by
  induction moments generalizing tracker with
  | nil =>
    rw [show tracker = last from course]
    exact Nat.le_refl _
  | cons moment rest ih =>
    obtain ⟨same, change, further⟩ := course
    have step := change.pending sound
    have below := ih further (change.sound sound)
    have counted : (firings (moment :: rest)).length =
        moment.output.toList.length + (firings rest).length := by
      cases fires : moment.output with
      | none => simp [firings, fires]
      | some firing => simp [firings, fires, Nat.add_comm]
    rw [counted, List.countP_cons, same]
    omega

/-! ## Whole runs -/

/-- Between two firings of a run a press finds the key up. If the first of them comes while the key
is held, the key comes up before that press. So no run fires more often than presses find the key
up. -/
theorem firings_latched {binding : Binding} {window : Span} {inputs : List Input}
    (ran : (start binding window).run? inputs = some (moments, last)) :
    (∀ earlier first between second later,
      moments = earlier ++ first :: between ++ second :: later →
      first.output.isSome = true → second.output.isSome = true →
      (∃ press ∈ between, press.before.accepts press.input = true) ∧
        (first.before.isDown = true →
          ∃ release press, [release, press].Sublist between ∧ release.before.phase = .handled ∧
            release.input.isRelease = true ∧ press.before.accepts press.input = true)) ∧
      (firings moments).length ≤
        moments.countP fun moment => moment.before.accepts moment.input := by
  obtain ⟨course, _⟩ := course_of_run? ran
  have sound := sound_start binding window
  refine ⟨?_, ?_⟩
  · rintro earlier first between second later rfl fires again
    rw [List.append_assoc] at course
    obtain ⟨middle, one, same, change, further⟩ := course_append.mp course
    obtain ⟨_, within, _, next, _⟩ := course_append.mp further
    have soundMiddle := sound.along one
    have soundNext := change.sound soundMiddle
    obtain ⟨now, _, due, _⟩ := next.due_of_firing again
    rcases change.phase_of_firing soundMiddle fires with ⟨held, phase⟩ | ⟨bouncing, phase⟩
    · obtain ⟨release, press, sublist, found⟩ := soundNext.release_of_due within phase due
      have member : press ∈ between := sublist.subset (by simp)
      exact ⟨⟨press, member, found.2.2⟩, fun _ => ⟨release, press, sublist, found⟩⟩
    · refine ⟨soundNext.press_of_due within phase due, fun down => ?_⟩
      simp [same, isDown, bouncing] at down
  · exact Nat.le_trans (Nat.le_add_right _ _) (firings_le course sound)

/-- A long press decided while the key is held, looked at again and again, and after it a short one
whose records are stamped before it. -/
def latchedPresses : List Input :=
  [.record ⟨1000000000⟩ true, .timeout ⟨5000000000⟩, .timeout ⟨9000000000⟩,
    .record ⟨900000000⟩ true, .record ⟨800000000⟩ false, .timeout ⟨9000000000⟩,
    .record ⟨300000000⟩ true, .record ⟨400000000⟩ false, .timeout ⟨9000000000⟩,
    .timeout ⟨9500000000⟩]

/-- The run of the two presses. -/
def latchedRun : List Moment × Tracker :=
  ((start .shortAndLong (.ofMillis 10)).run? latchedPresses).get (by decide)

/-- The two presses have a run. -/
theorem ran_latched : (start .shortAndLong (.ofMillis 10)).run? latchedPresses =
    some (latchedRun.1, latchedRun.2) :=
  Option.eq_some_of_isSome (by decide)

/-- The statement on the latch at the two presses: the key comes up and is pressed anew between
their two firings, and these are no more than the accepted presses. -/
theorem latch_of_latchedPresses :
    (∃ release press, [release, press].Sublist ((latchedRun.1.drop 2).take 6) ∧
      release.before.phase = .handled ∧ release.input.isRelease = true ∧
      press.before.accepts press.input = true) ∧
    (firings latchedRun.1).length = 2 ∧
    (firings latchedRun.1).length ≤
      latchedRun.1.countP fun moment => moment.before.accepts moment.input := by
  obtain ⟨between, count⟩ := firings_latched ran_latched
  refine ⟨?_, by decide, count⟩
  exact (between (latchedRun.1.take 1) (latchedRun.1.get ⟨1, by decide⟩) _
    (latchedRun.1.get ⟨8, by decide⟩) (latchedRun.1.drop 9) rfl (by decide) (by decide)).2
    (by decide)

end Keyhold.Tracker
