import Keyhold.Proofs.Tracker.Verdict

/-!
# Records of one batch

Between two looks at the deadline a tracker meets records only. A press that is under way and
undecided stays so, and keeps its start, however often the key bounces; looks before the deadline
are no different from records here. If the key is up at the end, its press ended at a release with
no press after it, and is judged by the length up to that release whenever the deadline is looked
at next.
-/

namespace Keyhold.Tracker

variable {tracker next last : Tracker} {input : Input} {firing : Option Firing}
  {moments : List Moment} {origin up now : Instant}

/-- Whether a press is under way and undecided that started at the given time. -/
structure Undecided (tracker : Tracker) (origin : Instant) : Prop where
  /-- The key is down or bouncing. -/
  phase : tracker.phase = .pressed ∨ tracker.phase = .debounce
  /-- The start of the press. -/
  began : tracker.pressedAt = some origin

/-- Whether every look at the deadline comes before it. -/
def EarlyLooks (moments : List Moment) : Prop :=
  ∀ moment ∈ moments, ∀ now, moment.input = .timeout now → moment.before.isDue now = false

/-- Among records there are no looks at the deadline. -/
theorem earlyLooks_of_records (records : ∀ moment ∈ moments, moment.input.isRecord = true) :
    EarlyLooks moments := by
  intro moment member now isTimeout
  have isRecord := records moment member
  rw [isTimeout] at isRecord
  contradiction

/-- An input that does not look at a deadline that has come keeps an undecided press and its
start. -/
theorem Undecided.step (undecided : tracker.Undecided origin)
    (change : Change tracker input next firing)
    (early : ∀ now, input = .timeout now → tracker.isDue now = false) :
    next.Undecided origin := by
  obtain ⟨phase, began⟩ := undecided
  cases change with
  | begins _ isUp => simp [isUp] at phase
  | resumes _ bouncing => exact ⟨.inl rfl, by simp [began]⟩
  | releases _ held => exact ⟨.inr rfl, began⟩
  | letsGo _ decided => simp [decided] at phase
  | repeats _ _ same => exact ⟨phase, began⟩
  | waits _ _ => exact ⟨phase, began⟩
  | decides now due =>
    rw [early now rfl] at due
    contradiction

/-- A bouncing key ignores records that are no presses. -/
theorem Sound.ignores_record (sound : tracker.Sound) (phase : tracker.phase = .debounce)
    (isRecord : input.isRecord = true) (quiet : input.isPress = false) :
    tracker.Ignores input := by
  obtain ⟨_, _, _, _, waits⟩ := sound.debounce phase
  refine ignores_of_bouncing phase waits quiet fun now isTimeout => ?_
  rw [isTimeout] at isRecord
  contradiction

/-- An undecided press stays so, and keeps its start, unless someone looks at its deadline when that
has come. -/
theorem Undecided.along (undecided : tracker.Undecided origin)
    (course : Course Change tracker moments last) (early : EarlyLooks moments) :
    last.Undecided origin := by
  induction moments generalizing tracker with
  | nil =>
    rw [← show tracker = last from course]
    exact undecided
  | cons moment rest ih =>
    obtain ⟨same, change, further⟩ := course
    have after := undecided.step change fun now isTimeout =>
      same ▸ early moment List.mem_cons_self now isTimeout
    exact ih after further fun other member => early other (List.mem_cons_of_mem _ member)

/-- A bouncing key ignores no press. -/
theorem isPress_of_ignores (phase : tracker.phase = .debounce) (ignores : tracker.Ignores input) :
    input.isPress = false := by
  cases input with
  | record stamp down =>
    rw [Ignores, isDown, phase] at ignores
    exact ignores.symm
  | timeout now => rfl

/-- A key does not bounce once its press has been decided. -/
theorem phase_decided_ne (tracker : Tracker) (now : Instant) :
    (tracker.decided now).phase ≠ .debounce := by
  rw [decided]
  dsimp only
  split <;> decide

/-- A key that bounces was bouncing all along, or came up in a release that found it held; it has
ignored everything since. -/
theorem bouncing_since (course : Course Change tracker moments last)
    (bouncing : last.phase = .debounce) :
    (last = tracker ∧
        ∀ moment ∈ moments, moment.before = last ∧ last.Ignores moment.input) ∨
      ∃ earlier release later, moments = earlier ++ release :: later ∧
        release.before.phase = .pressed ∧ release.input.isRelease = true ∧
        last = release.after ∧
        ∀ moment ∈ later, moment.before = last ∧ last.Ignores moment.input := by
  induction moments generalizing tracker with
  | nil => exact .inl ⟨course.symm, fun _ member => absurd member List.not_mem_nil⟩
  | cons moment rest ih =>
    obtain ⟨start, change, further⟩ := course
    rcases ih further with ⟨same, idle⟩ | ⟨earlier, release, later, rfl, found⟩
    · have stays (unmoved : moment.after = tracker) (ignores : tracker.Ignores moment.input) :
          last = tracker ∧
            ∀ other ∈ moment :: rest, other.before = last ∧ last.Ignores other.input := by
        refine ⟨same.trans unmoved, fun other member => ?_⟩
        rcases List.mem_cons.mp member with rfl | member
        · rw [same, unmoved]
          exact ⟨start, ignores⟩
        · exact idle other member
      rw [same] at bouncing
      rcases moment with ⟨before, input, after, firing⟩
      cases change with
      | begins stamp isUp => contradiction
      | resumes stamp _ => contradiction
      | releases stamp held =>
        exact .inr ⟨[], _, rest, rfl, start ▸ held, rfl, same, idle⟩
      | letsGo stamp _ => contradiction
      | repeats stamp down level => exact .inl (stays rfl level)
      | waits now early => exact .inl (stays rfl early)
      | decides now due => exact absurd bouncing (tracker.phase_decided_ne now)
    · exact .inr ⟨moment :: earlier, release, later, rfl, found⟩

/-- A key that bounces came up at a release with no press after it, or was bouncing before and not
pressed since. -/
theorem release_of_bouncing (course : Course Change tracker moments last)
    (bouncing : last.phase = .debounce) :
    tracker.phase = .debounce ∨
      ∃ earlier release later, moments.map Moment.input = earlier ++ release :: later ∧
        release.isRelease = true ∧ (∀ input ∈ later, input.isPress = false) ∧
        last.releasedAt = some release.time := by
  rcases bouncing_since course bouncing with ⟨same, _⟩ |
    ⟨earlier, release, later, rfl, held, releases, same, idle⟩
  · exact .inl (same ▸ bouncing)
  · obtain ⟨_, _, isBefore, change, _⟩ := course_append.mp course
    refine .inr ⟨earlier.map Moment.input, release.input, later.map Moment.input,
      by rw [List.map_append, List.map_cons], releases, fun input member => ?_, ?_⟩
    · obtain ⟨moment, found, rfl⟩ := List.mem_map.mp member
      exact isPress_of_ignores bouncing (idle moment found).2
    · rw [same, change.bounces_of_pressed (isBefore ▸ held) releases]

/-- An undecided press that records bring to an end at a release is judged by a length that does
not reach beyond that release, if the releases right before it are not stamped later. Behind the
release nothing moves the key any more. -/
theorem bounces_of_release {earlier later : List Input} {release : Input}
    (course : Course Change tracker moments last) (sound : tracker.Sound)
    (phase : tracker.phase = .pressed) (began : tracker.pressedAt = some origin)
    (inputs : moments.map Moment.input = earlier ++ release :: later)
    (records : ∀ moment ∈ moments, moment.input.isRecord = true)
    (releases : release.isRelease = true) (quiet : ∀ input ∈ later, input.isPress = false)
    (steady : ∀ before other between, earlier = before ++ other :: between →
      other.isRelease = true →
      (∃ input ∈ between, input.isPress = true) ∨ other.time ≤ release.time) :
    last.phase = .debounce ∧ last.pressedAt = some origin ∧
      ∃ up, last.releasedAt = some up ∧ up ≤ release.time := by
  obtain ⟨first, others, rfl, firstInputs, otherInputs⟩ := List.map_eq_append_iff.mp inputs
  obtain ⟨moment, rest, rfl, rfl, restInputs⟩ := List.map_eq_cons_iff.mp otherInputs
  obtain ⟨middle, one, _, change, further⟩ := course_append.mp course
  have recordsFirst : ∀ moment ∈ first, moment.input.isRecord = true :=
    fun other member => records other (List.mem_append_left _ member)
  have recordsRest : ∀ other ∈ moment :: rest, other.input.isRecord = true :=
    fun other member => records other (List.mem_append_right _ member)
  have undecided := Undecided.along ⟨.inl phase, began⟩ one (earlyLooks_of_records recordsFirst)
  have soundMiddle := sound.along one
  have soundAfter := change.sound soundMiddle
  have stays (bouncing : moment.after.phase = .debounce) : last = moment.after :=
    (unmoved_of_ignored further fun other member => soundAfter.ignores_record bouncing
      (recordsRest other (List.mem_cons_of_mem _ member))
      (quiet _ (restInputs ▸ List.mem_map_of_mem member))).1
  rcases undecided.phase with held | bouncing
  · have bounced := change.bounces_of_pressed held releases
    rw [stays (by rw [bounced]), bounced]
    exact ⟨rfl, undecided.began, _, rfl, Int.le_refl _⟩
  · obtain ⟨unmoved, _⟩ := change.ignored (soundMiddle.ignores_record bouncing
      (recordsRest moment List.mem_cons_self) (Input.isPress_of_isRelease releases))
    rw [stays (unmoved ▸ bouncing), unmoved]
    rcases release_of_bouncing one bouncing with other |
      ⟨before, other, between, parts, isRelease, unpressed, came⟩
    · rw [phase] at other
      contradiction
    · refine ⟨bouncing, undecided.began, _, came, ?_⟩
      rcases steady before other between (firstInputs.symm.trans parts) isRelease with
        ⟨input, member, press⟩ | order
      · rw [unpressed input member] at press
        contradiction
      · exact order

/-! ## Looks at the deadline -/

/-- Whether a press that started at the given time has come to its end, no later than another
time. -/
inductive Ended (tracker : Tracker) (origin bound : Instant) : Prop where
  /-- The key bounces and the press is still to be decided. -/
  | waits (phase : tracker.phase = .debounce) (began : tracker.pressedAt = some origin)
      {up : Instant} (came : tracker.releasedAt = some up) (order : up ≤ bound)
  /-- The press has been decided. -/
  | settled (phase : tracker.phase = .released) (idle : tracker.deadline = none)

/-- A look at the deadline does not undo the end of a press. -/
theorem Ended.look {bound : Instant} (ended : tracker.Ended origin bound)
    (change : Change tracker (.timeout now) next firing) : next.Ended origin bound := by
  cases change with
  | waits _ early => exact ended
  | decides _ due =>
    cases ended with
    | waits phase began came order => exact .settled (by simp [decided, phase]) rfl
    | settled phase idle => simp [isDue, idle] at due

/-- A press that has come to its end leads to no long action longer than it. -/
theorem Ended.decided_long {bound : Instant} {action : Action}
    (ended : tracker.Ended origin bound) (due : tracker.isDue now = true)
    (chosen : tracker.decide? now = some action) (long : action.kind = .long) :
    (Span.ofMillis action.trigger).nanos ≤ (bound.since origin).nanos := by
  cases ended with
  | settled phase idle => simp [isDue, idle] at due
  | waits phase began came order =>
    rename_i up
    have held : tracker.heldMillis now = (up.since origin).wholeMillis := by
      simp [heldMillis, endOfPress, phase, began, came]
    rw [decide?, held] at chosen
    have applies := Action.appliesTo_of_choose? chosen
    have reached : action.trigger ≤ (up.since origin).wholeMillis := by
      simpa [Action.appliesTo, long] using applies
    have length := Span.ofMillis_le_of_le_wholeMillis reached
    have bounded : (up.since origin).nanos ≤ (bound.since origin).nanos := by
      have order := Instant.le_iff.mp order
      simp only [Instant.since]
      omega
    exact Nat.le_trans length bounded

end Keyhold.Tracker
