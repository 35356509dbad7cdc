import Keyhold.Proofs.Panel.Run
import Keyhold.Proofs.Tracker.Gap

/-!
# Presses in one batch

The daemon feeds the panel in rounds: it retires deadlines and then hands over a batch of
records, all stamped no later than the retirement. Where two presses of a key lie apart by the
debounce window or more, the second starts anew if they come in different batches, because a
retirement between them decides the first. In one batch nothing comes between them, and an
undecided press swallows the next. `separate_press_restarts_unless_batched` gives every case,
and for a press that was decided while the key was held the exact condition under which the
action that ran is the one for the press's own length.
-/

namespace Keyhold.Panel

namespace Round

/-- Whether no record of the round is stamped after its retirement. -/
def Timely (round : Round) : Prop := ∀ event ∈ round.events, event.stamp ≤ round.now

instance (round : Round) : Decidable round.Timely :=
  inferInstanceAs (Decidable (∀ event ∈ round.events, event.stamp ≤ round.now))

end Round

/-- Whether every record is stamped no later than the last retirement before it. -/
def Timely (latest : Option Instant) : List Input → Prop
  | [] => True
  | .feed event :: rest => (∃ now, latest = some now ∧ event.stamp ≤ now) ∧ Timely latest rest
  | .retire now :: rest => Timely (some now) rest

/-- The records of one batch are timely after their retirement. -/
theorem timely_feeds {now : Instant} {events : List Event} {rest : List Input}
    (batch : ∀ event ∈ events, event.stamp ≤ now)
    (further : ∀ latest, Timely latest rest) :
    Timely (some now) (events.map .feed ++ rest) := by
  induction events with
  | nil => exact further _
  | cons event others ih =>
    obtain ⟨first, batch⟩ := List.forall_mem_cons.mp batch
    exact ⟨⟨now, rfl, first⟩, ih batch⟩

/-- Timely rounds make a timely run. -/
theorem timely_rounds {rounds : List Round} (timely : ∀ round ∈ rounds, round.Timely) :
    ∀ latest, Timely latest (rounds.flatMap Round.inputs) := by
  induction rounds with
  | nil => exact fun _ => trivial
  | cons round rest ih =>
    obtain ⟨first, others⟩ := List.forall_mem_cons.mp timely
    intro latest
    rw [List.flatMap_cons]
    exact timely_feeds first (ih others)

/-- What comes later in a timely run is timely. -/
theorem Timely.rest {latest : Option Instant} {earlier later : List Input}
    (timely : Timely latest (earlier ++ later)) : ∃ latest, Timely latest later := by
  induction earlier generalizing latest with
  | nil => exact ⟨latest, timely⟩
  | cons input rest ih =>
    cases input with
    | feed event => exact ih timely.2
    | retire now => exact ih timely

/-- A record in the same batch as what precedes it is stamped no later than the retirement of that
batch. -/
theorem Timely.batched {latest : Option Instant} {between later : List Input} {event : Event}
    (timely : Timely latest (between ++ .feed event :: later))
    (unretired : between.any Input.retires = false) :
    ∃ now, latest = some now ∧ event.stamp ≤ now := by
  induction between with
  | nil => exact timely.1
  | cons input rest ih =>
    cases input with
    | feed _ => exact ih timely.2 unretired
    | retire _ => contradiction

/-- Some retirement that lies between comes no earlier than the stamp of the next record. -/
theorem Timely.retired {latest : Option Instant} {between later : List Input} {event : Event}
    (timely : Timely latest (between ++ .feed event :: later))
    (retired : between.any Input.retires = true) :
    ∃ now, .retire now ∈ between ∧ event.stamp ≤ now := by
  induction between generalizing latest with
  | nil => contradiction
  | cons input rest ih =>
    have whole : Timely latest ([input] ++ (rest ++ .feed event :: later)) := timely
    obtain ⟨_, below⟩ := whole.rest
    cases again : rest.any Input.retires with
    | true =>
      obtain ⟨now, member, order⟩ := ih below again
      exact ⟨now, List.mem_cons_of_mem _ member, order⟩
    | false =>
      cases input with
      | feed _ =>
        rw [List.any_cons, again] at retired
        contradiction
      | retire now =>
        have batch : Timely (some now) (rest ++ .feed event :: later) := timely
        obtain ⟨_, same, order⟩ := batch.batched again
        cases same
        exact ⟨now, List.mem_cons_self, order⟩

/-! ## Two presses that lie apart -/

variable {panel last : Panel} {code : UInt16} {tracker : Tracker} {moments : List Moment}

/-- A stretch of a run from one record of a key to another is such a stretch of the run of its
tracker. -/
theorem stretch_of_key {earlier between later : List Moment} {release press : Moment}
    {up down : Tracker.Input}
    (course : Course Change panel (earlier ++ release :: between ++ press :: later) last)
    (distinct : panel.Distinct) (key : panel.key? code = some tracker)
    (first : release.input.forKey? code = some up) (second : press.input.forKey? code = some down) :
    ∃ held after final, ∃ own next : Tracker.Moment,
      release.before.key? code = some held ∧ press.after.key? code = some after ∧
      own.input = up ∧ next.input = down ∧ next.after = after ∧
      Course Tracker.Change tracker (earlier.filterMap (forKey? code)) held ∧
      Course Tracker.Change held (own :: between.filterMap (forKey? code) ++
        next :: later.filterMap (forKey? code)) final ∧
      firingsOf code between = Tracker.firings (between.filterMap (forKey? code)) := by
  rw [List.append_assoc] at course
  obtain ⟨middle, one, further⟩ := course_append.mp course
  obtain ⟨held, heldKey, courseHeld, _⟩ := course_of_key one distinct key
  have distinctMiddle : middle.Distinct := one.keeps Change.distinct distinct
  obtain ⟨final, _, courseFurther, _⟩ := course_of_key further distinctMiddle heldKey
  obtain ⟨_, afterUp, isHeld, upKey, upView⟩ :=
    view_of_mem further distinctMiddle heldKey List.mem_cons_self first
  obtain ⟨_, after, _, afterKey, downView⟩ := view_of_mem further distinctMiddle heldKey
    (List.mem_append_right (release :: between) List.mem_cons_self) second
  obtain ⟨same, change, rest⟩ := further
  obtain ⟨_, within, _⟩ := course_append.mp rest
  obtain ⟨_, _, _, fires⟩ := course_of_key within (change.distinct distinctMiddle) upKey
  rw [List.filterMap_append, List.filterMap_cons_some upView,
    List.filterMap_cons_some downView] at courseFurther
  rw [same]
  exact ⟨held, after, final, _, _, heldKey, afterKey, rfl, rfl, rfl, courseHeld, courseFurther,
    fires⟩

/-- A retirement in a timely stretch of a run is a look at the deadline after the stamp of the
record at the end. -/
theorem looked_of_retired (earlier : List Moment) {between later : List Moment} {press : Moment}
    {latest : Option Instant}
    (course : Course Change panel (earlier ++ between ++ press :: later) last)
    (distinct : panel.Distinct) (key : panel.key? code = some tracker)
    (presses : press.input.presses code = true)
    (timely : Timely latest ((earlier ++ between ++ press :: later).map Moment.input))
    (retired : between.any (·.input.retires) = true) :
    ∃ moment ∈ between.filterMap (forKey? code), ∃ now, moment.input = .timeout now ∧
      press.input.time ≤ now := by
  cases isFeed : press.input with
  | retire now =>
    obtain ⟨_, same, isPress⟩ := Input.presses_iff.mp presses
    rw [isFeed] at same
    cases same
    contradiction
  | feed event =>
    rw [List.append_assoc, List.map_append, List.map_append, List.map_cons, isFeed] at timely
    obtain ⟨_, timelyRest⟩ := timely.rest
    obtain ⟨now, member, order⟩ := timelyRest.retired (by rw [List.any_map]; exact retired)
    obtain ⟨moment, member, isRetire⟩ := List.mem_map.mp member
    have within : moment ∈ earlier ++ between ++ press :: later :=
      List.mem_append_left _ (List.mem_append_right _ member)
    have looks : moment.input.forKey? code = some (.timeout now) := by
      rw [isRetire]
      rfl
    obtain ⟨_, _, _, _, view⟩ := view_of_mem course distinct key within looks
    exact ⟨_, List.mem_filterMap.mpr ⟨moment, member, view⟩, now, rfl, order⟩

/-- Without a retirement nobody looks at a deadline. -/
theorem unlooked_of_batched {between : List Moment}
    (unretired : between.any (·.input.retires) = false) :
    ∀ moment ∈ between.filterMap (forKey? code), ∀ now, moment.input ≠ .timeout now := by
  intro own found now isTimeout
  obtain ⟨moment, member, view⟩ := List.mem_filterMap.mp found
  have concerns := (of_forKey? view).1
  rw [isTimeout] at concerns
  have retires := List.any_eq_false.mp unretired moment member
  rw [Input.eq_retire_of_forKey? concerns] at retires
  exact retires rfl

/-- A stretch without presses of a key is one for its tracker. -/
theorem quiet_of_key {between : List Moment}
    (quiet : ∀ moment ∈ between, moment.input.presses code = false) :
    ∀ moment ∈ between.filterMap (forKey? code), moment.input.isPress = false := by
  intro own found
  obtain ⟨moment, member, view⟩ := List.mem_filterMap.mp found
  have unpressed := quiet moment member
  rw [Input.presses, (of_forKey? view).1] at unpressed
  exact unpressed

/-- A press of a key counts as decided because a retirement found its long action's time reached. -/
theorem held_decision {binding : Binding} {window : Span} {earlier : List Moment}
    (course : Course Tracker.Change (.start binding window) (earlier.filterMap (forKey? code))
      tracker) (phase : tracker.phase = .handled) :
    ∃ decision ∈ earlier, ∃ now origin action, decision.input = .retire now ∧
      tracker.pressedAt = some origin ∧
      decision.output.find? (·.code == code) = tracker.verdict (now.since origin) ∧
      tracker.binding.held? = some action ∧ origin.later (.ofMillis action.trigger) ≤ now := by
  obtain ⟨own, member, now, origin, action, isTimeout, began, verdict, waits, reached⟩ :=
    Tracker.held_verdict course phase
  obtain ⟨moment, found, view⟩ := List.mem_filterMap.mp member
  obtain ⟨concerns, output⟩ := of_forKey? view
  rw [isTimeout] at concerns
  refine ⟨moment, found, now, origin, action, Input.eq_retire_of_forKey? concerns, began, ?_,
    waits, reached⟩
  rw [← output]
  exact verdict

/-- What a press leads to that comes at least a window after the release of a key. It starts anew
if the press before it was decided, and the action for that press's length has run, unless it was
decided late while the key was held. It does not start anew if both came in one batch. -/
theorem separate_press_restarts_unless_batched {bindings : Bindings} {window : Span}
    {rounds : List Round} (distinct : bindings.Distinct)
    (timely : ∀ round ∈ rounds, round.Timely)
    (ran : (start bindings window).run? (rounds.flatMap Round.inputs) = some (moments, last))
    {earlier between later : List Moment} {release press : Moment}
    (parts : moments = earlier ++ release :: between ++ press :: later)
    (releases : release.input.releases code = true) (presses : press.input.presses code = true)
    (quiet : ∀ moment ∈ between, moment.input.presses code = false)
    (held : release.before.key? code = some tracker) (down : tracker.isDown = true)
    (apart : release.input.time.later window ≤ press.input.time) :
    ∃ origin, tracker.pressedAt = some origin ∧
      (tracker.phase = .pressed → between.any (·.input.retires) = true →
        press.after.HeldSince code press.input.time ∧
        firingsOf code between =
          (tracker.verdict (release.input.time.since origin)).toList) ∧
      (tracker.phase = .pressed → between.any (·.input.retires) = false →
        press.after.HeldSince code origin ∧ firingsOf code between = []) ∧
      (tracker.phase = .handled →
        press.after.HeldSince code press.input.time ∧ firingsOf code between = [] ∧
        ∃ decision ∈ earlier, ∃ now action, decision.input = .retire now ∧
          decision.output.find? (·.code == code) = tracker.verdict (now.since origin) ∧
          tracker.binding.held? = some action ∧ origin.later (.ofMillis action.trigger) ≤ now ∧
          ((now.since origin).nanos / 1000000 < UInt64.size →
            (Action.choose? tracker.binding.actions
                (release.input.time.since origin).wholeMillis =
              Action.choose? tracker.binding.actions (now.since origin).wholeMillis ↔
            action.trigger ≤ (release.input.time.since origin).wholeMillis))) := by
  subst parts
  obtain ⟨course, inputs⟩ := course_of_run? ran
  have timelyAll := timely_rounds timely none
  rw [← inputs] at timelyAll
  obtain ⟨up, first, isRelease⟩ := Input.releases_iff.mp releases
  obtain ⟨next, second, isPress⟩ := Input.presses_iff.mp presses
  have distinctStart := distinct_start distinct window
  obtain ⟨middle, one, same, _⟩ := course_append.mp (List.append_assoc .. ▸ course)
  obtain ⟨binding, key⟩ := key?_start_of_course one (same ▸ held)
  obtain ⟨_, after, final, own, other, heldKey, afterKey, rfl, rfl, rfl, before, further, fires⟩ :=
    stretch_of_key course distinctStart key first second
  obtain rfl : tracker = _ := Option.some.inj (held.symm.trans heldKey)
  have sound := (Tracker.sound_start binding window).along before
  have quietOwn := quiet_of_key quiet
  have upTime := Input.time_of_forKey? first
  have nextTime := Input.time_of_forKey? second
  cases phase : tracker.phase with
  | released => simp [Tracker.isDown, phase] at down
  | debounce => simp [Tracker.isDown, phase] at down
  | pressed =>
    obtain ⟨origin, began, _⟩ := sound.pressed phase
    refine ⟨origin, began, fun _ retired => ?_, fun _ unretired => ?_, fun other => by cases other⟩
    · have looked : ∃ moment ∈ between.filterMap (forKey? code), ∃ now,
          moment.input = .timeout now ∧ own.input.time.later tracker.window ≤ now := by
        obtain ⟨moment, member, now, isTimeout, order⟩ := looked_of_retired
          (earlier ++ [release]) (by simpa using course) distinctStart key presses
          (by simpa using timelyAll) retired
        refine ⟨moment, member, now, isTimeout, ?_⟩
        rw [upTime, (Tracker.fixed_of_course before).2]
        exact Int.le_trans apart order
      obtain ⟨restarted, fired⟩ :=
        Tracker.restarted_of_looked further phase began isRelease isPress quietOwn looked
      rw [upTime] at fired
      refine ⟨⟨_, afterKey, ?_, ?_⟩, fires.trans fired⟩
      · rw [restarted]
        exact phase
      · rw [restarted, nextTime]
    · obtain ⟨resumed, fired⟩ := Tracker.resumed_of_unlooked further sound phase isRelease isPress
        quietOwn fun moment member now isTimeout =>
          absurd isTimeout (unlooked_of_batched unretired moment member now)
      refine ⟨⟨_, afterKey, ?_, ?_⟩, fires.trans fired⟩
      · rw [resumed]
        exact phase
      · rw [resumed]
        exact began
  | handled =>
    obtain ⟨restarted, fired⟩ :=
      Tracker.restarted_of_handled further sound phase isRelease isPress quietOwn
    obtain ⟨decision, member, now, origin, action, isRetire, began, verdict, waits, reached⟩ :=
      held_decision before phase
    refine ⟨origin, began, fun other => (by cases other), fun other => (by cases other),
      fun _ => ⟨⟨_, afterKey, ?_, ?_⟩, fires.trans fired, ?_⟩⟩
    · rw [restarted]
    · rw [restarted, nextTime]
    · exact ⟨decision, member, now, action, isRetire, verdict, waits, reached, fun fits =>
        Action.choose?_eq_iff_of_held waits (Instant.le_wholeMillis_since reached fits)⟩

/-! ## A release and a press in one batch -/

/-- Whether the records of a key come in the order of their stamps. -/
def InOrder (code : UInt16) (rounds : List Round) : Prop :=
  ((rounds.flatMap Round.events).filter fun event => event.isKey && event.code == code).Pairwise
    fun earlier later => earlier.stamp ≤ later.stamp

instance (code : UInt16) (rounds : List Round) : Decidable (InOrder code rounds) :=
  inferInstanceAs (Decidable (List.Pairwise _ _))

/-- A press in one batch, its release and a press long after it in the next. -/
def batchedRounds : List Round :=
  [⟨⟨0⟩, [⟨⟨0⟩, 1, 116, 1⟩]⟩,
    ⟨⟨300000000⟩, [⟨⟨100000000⟩, 1, 116, 0⟩, ⟨⟨200000000⟩, 1, 116, 1⟩]⟩]

/-- The run of the batched presses. -/
def batchedRun : List Moment × Panel :=
  ((start [.shortAndLong] (.ofMillis 10)).run? (batchedRounds.flatMap Round.inputs)).get
    (by decide)

/-- The batched presses have a run. -/
theorem ran_batched : (start [.shortAndLong] (.ofMillis 10)).run?
    (batchedRounds.flatMap Round.inputs) = some (batchedRun.1, batchedRun.2) :=
  Option.eq_some_of_isSome (by decide)

/-- The run of the batched presses, taken apart at the release and at the press after it. -/
theorem batched_parts : batchedRun.1 = batchedRun.1.take 3 ++ batchedRun.1.get ⟨3, by decide⟩ ::
    [] ++ batchedRun.1.get ⟨4, by decide⟩ :: [] :=
  rfl

/-- The tracker of the batched presses before the release. -/
def batchedTracker : Tracker :=
  ⟨.shortAndLong, .ofMillis 10, .pressed, some ⟨0⟩, none, some ⟨4000000000⟩⟩

/-- The release finds that tracker. -/
theorem batched_held : (batchedRun.1.get ⟨3, by decide⟩).before.key? 116 = some batchedTracker :=
  rfl

/-- A press in the batch of the release before it does not start anew, however far apart. -/
theorem separate_press_merges_in_batch :
    ¬ ∀ (bindings : Bindings) (window : Span) (rounds : List Round) (moments : List Moment)
      (last : Panel) (earlier between later : List Moment) (release press : Moment)
      (code : UInt16) (tracker : Tracker), bindings.Distinct →
      (∀ round ∈ rounds, round.Timely) → InOrder code rounds →
      (start bindings window).run? (rounds.flatMap Round.inputs) = some (moments, last) →
      moments = earlier ++ release :: between ++ press :: later →
      release.input.releases code = true → press.input.presses code = true →
      (∀ moment ∈ between, moment.input.presses code = false) →
      release.before.key? code = some tracker → tracker.isDown = true →
      release.input.time.later window ≤ press.input.time →
      press.after.HeldSince code press.input.time := by
  intro restarts
  obtain ⟨tracker, key, _, began⟩ := restarts [.shortAndLong] (.ofMillis 10) batchedRounds
    batchedRun.1 batchedRun.2 _ [] [] _ _ 116 batchedTracker (by decide) (by decide) (by decide)
    ran_batched batched_parts (by decide) (by decide) (by decide) batched_held rfl (by decide)
  have origin : ((batchedRun.1.get ⟨4, by decide⟩).after.key? 116).bind Tracker.pressedAt =
      some ⟨0⟩ := rfl
  rw [key, Option.bind_some, began] at origin
  exact absurd origin (by decide)

/-- The statement on separate presses at the batched ones. -/
theorem batched_press_keeps_origin :
    (batchedRun.1.get ⟨4, by decide⟩).after.HeldSince 116 ⟨0⟩ ∧
      firingsOf 116 batchedRun.1 = [] := by
  obtain ⟨origin, began, _, merged, _⟩ := separate_press_restarts_unless_batched
    (by decide) (by decide) ran_batched batched_parts (by decide) (by decide) (by decide)
    batched_held rfl (by decide)
  cases began
  exact ⟨(merged rfl rfl).1, rfl⟩

end Keyhold.Panel
