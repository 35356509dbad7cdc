import Keyhold.Proofs.Panel.Run
import Keyhold.Proofs.Tracker.Timer

/-!
# The wait of a panel

The wait is computed from the deadlines alone, while a retirement decides the keys that are due.
`wait_is_exact` joins the two for every panel that a run leads to: without a wait no retirement
will ever change anything; with one, no retirement before its end does, and the one at its end
changes the phase of some key. A deadline that has passed makes the wait empty, and its end is
then the present.
-/

namespace Keyhold

namespace Instant

/-- Whether the clock can show a moment. -/
def Readable (moment : Instant) : Prop := bottom ≤ moment.nanos ∧ moment.nanos < ceiling

/-- The span to a moment is at most a given one exactly when that span leads there. -/
theorem since_le_iff {moment now : Instant} {span : Span} :
    (moment.since now).nanos ≤ span.nanos ↔ moment ≤ now.later span := by
  rw [le_iff, nanos_later]
  simp only [since]
  omega

end Instant

namespace Panel

variable {panel : Panel} {now time : Instant} {wait : Span} {moments : List Moment}

/-! ## The earliest deadline -/

/-- The deadlines of a panel are those of its keys. -/
theorem mem_deadlines_iff {deadline : Instant} :
    deadline ∈ panel.deadlines ↔ ∃ tracker ∈ panel.keys, tracker.deadline = some deadline :=
  List.mem_filterMap

/-- There is no wait exactly when no key waits for anything. -/
theorem nextWait?_eq_none_iff :
    panel.nextWait? now = none ↔ ∀ tracker ∈ panel.keys, tracker.deadline = none := by
  simp [nextWait?, deadlines]

/-- The wait is the least span to a deadline. -/
theorem nextWait?_eq_some_iff :
    panel.nextWait? now = some wait ↔
      (∃ tracker ∈ panel.keys, ∃ deadline, tracker.deadline = some deadline ∧
        (deadline.since now).nanos = wait.nanos) ∧
      ∀ tracker ∈ panel.keys, ∀ deadline, tracker.deadline = some deadline →
        wait.nanos ≤ (deadline.since now).nanos := by
  have least : panel.nextWait? now = some wait ↔
      (panel.deadlines.map fun deadline => (deadline.since now).nanos).min? = some wait.nanos := by
    rw [nextWait?, Option.map_eq_some_iff]
    constructor
    · rintro ⟨nanos, found, rfl⟩
      exact found
    · intro found
      exact ⟨_, found, rfl⟩
  rw [least, List.min?_eq_some_iff]
  simp only [deadlines, List.mem_map, List.mem_filterMap]
  constructor
  · rintro ⟨⟨deadline, ⟨tracker, member, pending⟩, same⟩, bound⟩
    refine ⟨⟨tracker, member, deadline, pending, same⟩, fun other present moment awaited => ?_⟩
    exact bound _ ⟨moment, ⟨other, present, awaited⟩, rfl⟩
  · rintro ⟨⟨tracker, member, deadline, pending, same⟩, bound⟩
    refine ⟨⟨deadline, ⟨tracker, member, pending⟩, same⟩, ?_⟩
    rintro _ ⟨moment, ⟨other, present, awaited⟩, rfl⟩
    exact bound other present moment awaited

/-- From now on a key is due exactly from the end of the wait on. A deadline that has passed counts
as an empty span, so a key that is due bounds the wait by the time from now on whether its deadline
lies before now or after it. -/
theorem due_iff_of_nextWait? (waits : panel.nextWait? now = some wait) (order : now ≤ time) :
    (∃ tracker ∈ panel.keys, tracker.isDue time = true) ↔ now.later wait ≤ time := by
  obtain ⟨⟨first, member, deadline, pending, exact⟩, least⟩ := nextWait?_eq_some_iff.mp waits
  constructor
  · rintro ⟨tracker, member, due⟩
    obtain ⟨other, pending, come⟩ := Tracker.isDue_iff.mp due
    have bound := least tracker member other pending
    rw [Instant.le_iff] at come order ⊢
    simp only [Instant.since, Instant.nanos_later] at bound ⊢
    omega
  · intro passed
    refine ⟨first, member, Tracker.isDue_iff.mpr ⟨deadline, pending, ?_⟩⟩
    exact Int.le_trans (Instant.since_le_iff.mp (Nat.le_of_eq exact)) passed

/-- The clock can show the end of a wait if it can show the deadlines. -/
theorem readable_of_nextWait? (inClock : ∀ tracker ∈ panel.keys, tracker.InClock)
    (readable : now.Readable) (waits : panel.nextWait? now = some wait) :
    now.add? wait = some (now.later wait) ∧ (now.later wait).Readable := by
  obtain ⟨⟨tracker, member, deadline, pending, exact⟩, _⟩ := nextWait?_eq_some_iff.mp waits
  have below := inClock tracker member deadline pending
  obtain ⟨above, present⟩ := readable
  have shown : (now.later wait).Readable := by
    rw [Instant.Readable, Instant.nanos_later, ← exact]
    simp only [Instant.since]
    omega
  exact ⟨Instant.add?_eq_some_iff.mpr ⟨rfl, shown.2⟩, shown⟩

/-! ## Retirements -/

/-- A retirement while no key is due changes nothing and fires nothing. -/
theorem retire_of_early (early : ∀ tracker ∈ panel.keys, tracker.isDue time = false) :
    panel.retire time = (panel, []) := by
  have alone : ∀ tracker ∈ panel.keys, tracker.expire time = (tracker, none) :=
    fun tracker member => Tracker.expire_of_early (early tracker member)
  have keys : panel.keys.map (fun tracker => (tracker.expire time).1) = panel.keys := by
    refine (List.map_congr_left fun tracker member => ?_).trans (List.map_id panel.keys)
    rw [alone tracker member, id]
  have firings : panel.keys.filterMap (fun tracker => (tracker.expire time).2) = [] := by
    refine List.filterMap_eq_nil_iff.mpr fun tracker member => ?_
    rw [alone tracker member]
  rw [retire, keys, firings]

/-- A retirement changes the phase of every key that is due. -/
theorem retire_of_due (sound : ∀ tracker ∈ panel.keys, tracker.Sound)
    (due : ∃ tracker ∈ panel.keys, tracker.isDue time = true) :
    ∃ (place : Nat) (before after : Tracker), panel.keys[place]? = some before ∧
      (panel.retire time).1.keys[place]? = some after ∧ after.phase ≠ before.phase := by
  obtain ⟨tracker, member, isDue⟩ := due
  obtain ⟨place, found⟩ := List.getElem?_of_mem member
  refine ⟨place, tracker, (tracker.expire time).1, found, ?_, ?_⟩
  · rw [retire, List.getElem?_map, found, Option.map_some]
  · exact (sound tracker member).phase_expire_ne isDue

/-! ## Panels of a run -/

variable {bindings : Bindings} {window : Span} {inputs : List Input}

/-- A new panel has no deadlines that the clock would have to represent. -/
theorem keys_inClock_start (bindings : Bindings) (window : Span) :
    ∀ tracker ∈ (start bindings window).keys, tracker.InClock := by
  intro tracker member deadline pending
  obtain ⟨binding, _, rfl⟩ := List.mem_map.mp member
  contradiction

/-- Every deadline of a run is one that the clock can represent. -/
theorem keys_inClock (course : Course Change (start bindings window) moments panel) :
    ∀ tracker ∈ panel.keys, tracker.InClock :=
  keys_keep Tracker.inClock_of_step course (keys_inClock_start bindings window)

/-- The wait of a panel that a run leads to is exact. There is none exactly when no retirement
would change a key. Otherwise no retirement before its end changes a key or fires, and its end is a
moment that the clock can show, when a retirement changes the phase of some key. -/
theorem wait_is_exact (ran : (start bindings window).run? inputs = some (moments, panel))
    (readable : now.Readable) :
    (panel.nextWait? now = none ↔
      ∀ time : Instant, time.Readable → (panel.retire time).1 = panel) ∧
    ∀ wait, panel.nextWait? now = some wait →
      (∀ time, now ≤ time → ¬ now.later wait ≤ time → panel.retire time = (panel, [])) ∧
      ∃ due, now.add? wait = some due ∧
        ∃ (place : Nat) (before after : Tracker), panel.keys[place]? = some before ∧
          (panel.retire due).1.keys[place]? = some after ∧ after.phase ≠ before.phase := by
  obtain ⟨course, _⟩ := course_of_run? ran
  have sound := keys_sound course
  have inClock := keys_inClock course
  have changes : ∀ wait, panel.nextWait? now = some wait →
      ∃ (place : Nat) (before after : Tracker), panel.keys[place]? = some before ∧
        (panel.retire (now.later wait)).1.keys[place]? = some after ∧
        after.phase ≠ before.phase := by
    intro wait waits
    have order : now ≤ now.later wait := by
      rw [Instant.le_iff, Instant.nanos_later]
      omega
    exact retire_of_due sound ((due_iff_of_nextWait? waits order).mpr (Int.le_refl _))
  refine ⟨⟨fun idle time _ => ?_, fun unchanged => ?_⟩, fun wait waits => ⟨?_, ?_⟩⟩
  · rw [retire_of_early fun tracker member => ?_]
    rw [Tracker.isDue, nextWait?_eq_none_iff.mp idle tracker member]
    rfl
  · cases waits : panel.nextWait? now with
    | none => rfl
    | some wait =>
      obtain ⟨_, shown⟩ := readable_of_nextWait? inClock readable waits
      obtain ⟨place, before, after, found, retired, moved⟩ := changes wait waits
      rw [unchanged _ shown, found] at retired
      cases retired
      contradiction
  · intro time order early
    refine retire_of_early fun tracker member => Bool.eq_false_iff.mpr fun due => early ?_
    exact (due_iff_of_nextWait? waits order).mp ⟨tracker, member, due⟩
  · obtain ⟨sum, _⟩ := readable_of_nextWait? inClock readable waits
    exact ⟨now.later wait, sum, changes wait waits⟩

/-- One key is held, the other comes up after a tenth of a second. -/
def heldAndBouncing : List Input :=
  [.feed ⟨⟨0⟩, 1, 116, 1⟩, .feed ⟨⟨10000000⟩, 1, 30, 1⟩, .feed ⟨⟨100000000⟩, 1, 30, 0⟩]

/-- The run of the held and the bouncing key. -/
def heldRun : List Moment × Panel :=
  ((start .twoKeys (.ofMillis 10)).run? heldAndBouncing).get (by decide)

/-- The held and the bouncing key have a run. -/
theorem ran_held : (start .twoKeys (.ofMillis 10)).run? heldAndBouncing =
    some (heldRun.1, heldRun.2) :=
  Option.eq_some_of_isSome (by decide)

/-- The statement on the wait at the held and the bouncing key. The window of the latter ends five
milliseconds from now; nothing changes a nanosecond before that, and some key does then. -/
theorem wait_of_heldAndBouncing :
    heldRun.2.nextWait? ⟨105000000⟩ = some ⟨5000000⟩ ∧
    heldRun.2.retire ⟨109999999⟩ = (heldRun.2, []) ∧
    ∃ due, (Instant.mk 105000000).add? ⟨5000000⟩ = some due ∧
      ∃ (place : Nat) (before after : Tracker), heldRun.2.keys[place]? = some before ∧
        (heldRun.2.retire due).1.keys[place]? = some after ∧ after.phase ≠ before.phase := by
  have waits : heldRun.2.nextWait? ⟨105000000⟩ = some ⟨5000000⟩ := by decide
  obtain ⟨early, ends⟩ :=
    (wait_is_exact ran_held ⟨by decide, by decide⟩).2 ⟨5000000⟩ waits
  exact ⟨waits, early ⟨109999999⟩ (by decide) (by decide), ends⟩

end Panel

end Keyhold
