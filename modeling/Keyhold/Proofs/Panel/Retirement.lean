import Keyhold.Proofs.Panel.Timeout

/-!
# What a retirement leaves

A retirement decides every key whose deadline has come and touches no other key, and a decided key
waits for nothing. So nothing is left to do at the time of the retirement or before it:
`retirement_is_complete` says this of every panel that a run leads to, whatever the length of the
debounce window and the trigger times, and however long ago the deadlines were.
-/

namespace Keyhold

namespace Tracker

variable {tracker : Tracker} {now time : Instant}

/-- A key that is not due was not due before. -/
theorem isDue_of_le (early : tracker.isDue now = false) (order : time ≤ now) :
    tracker.isDue time = false := by
  refine Bool.eq_false_iff.mpr fun due => ?_
  obtain ⟨deadline, pending, come⟩ := isDue_iff.mp due
  have overdue : tracker.isDue now = true :=
    isDue_iff.mpr ⟨deadline, pending, Int.le_trans come order⟩
  rw [early] at overdue
  contradiction

/-- A key is not due while it waits for nothing that has come. -/
theorem isDue_eq_false_iff : tracker.isDue now = false ↔
    ∀ deadline, tracker.deadline = some deadline → ¬ deadline ≤ now := by
  rw [Bool.eq_false_iff, ne_eq, isDue_iff]
  simp only [not_exists, not_and]

/-- A key is not due right after a look at its deadline. -/
theorem isDue_expire (tracker : Tracker) (now : Instant) :
    (tracker.expire now).1.isDue now = false := by
  cases due : tracker.isDue now with
  | false =>
    rw [expire_of_early due]
    exact due
  | true =>
    rw [expire, if_pos due]
    rfl

/-- A look at the deadline leaves a key as it is exactly when the key is not due. -/
theorem Sound.expire_eq_self_iff (sound : tracker.Sound) :
    (tracker.expire now).1 = tracker ↔ tracker.isDue now = false := by
  constructor
  · intro unmoved
    refine Bool.eq_false_iff.mpr fun due => sound.phase_expire_ne due ?_
    rw [unmoved]
  · intro early
    rw [expire_of_early early]

end Tracker

namespace Panel

variable {panel : Panel} {now time : Instant} {wait : Span} {bindings : Bindings} {window : Span}
  {inputs : List Input} {moments : List Moment}

/-- After a retirement no key is due at its time or before. -/
theorem isDue_of_retire (panel : Panel) (order : time ≤ now) :
    ∀ tracker ∈ (panel.retire now).1.keys, tracker.isDue time = false := by
  intro tracker member
  obtain ⟨before, _, rfl⟩ := List.mem_map.mp member
  exact Tracker.isDue_of_le (before.isDue_expire now) order

/-- Where no key is due, a wait is not empty. -/
theorem nextWait?_pos (early : ∀ tracker ∈ panel.keys, tracker.isDue now = false)
    (waits : panel.nextWait? now = some wait) : 0 < wait.nanos := by
  refine Nat.pos_of_ne_zero fun empty => ?_
  obtain ⟨tracker, member, due⟩ := (due_iff_nextWait?_eq_zero waits).mpr empty
  rw [early tracker member] at due
  contradiction

/-- A retirement does what a look at its deadline does to the key in each place. -/
theorem getElem?_retire (panel : Panel) (now : Instant) (place : Nat) :
    (panel.retire now).1.keys[place]? =
      panel.keys[place]?.map fun tracker => (tracker.expire now).1 := by
  rw [retire, List.getElem?_map]

/-- A retirement of a panel that a run leads to is complete. Afterwards no key is due at its time
or before, there is no wait or one that is not empty, and another retirement up to the same time
changes nothing and fires nothing. It keeps every key in its place, and leaves it as it is exactly
when it waits for nothing that has come. -/
theorem retirement_is_complete (ran : (start bindings window).run? inputs = some (moments, panel))
    (now : Instant) :
    (∀ tracker ∈ (panel.retire now).1.keys, ∀ time, time ≤ now → tracker.isDue time = false) ∧
    (∀ wait, (panel.retire now).1.nextWait? now = some wait → 0 < wait.nanos) ∧
    (∀ time, time ≤ now → (panel.retire now).1.retire time = ((panel.retire now).1, [])) ∧
    (panel.retire now).1.keys.map Tracker.code = panel.keys.map Tracker.code ∧
    ∀ (place : Nat) (tracker : Tracker), panel.keys[place]? = some tracker →
      ((panel.retire now).1.keys[place]? = some tracker ↔
        ∀ deadline, tracker.deadline = some deadline → ¬ deadline ≤ now) := by
  obtain ⟨course, _⟩ := course_of_run? ran
  refine ⟨fun tracker member time order => panel.isDue_of_retire order tracker member,
    fun wait => nextWait?_pos (panel.isDue_of_retire (Int.le_refl _)),
    fun time order => retire_of_early (panel.isDue_of_retire order), ?_, ?_⟩
  · have change : Change panel (.retire now) (panel.retire now).1 (panel.retire now).2 := rfl
    exact change.codes
  · intro place tracker found
    have sound := keys_sound course tracker (List.mem_of_getElem? found)
    rw [getElem?_retire, found, Option.map_some, Option.some.injEq, sound.expire_eq_self_iff,
      Tracker.isDue_eq_false_iff]

/-- Three keys: one with a long action without delay, one with a short action, and one whose long
action comes after a millisecond. -/
def threeKeys : Bindings :=
  [⟨116, none, [⟨.long, 0, "A", false⟩]⟩, ⟨30, none, [⟨.short, 1000, "C", false⟩]⟩,
    ⟨31, none, [⟨.long, 1, "D", false⟩]⟩]

/-- All three keys are pressed, and the second one comes up; its window is empty. -/
def threePresses : List Input :=
  [.feed ⟨⟨0⟩, 1, 30, 1⟩, .feed ⟨⟨5000000⟩, 1, 116, 1⟩, .feed ⟨⟨5000000⟩, 1, 30, 0⟩,
    .feed ⟨⟨5000000⟩, 1, 31, 1⟩]

/-- The run of the three presses. -/
def threeRun : List Moment × Panel :=
  ((start threeKeys .zero).run? threePresses).get (by decide)

/-- The three presses have a run. -/
theorem ran_three : (start threeKeys .zero).run? threePresses = some (threeRun.1, threeRun.2) :=
  Option.eq_some_of_isSome (by decide)

/-- The statement on retirements at the three presses, at the very time of two of the deadlines:
both keys fire, a second retirement does nothing, the wait is a millisecond, and the third key is as
it was. -/
theorem retirement_of_threePresses :
    (threeRun.2.retire ⟨5000000⟩).2.map Firing.command = ["A", "C"] ∧
    (threeRun.2.retire ⟨5000000⟩).1.retire ⟨5000000⟩ = ((threeRun.2.retire ⟨5000000⟩).1, []) ∧
    (threeRun.2.retire ⟨5000000⟩).1.nextWait? ⟨5000000⟩ = some ⟨1000000⟩ ∧
    ∃ tracker, threeRun.2.keys[2]? = some tracker ∧
      (threeRun.2.retire ⟨5000000⟩).1.keys[2]? = some tracker := by
  obtain ⟨_, _, again, _, places⟩ := retirement_is_complete ran_three ⟨5000000⟩
  refine ⟨by decide, again ⟨5000000⟩ (by decide), by decide, _, rfl, ?_⟩
  refine (places 2 _ rfl).mpr fun deadline pending => ?_
  obtain rfl : (⟨6000000⟩ : Instant) = deadline := Option.some.inj pending
  decide

end Panel

end Keyhold
