import Keyhold.Proofs.Panel.Timeout

/-!
# How long a poll may sleep

The wait of a panel is the time left until the earliest of its deadlines, which says all there is
to say about it: how it changes as time goes on and as keys begin to wait follows from how the
earliest deadline does. Rounding to milliseconds and cutting at the greatest timeout keep the order
of waits, and add less than a millisecond. `timeout_never_oversleeps` puts the two together for
every panel and time. A timeout of minus one is read as a sleep without bound.
-/

namespace Keyhold

namespace Panel

variable {panel fuller : Panel} {now time deadline : Instant} {wait longer : Span}

/-! ## The earliest deadline -/

/-- Whether a moment is the earliest for which a key waits. -/
structure IsEarliest (panel : Panel) (deadline : Instant) : Prop where
  awaited : deadline ∈ panel.deadlines
  least : ∀ other ∈ panel.deadlines, deadline ≤ other

/-- Where keys wait for anything, one of the deadlines is the earliest. -/
theorem exists_earliest (awaited : deadline ∈ panel.deadlines) :
    ∃ earliest, panel.IsEarliest earliest := by
  have some : (panel.deadlines.map Instant.nanos).min?.isSome = true :=
    List.isSome_min?_of_mem (List.mem_map_of_mem awaited)
  obtain ⟨least, found⟩ := Option.isSome_iff_exists.mp some
  obtain ⟨member, bound⟩ := List.min?_eq_some_iff.mp found
  obtain ⟨earliest, present, rfl⟩ := List.mem_map.mp member
  exact ⟨earliest, present, fun other awaits => bound _ (List.mem_map_of_mem awaits)⟩

/-- The wait is the time left until the earliest deadline. -/
theorem nextWait?_of_earliest (earliest : panel.IsEarliest deadline) (now : Instant) :
    panel.nextWait? now = some (deadline.since now) := by
  obtain ⟨tracker, member, pending⟩ := mem_deadlines_iff.mp earliest.awaited
  refine nextWait?_eq_some_iff.mpr ⟨⟨tracker, member, deadline, pending, rfl⟩, ?_⟩
  intro other present moment awaited
  have order : deadline ≤ moment :=
    earliest.least moment (mem_deadlines_iff.mpr ⟨other, present, awaited⟩)
  rw [Instant.le_iff] at order
  simp only [Instant.since]
  omega

/-- A wait is the time left until an earliest deadline. -/
theorem exists_earliest_of_nextWait? (waits : panel.nextWait? now = some wait) :
    ∃ deadline, panel.IsEarliest deadline ∧ wait = deadline.since now := by
  obtain ⟨⟨tracker, member, pending, awaited, _⟩, _⟩ := nextWait?_eq_some_iff.mp waits
  obtain ⟨deadline, earliest⟩ := exists_earliest (mem_deadlines_iff.mpr ⟨tracker, member, awaited⟩)
  have same := nextWait?_of_earliest earliest now
  rw [waits] at same
  exact ⟨deadline, earliest, Option.some.inj same⟩

/-- The wait does not grow as time goes on and as further deadlines come in. -/
theorem nextWait?_antitone (more : panel.deadlines ⊆ fuller.deadlines) (order : now ≤ time)
    (waits : panel.nextWait? now = some wait) :
    ∃ shorter, fuller.nextWait? time = some shorter ∧ shorter.nanos ≤ wait.nanos := by
  obtain ⟨deadline, earliest, rfl⟩ := exists_earliest_of_nextWait? waits
  obtain ⟨sooner, soonest⟩ := exists_earliest (more earliest.awaited)
  have before : sooner ≤ deadline := soonest.least deadline (more earliest.awaited)
  refine ⟨_, nextWait?_of_earliest soonest time, ?_⟩
  rw [Instant.le_iff] at before order
  simp only [Instant.since]
  omega

/-! ## Rounding -/

/-- The timeout of a wait is a count of milliseconds within the bounds of a timeout. -/
theorem pollTimeout_bounds (wait : Span) :
    0 ≤ pollTimeout (some wait) ∧ pollTimeout (some wait) ≤ longestTimeout := by
  rw [pollTimeout_some]
  omega

/-- Only the lack of a wait gives a timeout without bound. -/
theorem pollTimeout_eq_neg_one_iff {wait : Option Span} : pollTimeout wait = -1 ↔ wait = none := by
  cases wait with
  | none => simp [pollTimeout]
  | some span =>
    have bounds := pollTimeout_bounds span
    simp only [reduceCtorEq, iff_false]
    omega

/-- Rounding adds less than a millisecond. -/
theorem pollTimeout_lt_add (wait : Span) :
    pollTimeout (some wait) * 1000000 < wait.nanos + 1000000 := by
  rw [pollTimeout_some]
  omega

/-- A wait of the greatest timeout or more has the greatest timeout. -/
theorem pollTimeout_of_long (long : longestTimeout * 1000000 ≤ wait.nanos) :
    pollTimeout (some wait) = longestTimeout := by
  rw [pollTimeout_some]
  omega

/-- Rounding keeps the order of waits. -/
theorem pollTimeout_mono (order : wait.nanos ≤ longer.nanos) :
    pollTimeout (some wait) ≤ pollTimeout (some longer) := by
  rw [pollTimeout_some, pollTimeout_some]
  omega

/-- Whether a poll with one timeout sleeps no longer than one with another; minus one sets no
bound. -/
def SleepsNoLonger (timeout other : Int) : Prop := other = -1 ∨ timeout ≠ -1 ∧ timeout ≤ other

/-- A poll does not sleep longer as time goes on and as further deadlines come in. -/
theorem sleepsNoLonger_of_subset (more : panel.deadlines ⊆ fuller.deadlines) (order : now ≤ time) :
    SleepsNoLonger (pollTimeout (fuller.nextWait? time)) (pollTimeout (panel.nextWait? now)) := by
  cases waits : panel.nextWait? now with
  | none => exact .inl rfl
  | some wait =>
    obtain ⟨shorter, sooner, less⟩ := nextWait?_antitone more order waits
    have bounded : pollTimeout (some shorter) ≠ -1 := by
      rw [Ne, pollTimeout_eq_neg_one_iff]
      exact Option.some_ne_none shorter
    rw [sooner]
    exact .inr ⟨bounded, pollTimeout_mono less⟩

/-! ## Every panel and time -/

/-- The timeout of a panel is minus one exactly when no key waits for anything. Otherwise there is
an earliest deadline, and the timeout is a count of milliseconds within its bounds, exceeds the time
left until that deadline by less than a millisecond, and is the greatest one if so much time is
left. With minus one read as no bound, the timeout does not grow as time goes on or as the deadlines
of further keys come in. -/
theorem timeout_never_oversleeps (panel : Panel) (now : Instant) :
    (pollTimeout (panel.nextWait? now) = -1 ↔ ∀ tracker ∈ panel.keys, tracker.deadline = none) ∧
    ((∃ tracker ∈ panel.keys, tracker.deadline ≠ none) → ∃ deadline, panel.IsEarliest deadline ∧
      0 ≤ pollTimeout (panel.nextWait? now) ∧
      pollTimeout (panel.nextWait? now) ≤ longestTimeout ∧
      pollTimeout (panel.nextWait? now) * 1000000 < (deadline.since now).nanos + 1000000 ∧
      (longestTimeout * 1000000 ≤ (deadline.since now).nanos →
        pollTimeout (panel.nextWait? now) = longestTimeout)) ∧
    ∀ (fuller : Panel) (time : Instant), panel.deadlines ⊆ fuller.deadlines → now ≤ time →
      SleepsNoLonger (pollTimeout (fuller.nextWait? time)) (pollTimeout (panel.nextWait? now)) := by
  refine ⟨pollTimeout_eq_neg_one_iff.trans nextWait?_eq_none_iff, ?_, ?_⟩
  · rintro ⟨tracker, member, waits⟩
    obtain ⟨pending, awaited⟩ := Option.ne_none_iff_exists'.mp waits
    obtain ⟨deadline, earliest⟩ :=
      exists_earliest (mem_deadlines_iff.mpr ⟨tracker, member, awaited⟩)
    rw [nextWait?_of_earliest earliest now]
    obtain ⟨above, below⟩ := pollTimeout_bounds (deadline.since now)
    exact ⟨deadline, earliest, above, below, pollTimeout_lt_add _, pollTimeout_of_long⟩
  · intro fuller time more order
    exact sleepsNoLonger_of_subset more order

/-- Two keys: one whose long action comes after the greatest timeout, and one with a short action.
-/
def farKeys : Bindings :=
  [⟨116, none, [⟨.long, 2147483647, "A", false⟩]⟩, ⟨30, none, [⟨.short, 1000, "C", false⟩]⟩]

/-- The first key is held; no other key waits for anything. -/
def farHeld : Panel :=
  (((start farKeys (.ofMillis 10)).run? [.feed ⟨⟨0⟩, 1, 116, 1⟩]).get (by decide)).2

/-- The first key is held, and the second one comes up after a tenth of a second. -/
def farBouncing : Panel :=
  ((farHeld.run? [.feed ⟨⟨5000000⟩, 1, 30, 1⟩, .feed ⟨⟨100000000⟩, 1, 30, 0⟩]).get (by decide)).2

/-- The statement on timeouts at the far deadline: the timeout is the greatest one while the key is
held alone, and less than five milliseconds before the end of the window of the other key it is five
milliseconds. -/
theorem sleep_of_farHeld :
    (∃ deadline, farHeld.IsEarliest deadline ∧
      longestTimeout * 1000000 ≤ (deadline.since ⟨0⟩).nanos ∧
      pollTimeout (farHeld.nextWait? ⟨0⟩) = longestTimeout) ∧
    farHeld.deadlines ⊆ farBouncing.deadlines ∧
    pollTimeout (farBouncing.nextWait? ⟨105000001⟩) = 5 ∧
    SleepsNoLonger (pollTimeout (farBouncing.nextWait? ⟨105000001⟩))
      (pollTimeout (farHeld.nextWait? ⟨0⟩)) := by
  obtain ⟨_, awaited, antitone⟩ := timeout_never_oversleeps farHeld ⟨0⟩
  obtain ⟨deadline, earliest, _, _, _, long⟩ := awaited (by decide)
  have only : farHeld.deadlines = [⟨2147483647000000⟩] := by decide
  have far : longestTimeout * 1000000 ≤ (deadline.since ⟨0⟩).nanos := by
    have member := earliest.awaited
    rw [only, List.mem_singleton] at member
    rw [member]
    decide
  have more : farHeld.deadlines ⊆ farBouncing.deadlines := by decide
  exact ⟨⟨deadline, earliest, far, long far⟩, more, by decide,
    antitone farBouncing ⟨105000001⟩ more (by decide)⟩

end Panel

end Keyhold
