import Keyhold.Proofs.Panel.Wait

/-!
# The timeout of a poll

A wait in nanoseconds becomes a timeout in whole milliseconds. What is left of it after whole
microseconds is dropped first; what is then left after whole milliseconds counts as one more. So
the timeout falls short of a wait that exceeds whole milliseconds by less than a microsecond.
`timeout_reaches_deadline_unless_cut` says for every panel that the end of the timeout finds a key
due for all other waits and for no such wait, and that the lack is always less than a microsecond.
-/

namespace Keyhold

namespace Panel

variable {panel : Panel} {now : Instant} {wait : Span}

/-- The moment at which a timeout in milliseconds that begins now has passed. -/
def timeoutEnd (now : Instant) (timeout : Int) : Instant :=
  now.later ⟨timeout.toNat * 1000000⟩

/-- A wait rounds to a count of milliseconds that is at most the greatest timeout. -/
theorem pollTimeout_some (wait : Span) :
    pollTimeout (some wait) =
      (min ((wait.nanos / 1000 + 999) / 1000) longestTimeout : Nat) := by
  show min (((wait.nanos : Int) / 1000 + 999) / 1000) (longestTimeout : Int) = _
  omega

/-- The timeout of a wait that is not too long: whole microseconds, rounded up to milliseconds. -/
theorem pollTimeout_of_fits (fits : wait.nanos ≤ longestTimeout * 1000000) :
    pollTimeout (some wait) = ((wait.nanos / 1000 + 999) / 1000 : Nat) := by
  have bound : (wait.nanos / 1000 + 999) / 1000 ≤ longestTimeout := by omega
  rw [pollTimeout_some, Nat.min_eq_left bound]

/-- The count of the end of a timeout. -/
theorem nanos_timeoutEnd (fits : wait.nanos ≤ longestTimeout * 1000000) :
    (timeoutEnd now (pollTimeout (some wait))).nanos =
      now.nanos + ((wait.nanos / 1000 + 999) / 1000 * 1000000 : Nat) := by
  rw [timeoutEnd, pollTimeout_of_fits fits, Instant.nanos_later, Int.toNat_natCast]

/-- A timeout never passes before it began. -/
theorem le_timeoutEnd (now : Instant) (timeout : Int) : now ≤ timeoutEnd now timeout := by
  rw [Instant.le_iff, timeoutEnd, Instant.nanos_later]
  omega

/-- A timeout lasts as long as its wait unless the wait exceeds whole milliseconds by less than a
microsecond. -/
theorem later_le_timeoutEnd_iff (fits : wait.nanos ≤ longestTimeout * 1000000) :
    now.later wait ≤ timeoutEnd now (pollTimeout (some wait)) ↔
      ¬ (0 < wait.nanos % 1000000 ∧ wait.nanos % 1000000 < 1000) := by
  rw [Instant.le_iff, nanos_timeoutEnd fits, Instant.nanos_later]
  omega

/-- A timeout is shorter than its wait by less than a microsecond. -/
theorem later_le_of_microsecond (fits : wait.nanos ≤ longestTimeout * 1000000) :
    now.later wait ≤ (timeoutEnd now (pollTimeout (some wait))).later ⟨999⟩ := by
  rw [Instant.le_iff, Instant.nanos_later, Instant.nanos_later, nanos_timeoutEnd fits]
  show now.nanos + (wait.nanos : Int) ≤ now.nanos + _ + (999 : Nat)
  omega

/-- A timeout is empty when its wait is less than a microsecond. -/
theorem pollTimeout_eq_zero_iff (fits : wait.nanos ≤ longestTimeout * 1000000) :
    pollTimeout (some wait) = 0 ↔ wait.nanos < 1000 := by
  rw [pollTimeout_of_fits fits]
  omega

/-- The wait is empty exactly when a key is due. -/
theorem due_iff_nextWait?_eq_zero (waits : panel.nextWait? now = some wait) :
    (∃ tracker ∈ panel.keys, tracker.isDue now = true) ↔ wait.nanos = 0 := by
  rw [due_iff_of_nextWait? waits (Int.le_refl _), Instant.le_iff, Instant.nanos_later]
  omega

/-- A poll that waits as long as its timeout says ends with a key due unless the wait exceeds whole
milliseconds by less than a microsecond. Its timeout is empty although no key is due exactly for
waits of less than a microsecond that are not empty. In every case a key is due within a
microsecond after the end. -/
theorem timeout_reaches_deadline_unless_cut (waits : panel.nextWait? now = some wait)
    (fits : wait.nanos ≤ longestTimeout * 1000000) :
    ((∃ tracker ∈ panel.keys,
        tracker.isDue (timeoutEnd now (pollTimeout (some wait))) = true) ↔
      ¬ (0 < wait.nanos % 1000000 ∧ wait.nanos % 1000000 < 1000)) ∧
    ((pollTimeout (some wait) = 0 → ∃ tracker ∈ panel.keys, tracker.isDue now = true) ↔
      ¬ (0 < wait.nanos ∧ wait.nanos < 1000)) ∧
    ∃ tracker ∈ panel.keys,
      tracker.isDue ((timeoutEnd now (pollTimeout (some wait))).later ⟨999⟩) = true := by
  have begins := le_timeoutEnd now (pollTimeout (some wait))
  have lasts : now ≤ (timeoutEnd now (pollTimeout (some wait))).later ⟨999⟩ := by
    rw [Instant.le_iff] at begins ⊢
    rw [Instant.nanos_later]
    omega
  refine ⟨?_, ?_, ?_⟩
  · rw [due_iff_of_nextWait? waits begins]
    exact later_le_timeoutEnd_iff fits
  · rw [due_iff_nextWait?_eq_zero waits, pollTimeout_eq_zero_iff fits]
    omega
  · exact (due_iff_of_nextWait? waits lasts).mpr (later_le_of_microsecond fits)

/-! ## Half a microsecond before a deadline -/

/-- Half a microsecond before the window of the bouncing key ends. -/
def beforeEnd : Instant := ⟨109999500⟩

/-- A poll that begins half a microsecond before a deadline does not wait and finds no key due. -/
theorem cut_timeout_finds_no_key_due :
    ¬ ∀ (bindings : Bindings) (window : Span) (inputs : List Input) (moments : List Moment)
      (panel : Panel) (now : Instant) (wait : Span),
      (start bindings window).run? inputs = some (moments, panel) →
      panel.nextWait? now = some wait → wait.nanos ≤ longestTimeout * 1000000 →
      (∃ tracker ∈ panel.keys,
        tracker.isDue (timeoutEnd now (pollTimeout (some wait))) = true) ∧
      (pollTimeout (some wait) = 0 → ∃ tracker ∈ panel.keys, tracker.isDue now = true) := by
  intro always
  have waits : heldRun.2.nextWait? beforeEnd = some ⟨500⟩ := by decide
  have claimed := always _ _ _ _ _ beforeEnd ⟨500⟩ ran_held waits (by decide)
  exact absurd claimed.1 (by decide)

/-- The statement on timeouts half a microsecond before a deadline: the timeout is empty, no key is
due, and the key is due within a microsecond. -/
theorem timeout_of_beforeEnd :
    heldRun.2.nextWait? beforeEnd = some ⟨500⟩ ∧
    (¬ ∃ tracker ∈ heldRun.2.keys,
      tracker.isDue (timeoutEnd beforeEnd (pollTimeout (some ⟨500⟩))) = true) ∧
    (pollTimeout (some ⟨500⟩) = 0 ∧
      ¬ ∃ tracker ∈ heldRun.2.keys, tracker.isDue beforeEnd = true) ∧
    ∃ tracker ∈ heldRun.2.keys,
      tracker.isDue ((timeoutEnd beforeEnd (pollTimeout (some ⟨500⟩))).later ⟨999⟩) = true := by
  have waits : heldRun.2.nextWait? beforeEnd = some ⟨500⟩ := by decide
  obtain ⟨reached, spins, near⟩ := timeout_reaches_deadline_unless_cut waits (by decide)
  refine ⟨waits, fun due => ?_, ⟨by decide, fun due => ?_⟩, near⟩
  · exact reached.mp due (by decide)
  · exact spins.mp (fun _ => due) (by decide)

end Panel

end Keyhold
