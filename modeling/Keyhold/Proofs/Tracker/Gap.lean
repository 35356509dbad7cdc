import Keyhold.Proofs.Tracker.Verdict

/-!
# From a release to the next press

What becomes of the press that follows a release depends on whether the press before it is
still to be decided when the key comes up, and then on whether anyone looks at the deadline
between the end of the debounce window and the new press. The stamp of the new press itself
plays no part.
-/

namespace Keyhold.Tracker

variable {tracker last : Tracker} {between later : List Moment} {release press : Moment}

/-- A press is like no release if the press before it is undecided and nobody looks at the
deadline after the window. -/
theorem resumed_of_unlooked
    (course : Course Change tracker (release :: between ++ press :: later) last)
    (sound : tracker.Sound) (phase : tracker.phase = .pressed)
    (releases : release.input.isRelease = true) (presses : press.input.isPress = true)
    (quiet : ∀ moment ∈ between, moment.input.isPress = false)
    (unlooked : ∀ moment ∈ between, ∀ now, moment.input = .timeout now →
      ¬ release.input.time.later tracker.window ≤ now) :
    press.after = { tracker with releasedAt := some release.input.time } ∧
      firings between = [] := by
  obtain ⟨_, change, further⟩ := course
  obtain ⟨middle, idle, _, pressed, _⟩ := course_append.mp further
  have bounced := change.bounces_of_pressed phase releases
  rw [bounced] at idle
  obtain ⟨unmoved, silent⟩ := unmoved_of_ignored idle fun moment member =>
    ignores_of_bouncing rfl rfl (quiet moment member) (unlooked moment member)
  obtain ⟨origin, began, deadline⟩ := sound.pressed phase
  rw [unmoved] at pressed
  have resumed := pressed.resumes_of_bouncing rfl presses
  simp only [began, Option.getD_some, ← deadline, ← phase] at resumed
  rw [← began] at resumed
  exact ⟨resumed, List.filterMap_eq_nil_iff.mpr silent⟩

/-- A press starts anew if the press before it is decided after the window, by its own length. -/
theorem restarted_of_looked {origin : Instant}
    (course : Course Change tracker (release :: between ++ press :: later) last)
    (phase : tracker.phase = .pressed) (began : tracker.pressedAt = some origin)
    (releases : release.input.isRelease = true) (presses : press.input.isPress = true)
    (quiet : ∀ moment ∈ between, moment.input.isPress = false)
    (looked : ∃ moment ∈ between, ∃ now, moment.input = .timeout now ∧
      release.input.time.later tracker.window ≤ now) :
    press.after = { tracker with
        pressedAt := some press.input.time
        releasedAt := some release.input.time
        deadline := tracker.binding.heldUntil? press.input.time } ∧
      firings between = (tracker.verdict (release.input.time.since origin)).toList := by
  obtain ⟨_, change, further⟩ := course
  obtain ⟨middle, wait, _, pressed, _⟩ := course_append.mp further
  have bounced := change.bounces_of_pressed phase releases
  rw [bounced] at wait
  obtain ⟨decided, fired⟩ := decided_of_bouncing wait rfl began rfl rfl quiet looked
  rw [decided] at pressed
  have restarted := pressed.begins_of_released rfl presses
  rw [← phase] at restarted
  exact ⟨restarted, fired⟩

/-- A press starts anew if the press before it was decided while the key was held. -/
theorem restarted_of_handled
    (course : Course Change tracker (release :: between ++ press :: later) last)
    (sound : tracker.Sound) (phase : tracker.phase = .handled)
    (releases : release.input.isRelease = true) (presses : press.input.isPress = true)
    (quiet : ∀ moment ∈ between, moment.input.isPress = false) :
    press.after = { tracker with
        phase := .pressed
        pressedAt := some press.input.time
        deadline := tracker.binding.heldUntil? press.input.time } ∧
      firings between = [] := by
  obtain ⟨_, change, further⟩ := course
  obtain ⟨middle, idle, _, pressed, _⟩ := course_append.mp further
  have soundNext := change.sound sound
  have ended := change.released_of_handled phase releases
  rw [ended] at idle soundNext
  obtain ⟨unmoved, silent⟩ := unmoved_of_ignored idle fun moment member =>
    soundNext.ignores_of_released rfl (quiet moment member)
  rw [unmoved] at pressed
  exact ⟨pressed.begins_of_released rfl presses, List.filterMap_eq_nil_iff.mpr silent⟩

end Keyhold.Tracker
