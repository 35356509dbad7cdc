import Keyhold.Proofs.Panel.Run

/-!
# Calls of a panel

A caller hands a panel records, retires its deadlines and asks it for the wait. Every call has an
answer: what became of the record, what the retirement fired, or the wait. The calls that change
the panel are the inputs of its runs, and asking for the wait leaves it as it is, so what a step of
a tracker keeps is kept by every call.
-/

namespace Keyhold.Panel

/-- What a caller asks of a panel. -/
inductive Call where
  /-- A record is handed to the panel. -/
  | feed (event : Event)
  /-- All deadlines up to now are retired. -/
  | retire (now : Instant)
  /-- The time until the next deadline is asked for. -/
  | wait (now : Instant)
  deriving DecidableEq, Repr

/-- What a panel answers. -/
inductive Answer where
  /-- What became of the record. -/
  | dispatched (dispatch : Dispatch)
  /-- What the retirement fired. -/
  | fired (firings : List Firing)
  /-- The time until the next deadline; none while none is pending. -/
  | waits (wait : Option Span)
  deriving DecidableEq, Repr

/-- What a call is to the keys of a panel; none if it is nothing to them. -/
def Call.input? : Call → Option Input
  | .feed event => some (.feed event)
  | .retire now => some (.retire now)
  | .wait _ => none

/-- The panel after a call and the answer; none if a deadline cannot be represented. -/
def call? (panel : Panel) : Call → Option (Panel × Answer)
  | .feed event => (panel.feed? event).map fun next => (next, .dispatched (panel.dispatch event))
  | .retire now => some ((panel.retire now).1, .fired (panel.retire now).2)
  | .wait now => some (panel, .waits (panel.nextWait? now))

/-- One call of a run, with the panel on either side of it and the answer. -/
abbrev Exchange := Keyhold.Moment Panel Call Answer

/-- The exchanges of a run of calls, and the panel at its end. -/
abbrev calls? (panel : Panel) (calls : List Call) : Option (List Exchange × Panel) :=
  Keyhold.run? call? panel calls

/-- Whether a call of a panel leads to another one with an answer. -/
def Answers (panel : Panel) (call : Call) (next : Panel) (answer : Answer) : Prop :=
  panel.call? call = some (next, answer)

variable {panel next last : Panel} {call : Call} {answer : Answer} {calls : List Call}
  {exchanges : List Exchange}

/-- The exchanges of a run of calls are a course over them. -/
theorem course_of_calls? (ran : panel.calls? calls = some (exchanges, last)) :
    Course Answers panel exchanges last ∧ exchanges.map Moment.input = calls :=
  Keyhold.course_of_run? (fun called => called) ran

/-- A call changes a panel as the input does that it is, or leaves it as it is. -/
theorem change_of_call? (called : panel.call? call = some (next, answer)) :
    match call.input? with
    | some input => ∃ firings, Change panel input next firings
    | none => next = panel := by
  cases call with
  | feed event =>
    obtain ⟨fed, changed, same⟩ := Option.map_eq_some_iff.mp called
    cases same
    exact ⟨[], by rw [Change, step, changed, Option.map_some]⟩
  | retire now =>
    cases called
    exact ⟨_, rfl⟩
  | wait now =>
    cases called
    rfl

/-- A call keeps all codes in place. -/
theorem codes_of_call? (called : panel.call? call = some (next, answer)) :
    next.keys.map Tracker.code = panel.keys.map Tracker.code := by
  have changed := change_of_call? called
  split at changed
  · obtain ⟨_, change⟩ := changed
    exact change.codes
  · rw [changed]

/-- A key that is found after a call was found before it. -/
theorem key?_of_call? {code : UInt16} {after : Tracker}
    (called : panel.call? call = some (next, answer)) (found : next.key? code = some after) :
    ∃ before, panel.key? code = some before := by
  have bound : (next.key? code).isSome = true := by rw [found, Option.isSome_some]
  rw [isSome_key?, codes_of_call? called] at bound
  exact Option.isSome_iff_exists.mp (isSome_key?.mpr bound)

/-- What every step of a tracker keeps, a call keeps for every key of a panel. -/
theorem keys_keep_call? {P : Tracker → Prop}
    (keeps : ∀ {tracker own next firing}, Tracker.step tracker own = some (next, firing) →
      P tracker → P next)
    (called : panel.call? call = some (next, answer)) (before : ∀ tracker ∈ panel.keys, P tracker) :
    ∀ tracker ∈ next.keys, P tracker := by
  have changed := change_of_call? called
  split at changed
  · obtain ⟨_, change⟩ := changed
    exact change.keys_keep keeps before
  · rw [changed]
    exact before

end Keyhold.Panel
