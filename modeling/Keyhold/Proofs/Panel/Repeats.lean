import Keyhold.Proofs.Panel.Calls

/-!
# Records that repeat a level

A key has a level: it was last said to be down or up. A tracker takes no notice of a record that
says the same again, and its phase tells the level, whatever deadlines were retired in between.
So the records of a run that repeat a level can be deleted, and the values of presses exchanged for
other values of presses. `repeats_are_invisible` says that the run which remains goes through the
same panels with the same answers, to the wait, the firings and the place where it stops.
-/

namespace Keyhold

namespace Tracker

variable {tracker next : Tracker} {stamp : Instant} {down : Bool}

/-- A record that repeats the level of a key changes nothing. -/
theorem handle_of_level (level : tracker.isDown = down) :
    tracker.handle stamp down = some tracker := by
  subst level
  rcases tracker with ⟨_, _, phase, _, _, _⟩
  cases phase <;> rfl

/-- A record says what the level of its key is from then on. -/
theorem isDown_of_handle (handled : tracker.handle stamp down = some next) :
    next.isDown = down := by
  cases change_of_handle handled with
  | repeats _ _ same => exact same
  | _ => rfl

/-- A look at the deadline does not change the level of a key. -/
theorem Sound.isDown_expire (sound : tracker.Sound) (now : Instant) :
    (tracker.expire now).1.isDown = tracker.isDown := by
  cases due : tracker.isDue now with
  | false => rw [expire_of_early due]
  | true =>
    rw [expire, if_pos due]
    rcases sound.phase_of_isDue due with phase | phase
    all_goals
      rw [isDown, isDown, decided, phase]
      rfl

end Tracker

namespace Panel

/-- Which keys were last said to be down. -/
abbrev Levels := UInt16 → Bool

namespace Levels

/-- Before any record all keys are up. -/
def initial : Levels := fun _ => false

/-- The levels after a call: a record says what the level of its key is. -/
def after (levels : Levels) : Call → Levels
  | .feed event => fun code =>
    if event.isKey && event.code == code then event.isPress else levels code
  | .retire _ => levels
  | .wait _ => levels

end Levels

/-- What is done to one call of a run. -/
inductive Edit where
  /-- The call is left as it is. -/
  | keep (call : Call)
  /-- The record gets another value. -/
  | revalue (event : Event) (value : Int)
  /-- The record is deleted. -/
  | delete (event : Event)
  deriving DecidableEq, Repr

namespace Edit

/-- The call before the edit. -/
def original : Edit → Call
  | .keep call => call
  | .revalue event _ => .feed event
  | .delete event => .feed event

/-- The call after the edit; none if it is deleted. -/
def edited? : Edit → Option Call
  | .keep call => some call
  | .revalue event value => some (.feed { event with value := value })
  | .delete _ => none

/-- Whether the edit only gives a press the value of another press, or deletes a record that repeats
the level of its key. -/
def Harmless (levels : Levels) : Edit → Prop
  | .keep _ => True
  | .revalue event value => event.value ≠ 0 ∧ value ≠ 0
  | .delete event => event.isKey = true ∧ event.isPress = levels event.code

instance (levels : Levels) (edit : Edit) : Decidable (edit.Harmless levels) :=
  match edit with
  | .keep _ => inferInstanceAs (Decidable True)
  | .revalue event value => inferInstanceAs (Decidable (event.value ≠ 0 ∧ value ≠ 0))
  | .delete event =>
    inferInstanceAs (Decidable (event.isKey = true ∧ event.isPress = levels event.code))

end Edit

/-- Whether all edits of a run are harmless, given the levels at its start. -/
def Harmless (levels : Levels) : List Edit → Prop
  | [] => True
  | edit :: rest => edit.Harmless levels ∧ Harmless (levels.after edit.original) rest

instance decidableHarmless (levels : Levels) : ∀ edits, Decidable (Harmless levels edits)
  | [] => inferInstanceAs (Decidable True)
  | edit :: rest =>
    have := decidableHarmless (levels.after edit.original) rest
    inferInstanceAs (Decidable (_ ∧ Harmless (levels.after edit.original) rest))

/-- The exchanges of a run that its edits leave, with the calls that they leave. -/
def remaining (edits : List Edit) (exchanges : List Exchange) : List Exchange :=
  (edits.zip exchanges).filterMap fun (edit, exchange) =>
    edit.edited?.map fun call => { exchange with input := call }

variable {panel next : Panel} {call : Call} {answer : Answer} {levels : Levels} {edit : Edit}

/-- Whether the phases of all keys tell their levels. -/
structure Follows (panel : Panel) (levels : Levels) : Prop where
  /-- Every key is sound. -/
  sound : ∀ tracker ∈ panel.keys, tracker.Sound
  /-- A key is down exactly when its last record said so. -/
  level : ∀ {code tracker}, panel.key? code = some tracker → tracker.isDown = levels code

/-- All keys of a new panel are up. -/
theorem follows_start (bindings : Bindings) (window : Span) :
    (start bindings window).Follows .initial where
  sound := keys_sound_start bindings window
  level key := by
    rw [key?_start] at key
    obtain ⟨binding, _, rfl⟩ := Option.map_eq_some_iff.mp key
    rfl

/-- A call keeps the phases in step with the levels. -/
theorem Follows.step (follows : panel.Follows levels)
    (called : panel.call? call = some (next, answer)) : next.Follows (levels.after call) where
  sound := keys_keep_call? (fun stepped => (Tracker.change_of_step stepped).sound) called
    follows.sound
  level {code tracker} key := by
    obtain ⟨before, keyBefore⟩ := key?_of_call? called key
    cases call with
    | feed event =>
      obtain ⟨fed, changed, same⟩ := Option.map_eq_some_iff.mp called
      cases same
      have own := key_of_feed? changed keyBefore
      simp only [Levels.after]
      split at own
      case isTrue isOwn =>
        obtain ⟨after, handled, found⟩ := own
        rw [key] at found
        cases found
        rw [if_pos isOwn, Tracker.isDown_of_handle handled]
      case isFalse other =>
        rw [key] at own
        cases own
        rw [if_neg other, follows.level keyBefore]
    | retire now =>
      cases called
      rw [key?_retire, keyBefore] at key
      cases key
      have sound := follows.sound before (List.mem_of_find?_eq_some keyBefore)
      exact (sound.isDown_expire now).trans (follows.level keyBefore)
    | wait now =>
      cases called
      exact follows.level key

/-- A record that repeats the level of its key leaves the panel as it is. -/
theorem Follows.feed?_of_level (follows : panel.Follows levels) {event : Event}
    (level : event.isPress = levels event.code) : panel.feed? event = some panel := by
  rw [feed?_eq]
  split
  · rw [updateFirst_of_unmoved, Option.map_some]
    intro tracker found
    exact Tracker.handle_of_level ((follows.level found).trans level.symm)
  · rfl

/-- The record of a press may have any value of a press. -/
theorem call?_revalue (panel : Panel) {event : Event} {value : Int} (press : event.value ≠ 0)
    (presses : value ≠ 0) :
    panel.call? (.feed { event with value := value }) = panel.call? (.feed event) := by
  have alike : ({ event with value := value } : Event).isPress = event.isPress := by
    rw [Event.isPress, Event.isPress, bne_iff_ne.mpr press, bne_iff_ne.mpr presses]
  simp only [call?, feed?_eq, dispatch, alike]
  rfl

/-- A call that harmless edits leave does what it did before. -/
theorem Edit.Harmless.call?_edited (panel : Panel) (harmless : edit.Harmless levels)
    (edited : edit.edited? = some call) : panel.call? call = panel.call? edit.original := by
  cases edit with
  | keep kept =>
    cases edited
    rfl
  | revalue event value =>
    cases edited
    exact call?_revalue panel harmless.1 harmless.2
  | delete event => contradiction

/-- A call that harmless edits delete left the panel as it was. -/
theorem Follows.call?_deleted (follows : panel.Follows levels) (harmless : edit.Harmless levels)
    (deleted : edit.edited? = none) :
    ∃ answer, panel.call? edit.original = some (panel, answer) := by
  cases edit with
  | delete event =>
    refine ⟨.dispatched (panel.dispatch event), ?_⟩
    rw [Edit.original, call?, follows.feed?_of_level harmless.2, Option.map_some]
  | _ => contradiction

/-- Nothing remains of an exchange whose call is deleted. -/
theorem remaining_of_deleted (deleted : edit.edited? = none) (edits : List Edit)
    (exchange : Exchange) (exchanges : List Exchange) :
    remaining (edit :: edits) (exchange :: exchanges) = remaining edits exchanges :=
  List.filterMap_cons_none (Option.map_eq_none_iff.mpr deleted)

/-- All of an exchange remains but that its call is the edited one. -/
theorem remaining_of_edited (edited : edit.edited? = some call) (edits : List Edit)
    (exchange : Exchange) (exchanges : List Exchange) :
    remaining (edit :: edits) (exchange :: exchanges) =
      { exchange with input := call } :: remaining edits exchanges :=
  List.filterMap_cons_some (Option.map_eq_some_iff.mpr ⟨call, edited, rfl⟩)

/-- Harmless edits of a run of a panel whose phases tell the levels leave a run with the exchanges
that remain. Both runs stand at the same panel all along: a deleted call left it as it was, and any
other call takes both to the same next one. -/
theorem Follows.calls?_edited {edits : List Edit} (follows : panel.Follows levels)
    (harmless : Harmless levels edits) :
    panel.calls? (edits.filterMap Edit.edited?) =
      (panel.calls? (edits.map Edit.original)).map fun (exchanges, last) =>
        (remaining edits exchanges, last) := by
  induction edits generalizing panel levels with
  | nil => rfl
  | cons edit rest ih =>
    obtain ⟨here, further⟩ := harmless
    simp only [calls?, List.map_cons] at ih ⊢
    cases edited : edit.edited? with
    | none =>
      obtain ⟨answer, called⟩ := follows.call?_deleted here edited
      rw [List.filterMap_cons_none edited, ih (follows.step called) further, run?_of_step called,
        Option.map_map]
      exact Option.map_congr fun run _ =>
        Prod.ext (remaining_of_deleted edited rest _ run.1).symm rfl
    | some call =>
      have alike := here.call?_edited panel edited
      rw [List.filterMap_cons_some edited]
      cases called : panel.call? edit.original with
      | none =>
        rw [run?_of_stuck (alike.trans called), run?_of_stuck called, Option.map_none]
      | some result =>
        obtain ⟨next, answer⟩ := result
        rw [run?_of_step (alike.trans called), ih (follows.step called) further,
          run?_of_step called, Option.map_map, Option.map_map]
        exact Option.map_congr fun run _ =>
          Prod.ext (remaining_of_edited edited rest ⟨panel, edit.original, next, answer⟩ run.1).symm
            rfl

/-- Harmless edits of the calls of a panel delete records that repeat a level and exchange values of
presses, and no one can tell. If the run has a result, so has the edited one, and conversely; and
then it goes, call by call, from the same panel to the same panel with the same answer, leaving out
only what was deleted. -/
theorem repeats_are_invisible (bindings : Bindings) (window : Span) {edits : List Edit}
    (harmless : Harmless .initial edits) :
    (start bindings window).calls? (edits.filterMap Edit.edited?) =
      ((start bindings window).calls? (edits.map Edit.original)).map fun (exchanges, last) =>
        (remaining edits exchanges, last) :=
  (follows_start bindings window).calls?_edited harmless

/-- Edits of the presses of two keys. One key comes up before it ever went down, repeats while it is
held and after its action has run; the other comes up twice. -/
def pressEdits : List Edit :=
  [.delete ⟨⟨0⟩, 1, 116, 0⟩, .revalue ⟨⟨5000000⟩, 1, 116, 1⟩ 7,
    .delete ⟨⟨500000000⟩, 1, 116, 2⟩, .keep (.wait ⟨700000000⟩), .keep (.retire ⟨4005000000⟩),
    .delete ⟨⟨4100000000⟩, 1, 116, 2⟩, .keep (.feed ⟨⟨4150000000⟩, 1, 30, 1⟩),
    .keep (.feed ⟨⟨4200000000⟩, 1, 30, 0⟩), .delete ⟨⟨4205000000⟩, 1, 30, 0⟩,
    .keep (.retire ⟨4300000000⟩)]

/-- The run of the two presses before the edits. -/
def pressRun : List Exchange × Panel :=
  ((start .twoKeys (.ofMillis 10)).calls? (pressEdits.map Edit.original)).get (by decide)

/-- The two presses have a run before the edits. -/
theorem ran_press : (start .twoKeys (.ofMillis 10)).calls? (pressEdits.map Edit.original) =
    some (pressRun.1, pressRun.2) :=
  Option.eq_some_of_isSome (by decide)

/-- The statement on repeats at the edited presses: four records are gone, and the wait and the
firings of both keys are as they were. -/
theorem repeats_of_pressEdits :
    Harmless .initial pressEdits ∧
    (start .twoKeys (.ofMillis 10)).calls? (pressEdits.filterMap Edit.edited?) =
      some (remaining pressEdits pressRun.1, pressRun.2) ∧
    (remaining pressEdits pressRun.1).map (·.output) =
      [.dispatched .processed, .waits (some ⟨3305000000⟩), .fired [⟨116, none, "B", false, 4000⟩],
        .dispatched .processed, .dispatched .processed, .fired [⟨30, none, "C", false, 50⟩]] := by
  have harmless : Harmless .initial pressEdits := by decide
  have edited := repeats_are_invisible .twoKeys (.ofMillis 10) harmless
  rw [ran_press, Option.map_some] at edited
  exact ⟨harmless, edited, by decide⟩

end Panel

end Keyhold
