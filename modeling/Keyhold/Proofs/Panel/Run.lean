import Keyhold.Panel
import Keyhold.Proofs.Tracker.Run

/-!
# Runs of a panel

A run takes a panel through records and retirements. What happens to one key in it is a run of
a tracker by itself: `Input.forKey?` says what an input is to a key, and `run_of_key` takes
the moments of a panel to those of the tracker of one code. Nothing is assumed of the panel for
this but that no two keys have the same code, and that only where firings are told apart by
their code.
-/

namespace Keyhold

/-- Whether no two bindings are of the same key. -/
def Bindings.Distinct (bindings : Bindings) : Prop := (bindings.map Binding.code).Nodup

instance (bindings : Bindings) : Decidable bindings.Distinct :=
  inferInstanceAs (Decidable (bindings.map Binding.code).Nodup)

/-- Two keys, for runs on fixed inputs: one with a short and a long action, one with a short one. -/
def Bindings.twoKeys : Bindings :=
  [.shortAndLong, ⟨30, none, [⟨.short, 1000, "C", false⟩]⟩]

namespace Tracker

/-- A record does not change the code of a tracker. -/
theorem code_of_handle {tracker next : Tracker} {stamp : Instant} {down : Bool}
    (handled : tracker.handle stamp down = some next) : next.code = tracker.code :=
  congrArg Binding.code (change_of_handle handled).fixed.1

/-- A look at the deadline does not change the code of a tracker. -/
@[simp] theorem code_expire (tracker : Tracker) (now : Instant) :
    (tracker.expire now).1.code = tracker.code :=
  congrArg Binding.code (tracker.change_expire now).fixed.1

/-- Firings carry the code of their tracker. -/
theorem code_of_expire {tracker : Tracker} {now : Instant} {firing : Firing}
    (fires : (tracker.expire now).2 = some firing) : firing.code = tracker.code := by
  rw [expire] at fires
  split at fires
  · obtain ⟨action, _, rfl⟩ := Option.map_eq_some_iff.mp fires
    rfl
  · contradiction

end Tracker

namespace Panel

/-- Something that happens to a panel. -/
inductive Input where
  /-- A record is handed to the panel. -/
  | feed (event : Event)
  /-- All deadlines up to now are retired. -/
  | retire (now : Instant)
  deriving DecidableEq, Repr

/-- What a record is to the tracker of a code; none if it is no matter of that key. -/
def recordFor? (code : UInt16) (event : Event) : Option Tracker.Input :=
  if event.isKey && event.code == code then some (.record event.stamp event.isPress) else none

/-- Only records concern a key. -/
theorem isRecord_of_recordFor? {code : UInt16} {event : Event} {own : Tracker.Input}
    (concerns : recordFor? code event = some own) : own.isRecord = true := by
  obtain ⟨_, same⟩ := Option.ite_none_right_eq_some.mp concerns
  cases same
  rfl

namespace Input

/-- What an input is to the tracker of a code; none if it is no matter of that key. -/
def forKey? (code : UInt16) : Input → Option Tracker.Input
  | .feed event => recordFor? code event
  | .retire now => some (.timeout now)

/-- What an input is to a key that it concerns. -/
def toKey : Input → Tracker.Input
  | .feed event => .record event.stamp event.isPress
  | .retire now => .timeout now

/-- When the input happens. -/
def time : Input → Instant
  | .feed event => event.stamp
  | .retire now => now

/-- Whether the input is a press or a repeat of a key. -/
def presses (code : UInt16) (input : Input) : Bool :=
  (input.forKey? code).any Tracker.Input.isPress

/-- Whether the input is a release of a key. -/
def releases (code : UInt16) (input : Input) : Bool :=
  (input.forKey? code).any Tracker.Input.isRelease

/-- Whether the input retires deadlines. -/
def retires : Input → Bool
  | .feed _ => false
  | .retire _ => true

/-- A press of a key is a press to its tracker. -/
theorem presses_iff {code : UInt16} {input : Input} :
    input.presses code = true ↔ ∃ own, input.forKey? code = some own ∧ own.isPress = true :=
  Option.any_eq_true _ _

/-- A release of a key is a release to its tracker. -/
theorem releases_iff {code : UInt16} {input : Input} :
    input.releases code = true ↔ ∃ own, input.forKey? code = some own ∧ own.isRelease = true :=
  Option.any_eq_true _ _

/-- Only a retirement is a look at the deadline. -/
theorem eq_retire_of_forKey? {code : UInt16} {input : Input} {now : Instant}
    (found : input.forKey? code = some (.timeout now)) : input = .retire now := by
  cases input with
  | feed event =>
    obtain ⟨_, same⟩ := Option.ite_none_right_eq_some.mp found
    cases same
  | retire other =>
    cases found
    rfl

/-- An input is to a key what it is at its own time. -/
theorem time_of_forKey? {code : UInt16} {input : Input} {own : Tracker.Input}
    (found : input.forKey? code = some own) : own.time = input.time := by
  cases input with
  | feed event =>
    obtain ⟨_, same⟩ := Option.ite_none_right_eq_some.mp found
    cases same
    rfl
  | retire now =>
    cases found
    rfl

end Input

/-- The panel after an input and the firings that came of it; none if a deadline cannot be
represented. -/
def step (panel : Panel) : Input → Option (Panel × List Firing)
  | .feed event => (panel.feed? event).map fun next => (next, [])
  | .retire now => some (panel.retire now)

/-- Whether an input leads from one panel to another. -/
def Change (panel : Panel) (input : Input) (next : Panel) (firings : List Firing) : Prop :=
  panel.step input = some (next, firings)

/-- One input of a run of a panel. -/
abbrev Moment := Keyhold.Moment Panel Input (List Firing)

/-- The moments of a run of a panel, and the panel at its end. -/
abbrev run? (panel : Panel) (inputs : List Input) : Option (List Moment × Panel) :=
  Keyhold.run? step panel inputs

/-- A retirement and the batch of records that follows it. -/
structure Round where
  now : Instant
  events : List Event
  deriving DecidableEq, Repr

namespace Round

/-- What happens to a panel in a round. -/
def inputs (round : Round) : List Input := .retire round.now :: round.events.map .feed

/-- A round is a look at the deadline of a key, followed by the records of that key. -/
theorem inputs_forKey? (round : Round) (code : UInt16) :
    round.inputs.filterMap (Input.forKey? code) =
      .timeout round.now :: round.events.filterMap (recordFor? code) := by
  rw [inputs, List.filterMap_cons, List.filterMap_map]
  rfl

end Round

/-- The firings of one key in moments, in order. -/
def firingsOf (code : UInt16) (moments : List Moment) : List Firing :=
  (moments.flatMap Moment.output).filter (·.code == code)

/-- What a moment of the panel is to the tracker of a code; none if it is no matter of that
key. -/
def forKey? (code : UInt16) (moment : Moment) : Option Tracker.Moment :=
  (moment.input.forKey? code).bind fun input =>
    (moment.before.key? code).bind fun before =>
      (moment.after.key? code).map fun after =>
        ⟨before, input, after, moment.output.find? (·.code == code)⟩

/-- A moment is to a key what its input and its output are. -/
theorem of_forKey? {code : UInt16} {moment : Moment} {own : Tracker.Moment}
    (view : forKey? code moment = some own) :
    moment.input.forKey? code = some own.input ∧
      own.output = moment.output.find? (·.code == code) := by
  obtain ⟨input, concerns, further⟩ := Option.bind_eq_some_iff.mp view
  obtain ⟨before, _, found⟩ := Option.bind_eq_some_iff.mp further
  obtain ⟨after, _, rfl⟩ := Option.map_eq_some_iff.mp found
  exact ⟨concerns, rfl⟩

/-- The action decided on for a key when deadlines are retired. It is the one that the panel fires
for the key (`firings_of_decision`). -/
def decision? (panel : Panel) (code : UInt16) (now : Instant) : Option Action :=
  (panel.key? code).bind fun tracker => if tracker.isDue now then tracker.decide? now else none

/-- Whether a press of a key is under way that started at the given time. -/
def HeldSince (panel : Panel) (code : UInt16) (origin : Instant) : Prop :=
  ∃ tracker, panel.key? code = some tracker ∧ tracker.phase = .pressed ∧
    tracker.pressedAt = some origin

/-- Whether no two keys have the same code. -/
def Distinct (panel : Panel) : Prop := (panel.keys.map Tracker.code).Nodup

/-- The panel of distinct bindings is distinct. -/
theorem distinct_start {bindings : Bindings} (distinct : bindings.Distinct) (window : Span) :
    (start bindings window).Distinct := by
  rw [Distinct, start, List.map_map]
  exact distinct

/-- A new panel holds a new tracker for every binding. -/
theorem key?_start (bindings : Bindings) (window : Span) (code : UInt16) :
    (start bindings window).key? code =
      (bindings.get? code).map fun binding => Tracker.start binding window := by
  rw [key?, start, List.find?_map]
  rfl

/-! ## One key of a panel -/

variable {panel next last : Panel} {input : Input} {firings : List Firing} {code : UInt16}
  {tracker : Tracker} {moments : List Moment}

/-- Replacing the tracker of a code changes what is found under that code, and nothing else. -/
theorem find?_updateFirst {keys others : List Tracker} {update : Tracker → Option Tracker}
    (keeps : ∀ {tracker next}, update tracker = some next → next.code = tracker.code)
    {touched : UInt16} (updated : updateFirst touched update keys = some others)
    (found : keys.find? (·.code == code) = some tracker) :
    if touched = code then
      ∃ after, update tracker = some after ∧ others.find? (·.code == code) = some after
    else others.find? (·.code == code) = some tracker := by
  induction keys generalizing others with
  | nil => contradiction
  | cons first rest ih =>
    rw [updateFirst] at updated
    split at updated
    case isTrue here =>
      obtain ⟨after, changed, rfl⟩ := Option.map_eq_some_iff.mp updated
      have same := keeps changed
      by_cases own : touched = code
      · have isFirst : first = tracker := by simpa [here, own] using found
        rw [if_pos own]
        refine ⟨after, isFirst ▸ changed, ?_⟩
        simp [same, here, own]
      · have isOther : ¬ first.code = code := here ▸ own
        rw [if_neg own]
        simpa [same, isOther] using found
    case isFalse away =>
      obtain ⟨changed, further, rfl⟩ := Option.map_eq_some_iff.mp updated
      by_cases isFirst : first.code = code
      · have own : ¬ touched = code := fun own => away (isFirst.trans own.symm)
        rw [if_neg own]
        simpa [isFirst] using found
      · have below := ih further (by simpa [isFirst] using found)
        simpa [isFirst] using below

/-- Nothing is replaced under a code whose tracker is replaced by itself. -/
theorem updateFirst_of_unmoved {keys : List Tracker} {update : Tracker → Option Tracker}
    (unmoved : ∀ tracker, keys.find? (·.code == code) = some tracker →
      update tracker = some tracker) : updateFirst code update keys = some keys := by
  induction keys with
  | nil => rfl
  | cons first rest ih =>
    by_cases here : first.code = code
    · rw [updateFirst, if_pos here, unmoved first (by simp [here]), Option.map_some]
    · have below := ih fun tracker found => unmoved tracker (by simpa [here] using found)
      rw [updateFirst, if_neg here, below, Option.map_some]

/-- Nothing is replaced under a code that no key has. -/
theorem updateFirst_of_absent {keys : List Tracker} {update : Tracker → Option Tracker}
    (absent : keys.find? (·.code == code) = none) : updateFirst code update keys = some keys :=
  updateFirst_of_unmoved fun tracker found => by
    rw [absent] at found
    contradiction

/-- A key record goes to the first tracker of its code; any other record goes nowhere. -/
theorem feed?_eq (panel : Panel) (event : Event) :
    panel.feed? event = if event.isKey = true then
      (updateFirst event.code (·.handle event.stamp event.isPress) panel.keys).map Panel.mk
    else some panel := by
  rw [feed?, dispatch]
  by_cases isKey : event.isKey = true
  · cases known : panel.key? event.code with
    | some tracker => simp [isKey]
    | none =>
      rw [key?] at known
      simp [isKey, updateFirst_of_absent known]
  · simp [isKey]

/-- The tracker of a code goes through a record by itself. -/
theorem key_of_feed? {event : Event} (fed : panel.feed? event = some next)
    (key : panel.key? code = some tracker) :
    if event.isKey && event.code == code then
      ∃ after, tracker.handle event.stamp event.isPress = some after ∧
        next.key? code = some after
    else next.key? code = some tracker := by
  rw [feed?_eq] at fed
  split at fed
  · rename_i isKey
    obtain ⟨keys, updated, rfl⟩ := Option.map_eq_some_iff.mp fed
    have found := find?_updateFirst (fun handled => Tracker.code_of_handle handled) updated key
    simpa [isKey, key?] using found
  · rename_i other
    cases fed
    simpa [other] using key

/-- The tracker of a code goes through a retirement by itself. -/
theorem key?_retire (panel : Panel) (now : Instant) (code : UInt16) :
    (panel.retire now).1.key? code =
      (panel.key? code).map fun tracker => (tracker.expire now).1 := by
  rw [key?, retire, List.find?_map, key?]
  congr 2
  funext tracker
  exact congrArg (· == code) (tracker.code_expire now)

/-- Replacing the tracker of a code keeps all codes in place. -/
theorem map_code_updateFirst {keys others : List Tracker} {update : Tracker → Option Tracker}
    (keeps : ∀ {tracker next}, update tracker = some next → next.code = tracker.code)
    {touched : UInt16} (updated : updateFirst touched update keys = some others) :
    others.map Tracker.code = keys.map Tracker.code := by
  induction keys generalizing others with
  | nil =>
    cases updated
    rfl
  | cons first rest ih =>
    rw [updateFirst] at updated
    split at updated
    · obtain ⟨after, changed, rfl⟩ := Option.map_eq_some_iff.mp updated
      rw [List.map_cons, List.map_cons, keeps changed]
    · obtain ⟨changed, further, rfl⟩ := Option.map_eq_some_iff.mp updated
      rw [List.map_cons, List.map_cons, ih further]

/-- An input keeps all codes in place. -/
theorem Change.codes (change : Change panel input next firings) :
    next.keys.map Tracker.code = panel.keys.map Tracker.code := by
  cases input with
  | feed event =>
    obtain ⟨fed, changed, same⟩ := Option.map_eq_some_iff.mp change
    cases same
    rw [feed?_eq] at changed
    split at changed
    · obtain ⟨keys, updated, rfl⟩ := Option.map_eq_some_iff.mp changed
      exact map_code_updateFirst (fun handled => Tracker.code_of_handle handled) updated
    · cases changed
      rfl
  | retire now =>
    cases Option.some.inj change
    simp

/-- An input keeps a panel distinct. -/
theorem Change.distinct (change : Change panel input next firings) (distinct : panel.Distinct) :
    next.Distinct := by
  rw [Distinct, change.codes]
  exact distinct

/-- What is replaced under a code comes of a tracker that was there before. -/
theorem mem_updateFirst {keys others : List Tracker} {update : Tracker → Option Tracker}
    (updated : updateFirst code update keys = some others) (member : tracker ∈ others) :
    tracker ∈ keys ∨ ∃ before ∈ keys, update before = some tracker := by
  induction keys generalizing others with
  | nil =>
    cases updated
    contradiction
  | cons first rest ih =>
    rw [updateFirst] at updated
    split at updated
    · obtain ⟨after, changed, rfl⟩ := Option.map_eq_some_iff.mp updated
      rcases List.mem_cons.mp member with rfl | member
      · exact .inr ⟨first, List.mem_cons_self, changed⟩
      · exact .inl (List.mem_cons_of_mem _ member)
    · obtain ⟨changed, further, rfl⟩ := Option.map_eq_some_iff.mp updated
      rcases List.mem_cons.mp member with rfl | member
      · exact .inl List.mem_cons_self
      · rcases ih further member with kept | ⟨before, member, same⟩
        · exact .inl (List.mem_cons_of_mem _ kept)
        · exact .inr ⟨before, List.mem_cons_of_mem _ member, same⟩

/-- A tracker of a panel after an input was there before, or comes of one by the step that the input
is to its key. -/
theorem Change.origin (change : Change panel input next firings) (member : tracker ∈ next.keys) :
    tracker ∈ panel.keys ∨ ∃ before ∈ panel.keys, ∃ firing,
      before.step input.toKey = some (tracker, firing) := by
  cases input with
  | feed event =>
    obtain ⟨fed, changed, same⟩ := Option.map_eq_some_iff.mp change
    cases same
    rw [feed?_eq] at changed
    split at changed
    · obtain ⟨keys, updated, rfl⟩ := Option.map_eq_some_iff.mp changed
      refine (mem_updateFirst updated member).imp_right fun ⟨before, present, handled⟩ => ?_
      refine ⟨before, present, none, ?_⟩
      rw [Input.toKey, Tracker.step, handled, Option.map_some]
    · cases changed
      exact .inl member
  | retire now =>
    cases Option.some.inj change
    obtain ⟨before, present, rfl⟩ := List.mem_map.mp member
    exact .inr ⟨before, present, (before.expire now).2, rfl⟩

/-- What the step that an input is to a key keeps, the input keeps for every key of a panel. -/
theorem Change.keys_keep {P : Tracker → Prop}
    (keeps : ∀ {tracker next firing}, Tracker.step tracker input.toKey = some (next, firing) →
      P tracker → P next)
    (change : Change panel input next firings) (before : ∀ tracker ∈ panel.keys, P tracker) :
    ∀ tracker ∈ next.keys, P tracker := by
  intro tracker member
  rcases change.origin member with kept | ⟨earlier, present, _, stepped⟩
  · exact before tracker kept
  · exact keeps stepped (before earlier present)

/-- What every step of a tracker keeps, a course keeps for every key of a panel. -/
theorem keys_keep {P : Tracker → Prop}
    (keeps : ∀ {tracker own next firing}, Tracker.step tracker own = some (next, firing) →
      P tracker → P next)
    (course : Course Change panel moments last) (initially : ∀ tracker ∈ panel.keys, P tracker) :
    ∀ tracker ∈ last.keys, P tracker :=
  course.keeps (P := fun later => ∀ tracker ∈ later.keys, P tracker)
    (fun change => change.keys_keep keeps) initially

/-- Every key of a new panel is sound. -/
theorem keys_sound_start (bindings : Bindings) (window : Span) :
    ∀ tracker ∈ (start bindings window).keys, tracker.Sound := by
  intro tracker member
  obtain ⟨binding, _, rfl⟩ := List.mem_map.mp member
  exact Tracker.sound_start binding window

/-- Every key of a run is sound. -/
theorem keys_sound {bindings : Bindings} {window : Span}
    (course : Course Change (start bindings window) moments panel) :
    ∀ tracker ∈ panel.keys, tracker.Sound :=
  keys_keep (fun stepped => (Tracker.change_of_step stepped).sound) course
    (keys_sound_start bindings window)

/-- A panel has a tracker for exactly the codes of its keys. -/
theorem isSome_key? : (panel.key? code).isSome = true ↔ code ∈ panel.keys.map Tracker.code := by
  rw [key?, List.find?_isSome, List.mem_map]
  simp

/-- A course keeps all codes in place. -/
theorem codes_of_course (course : Course Change panel moments last) :
    last.keys.map Tracker.code = panel.keys.map Tracker.code :=
  course.keeps (P := fun later => later.keys.map Tracker.code = panel.keys.map Tracker.code)
    (fun change same => change.codes.trans same) rfl

/-- A key that is bound at any time of a run is bound at its start. -/
theorem bound_of_course (course : Course Change panel moments last)
    (bound : (last.key? code).isSome = true) : (panel.key? code).isSome = true := by
  rw [isSome_key?, codes_of_course course] at bound
  exact isSome_key?.mpr bound

/-- A key that is found at any time of a run started with a new tracker. -/
theorem key?_start_of_course {bindings : Bindings} {window : Span}
    (course : Course Change (start bindings window) moments last)
    (key : last.key? code = some tracker) :
    ∃ binding, (start bindings window).key? code = some (Tracker.start binding window) := by
  have bound := bound_of_course course (by rw [key]; rfl)
  rw [key?_start, Option.isSome_map] at bound
  obtain ⟨binding, found⟩ := Option.isSome_iff_exists.mp bound
  exact ⟨binding, by rw [key?_start, found, Option.map_some]⟩

/-- In a distinct panel at most one tracker has a code. -/
theorem filter_code {keys : List Tracker} (distinct : (keys.map Tracker.code).Nodup)
    (code : UInt16) :
    keys.filter (·.code == code) = (keys.find? (·.code == code)).toList := by
  induction keys with
  | nil => rfl
  | cons first rest ih =>
    obtain ⟨absent, distinctRest⟩ := List.nodup_cons.mp distinct
    by_cases here : first.code = code
    · have others : rest.filter (·.code == code) = [] := by
        refine List.filter_eq_nil_iff.mpr fun other member same => absent ?_
        have sameCode : other.code = first.code := by simpa [here] using same
        rw [← sameCode]
        exact List.mem_map_of_mem member
      simp [here, others]
    · simpa [here] using ih distinctRest

/-- A retirement fires for a key of a distinct panel what its tracker fires by itself. -/
theorem firings_retire (distinct : panel.Distinct) (now : Instant) (code : UInt16) :
    (panel.retire now).2.filter (·.code == code) =
      ((panel.key? code).bind fun tracker => (tracker.expire now).2).toList := by
  have own : ∀ tracker : Tracker, (tracker.expire now).2.filter (·.code == code) =
      if tracker.code == code then (tracker.expire now).2 else none := by
    intro tracker
    cases fires : (tracker.expire now).2 with
    | none => simp
    | some firing => simp [Option.filter_some, Tracker.code_of_expire fires]
  rw [retire, List.filter_filterMap]
  simp only [own]
  rw [← List.filterMap_filter, filter_code distinct, key?]
  cases panel.keys.find? (·.code == code) with
  | none => rfl
  | some tracker =>
    cases (tracker.expire now).2 <;> rfl

/-- What a retirement fires for a key is the action decided on for it. -/
theorem firings_of_decision (distinct : panel.Distinct) (key : panel.key? code = some tracker)
    (now : Instant) :
    (panel.retire now).2.filter (·.code == code) =
      ((panel.decision? code now).map fun action =>
        tracker.firing action (tracker.heldMillis now)).toList := by
  rw [firings_retire distinct, decision?, key, Option.bind_some, Option.bind_some,
    Tracker.expire]
  split <;> rfl

/-- An input is to the tracker of a code what it is to that tracker by itself. -/
theorem Change.key (change : Change panel input next firings) (distinct : panel.Distinct)
    (key : panel.key? code = some tracker) :
    firings.filter (·.code == code) = (firings.find? (·.code == code)).toList ∧
      ∃ after, next.key? code = some after ∧
        match input.forKey? code with
        | some own => tracker.step own = some (after, firings.find? (·.code == code))
        | none => after = tracker ∧ firings = [] := by
  cases input with
  | feed event =>
    obtain ⟨fed, changed, same⟩ := Option.map_eq_some_iff.mp change
    cases same
    refine ⟨rfl, ?_⟩
    have own := key_of_feed? changed key
    simp only [Input.forKey?, recordFor?]
    split at own
    case isTrue isOwn =>
      obtain ⟨after, handled, found⟩ := own
      refine ⟨after, found, ?_⟩
      simp [isOwn, Tracker.step, handled]
    case isFalse other =>
      refine ⟨tracker, own, ?_⟩
      simp [other]
  | retire now =>
    have retired : panel.retire now = (next, firings) := Option.some.inj change
    obtain rfl : (panel.retire now).1 = next := congrArg Prod.fst retired
    obtain rfl : (panel.retire now).2 = firings := congrArg Prod.snd retired
    have fires := firings_retire distinct now code
    rw [key, Option.bind_some] at fires
    have first : (panel.retire now).2.find? (·.code == code) = (tracker.expire now).2 := by
      rw [← List.head?_filter, fires]
      cases (tracker.expire now).2 <;> rfl
    refine ⟨by rw [fires, first], (tracker.expire now).1, ?_, ?_⟩
    · rw [key?_retire, key, Option.map_some]
    · simp only [Input.forKey?, Tracker.step, first]

/-! ## One key in a run -/

/-- The moments of a run of a panel are a course over its inputs. -/
theorem course_of_run? {inputs : List Input} (ran : panel.run? inputs = some (moments, last)) :
    Course Change panel moments last ∧ moments.map Moment.input = inputs :=
  Keyhold.course_of_run? id ran

/-- A moment that concerns a bound key is a moment of its tracker. -/
theorem view_of_change {moment : Moment} {after : Tracker} {own : Tracker.Input}
    (same : moment.before = panel) (key : panel.key? code = some tracker)
    (found : moment.after.key? code = some after)
    (concerns : moment.input.forKey? code = some own) :
    forKey? code moment = some ⟨tracker, own, after, moment.output.find? (·.code == code)⟩ := by
  rw [forKey?, concerns, same, Option.bind_some, key, Option.bind_some, found, Option.map_some]

/-- Every moment of a run that concerns a bound key is a moment of its tracker. -/
theorem view_of_mem (course : Course Change panel moments last) (distinct : panel.Distinct)
    (key : panel.key? code = some tracker) {moment : Moment} (member : moment ∈ moments)
    {own : Tracker.Input} (concerns : moment.input.forKey? code = some own) :
    ∃ before after, moment.before.key? code = some before ∧
      moment.after.key? code = some after ∧
      forKey? code moment = some ⟨before, own, after, moment.output.find? (·.code == code)⟩ := by
  induction moments generalizing panel tracker with
  | nil => contradiction
  | cons first rest ih =>
    obtain ⟨same, change, further⟩ := course
    obtain ⟨_, after, found, _⟩ := change.key distinct key
    rcases List.mem_cons.mp member with rfl | member
    · exact ⟨tracker, after, same ▸ key, found, view_of_change same key found concerns⟩
    · exact ih further (change.distinct distinct) found member

/-- The moments of a panel are, for the tracker of one code, a run of that tracker by itself over
the inputs that concern it, and it fires what the panel fires for the key. -/
theorem run_of_key (course : Course Change panel moments last) (distinct : panel.Distinct)
    (key : panel.key? code = some tracker) :
    ∃ final, last.key? code = some final ∧
      tracker.run? ((moments.map Moment.input).filterMap (Input.forKey? code)) =
        some (moments.filterMap (forKey? code), final) ∧
      firingsOf code moments = Tracker.firings (moments.filterMap (forKey? code)) := by
  induction moments generalizing panel tracker with
  | nil =>
    have same : panel = last := course
    exact ⟨tracker, same ▸ key, rfl, rfl⟩
  | cons moment rest ih =>
    obtain ⟨same, change, further⟩ := course
    obtain ⟨fires, after, found, own⟩ := change.key distinct key
    obtain ⟨final, finalKey, below, firingsBelow⟩ := ih further (change.distinct distinct) found
    refine ⟨final, finalKey, ?_⟩
    have split : firingsOf code (moment :: rest) =
        (moment.output.find? (·.code == code)).toList ++ firingsOf code rest := by
      rw [firingsOf, List.flatMap_cons, List.filter_append, fires, firingsOf]
    cases concerns : moment.input.forKey? code with
    | none =>
      rw [concerns] at own
      obtain ⟨unmoved, silent⟩ := own
      have skip : forKey? code moment = none := by rw [forKey?, concerns, Option.bind_none]
      rw [List.map_cons, List.filterMap_cons_none concerns, List.filterMap_cons_none skip, split,
        silent, ← unmoved]
      exact ⟨below, firingsBelow⟩
    | some input =>
      rw [concerns] at own
      have view := view_of_change same key found concerns
      rw [List.map_cons, List.filterMap_cons_some concerns, List.filterMap_cons_some view, split,
        firingsBelow]
      refine ⟨run?_cons own below, ?_⟩
      cases moment.output.find? (·.code == code) <;> rfl

/-- The inputs of a run are, for the tracker of one code, those that concern it. -/
theorem inputs_of_key (course : Course Change panel moments last) (distinct : panel.Distinct)
    (key : panel.key? code = some tracker) :
    (moments.filterMap (forKey? code)).map Moment.input =
      (moments.map Moment.input).filterMap (Input.forKey? code) := by
  obtain ⟨_, _, ran, _⟩ := run_of_key course distinct key
  exact (Tracker.course_of_run? ran).2

/-- The moments of a panel are, for the tracker of one code, a course of that tracker by itself,
and it fires what the panel fires for the key. -/
theorem course_of_key (course : Course Change panel moments last) (distinct : panel.Distinct)
    (key : panel.key? code = some tracker) :
    ∃ final, last.key? code = some final ∧
      Course Tracker.Change tracker (moments.filterMap (forKey? code)) final ∧
      firingsOf code moments = Tracker.firings (moments.filterMap (forKey? code)) := by
  obtain ⟨final, finalKey, ran, fires⟩ := run_of_key course distinct key
  exact ⟨final, finalKey, (Tracker.course_of_run? ran).1, fires⟩

end Panel

end Keyhold
