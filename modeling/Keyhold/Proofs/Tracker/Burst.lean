import Keyhold.Proofs.Tracker.Gap
import Keyhold.Proofs.Tracker.Latch

/-!
# Bursts of a bouncing key

A burst of a key reaches up to the next press that comes at least the debounce window after the
last release. `Contact` follows the records of a key by themselves, without a tracker, and
`bursts` groups the moments of a run by it.

While a press is undecided, a bounce puts the tracker back to where it was before the release.
A press that was decided while the key was held ends for good with its release, so a bounce of
that release begins a press of its own. `bursts_join_unless_decided` says that nothing else
makes a burst fire more than once. The statements take every order of looks at the deadline,
as long as no record is stamped before what precedes it.
-/

namespace Keyhold.Tracker

/-- What the records of a key say about it: whether it is down, and when it last came up. -/
structure Contact where
  down : Bool
  lastUp : Option Instant
  deriving DecidableEq, Repr

namespace Contact

/-- The contact of a key that was never down. -/
def idle : Contact := ⟨false, none⟩

/-- The contact after an input. Only a key that was down can come up. -/
def after (contact : Contact) : Input → Contact
  | .record _ true => { contact with down := true }
  | .record stamp false => if contact.down then ⟨false, some stamp⟩ else contact
  | .timeout _ => contact

/-- Whether an input is a press that comes at least a window after the last release. -/
def opens (window : Span) (contact : Contact) : Input → Bool
  | .record stamp true => !contact.down && contact.lastUp.any fun up => up.later window ≤ stamp
  | .record _ false => false
  | .timeout _ => false

/-- The contact after moments. -/
def afterAll (contact : Contact) (moments : List Moment) : Contact :=
  moments.foldl (fun contact moment => contact.after moment.input) contact

end Contact

/-- Moments split before each that opens a burst: what goes on with the present burst, and the
later bursts. -/
def splitBursts (window : Span) (contact : Contact) :
    List Moment → List Moment × List (List Moment)
  | [] => ([], [])
  | moment :: rest =>
    let (current, later) := splitBursts window (contact.after moment.input) rest
    if contact.opens window moment.input then ([], (moment :: current) :: later)
    else (moment :: current, later)

/-- The moments of a run grouped into bursts. -/
def bursts (window : Span) (moments : List Moment) : List (List Moment) :=
  (splitBursts window .idle moments).1 :: (splitBursts window .idle moments).2

/-- Whether the burst holds a second press: one press is decided while the key is held, then the
key comes up, goes down once more, and fires again. -/
def FiresAgain (burst : List Moment) : Prop :=
  ∃ held release press late, [held, release, press, late].Sublist burst ∧
    held.before.phase = .pressed ∧ held.output.isSome = true ∧
    release.before.phase = .handled ∧ release.input.isRelease = true ∧
    press.input.isPress = true ∧ late.output.isSome = true

/-! ## Grouping -/

/-- Whether none of the moments opens a burst. -/
def Joined (window : Span) (contact : Contact) : List Moment → Prop
  | [] => True
  | moment :: rest => contact.opens window moment.input = false ∧
      Joined window (contact.after moment.input) rest

/-- Whether no moment but perhaps the first opens a burst. -/
def JoinedAfterFirst (window : Span) (contact : Contact) : List Moment → Prop
  | [] => True
  | moment :: rest => Joined window (contact.after moment.input) rest

/-- Moments none of which opens a burst are joined after the first, too. -/
theorem Joined.afterFirst {window : Span} {contact : Contact} {moments : List Moment}
    (joined : Joined window contact moments) : JoinedAfterFirst window contact moments := by
  cases moments with
  | nil => trivial
  | cons moment rest => exact joined.2

/-- The rest of joined moments is joined. -/
theorem Joined.rest {window : Span} {contact : Contact} {earlier later : List Moment}
    (joined : Joined window contact (earlier ++ later)) :
    Joined window (contact.afterAll earlier) later := by
  induction earlier generalizing contact with
  | nil => exact joined
  | cons moment rest ih => exact ih joined.2

/-- What follows a moment of a burst goes on with the burst. -/
theorem JoinedAfterFirst.rest {window : Span} {contact : Contact} {earlier later : List Moment}
    {moment : Moment} (joined : JoinedAfterFirst window contact (earlier ++ moment :: later)) :
    Joined window ((contact.afterAll earlier).after moment.input) later := by
  cases earlier with
  | nil => exact joined
  | cons first rest => exact (Joined.rest joined).2

/-- Grouping into bursts keeps every moment, in order. -/
theorem splitBursts_flatten (window : Span) (contact : Contact) (moments : List Moment) :
    (splitBursts window contact moments).1 ++ (splitBursts window contact moments).2.flatten =
      moments := by
  induction moments generalizing contact with
  | nil => rfl
  | cons moment rest ih =>
    have others := ih (contact.after moment.input)
    simp only [splitBursts]
    split
    · rw [List.nil_append, List.flatten_cons, List.cons_append, others]
    · rw [List.cons_append, others]

/-- What goes on with the present burst does not open another. -/
theorem splitBursts_joined (window : Span) (contact : Contact) (moments : List Moment) :
    Joined window contact (splitBursts window contact moments).1 := by
  induction moments generalizing contact with
  | nil => trivial
  | cons moment rest ih =>
    simp only [splitBursts]
    split
    · trivial
    · rename_i joined
      exact ⟨by simpa using joined, ih _⟩

/-- Each later burst stands somewhere among the moments and is joined after its first. -/
theorem mem_splitBursts {window : Span} {contact : Contact} {moments burst : List Moment}
    (found : burst ∈ (splitBursts window contact moments).2) :
    ∃ earlier later, moments = earlier ++ burst ++ later ∧
      JoinedAfterFirst window (contact.afterAll earlier) burst := by
  induction moments generalizing contact with
  | nil => simp [splitBursts] at found
  | cons moment rest ih =>
    have inner (found : burst ∈ (splitBursts window (contact.after moment.input) rest).2) :
        ∃ earlier later, moment :: rest = earlier ++ burst ++ later ∧
          JoinedAfterFirst window (contact.afterAll earlier) burst := by
      obtain ⟨earlier, later, parts, joined⟩ := ih found
      exact ⟨moment :: earlier, later, by rw [parts]; rfl, joined⟩
    simp only [splitBursts] at found
    split at found
    · rcases List.mem_cons.mp found with rfl | found
      · refine ⟨[], (splitBursts window (contact.after moment.input) rest).2.flatten, ?_,
          splitBursts_joined _ _ _⟩
        rw [List.nil_append, List.cons_append, splitBursts_flatten]
      · exact inner found
    · exact inner found

/-- Every burst of a run stands somewhere among its moments and is joined after its first. -/
theorem mem_bursts {window : Span} {moments burst : List Moment}
    (found : burst ∈ bursts window moments) :
    ∃ earlier later, moments = earlier ++ burst ++ later ∧
      JoinedAfterFirst window (Contact.idle.afterAll earlier) burst := by
  rcases List.mem_cons.mp found with rfl | found
  · refine ⟨[], (splitBursts window .idle moments).2.flatten, ?_,
      (splitBursts_joined window .idle moments).afterFirst⟩
    rw [List.nil_append, splitBursts_flatten]
  · exact mem_splitBursts found

/-! ## Contact and tracker -/

/-- How a tracker agrees with the contact of its key. -/
structure Fits (tracker : Tracker) (contact : Contact) : Prop where
  /-- Both know whether the key is down. -/
  level : contact.down = tracker.isDown
  /-- A bouncing key waits for the end of the window after its last release. -/
  bouncing : tracker.phase = .debounce →
    ∃ up, contact.lastUp = some up ∧ tracker.deadline = some (up.later tracker.window)

variable {tracker next last : Tracker} {input : Input} {firing : Option Firing}
  {contact : Contact} {moments : List Moment}

/-- A new tracker fits a key that was never down. -/
theorem fits_start (binding : Binding) (window : Span) : Fits (start binding window) .idle where
  level := rfl
  bouncing := nofun

/-- Tracker and contact go through an input together. -/
theorem Change.fits (change : Change tracker input next firing) (sound : tracker.Sound)
    (fits : Fits tracker contact) : Fits next (contact.after input) := by
  have level := fits.level
  cases change with
  | begins stamp up => exact ⟨rfl, fun other => by cases other⟩
  | resumes stamp bouncing => exact ⟨rfl, fun other => by cases other⟩
  | releases stamp held =>
    have down : contact.down = true := by simp [level, isDown, held]
    refine ⟨?_, fun _ => ⟨stamp, ?_, rfl⟩⟩
    all_goals simp [Contact.after, down, isDown]
  | letsGo stamp decided =>
    have down : contact.down = true := by simp [level, isDown, decided]
    refine ⟨?_, fun other => by cases other⟩
    simp [Contact.after, down, isDown]
  | repeats stamp down same =>
    have unchanged : contact.after (.record stamp down) = contact := by
      rw [same] at level
      cases down with
      | true =>
        rw [Contact.after, ← level]
      | false =>
        rw [Contact.after, level]
        rfl
    rw [unchanged]
    exact fits
  | waits now early => exact fits
  | decides now due =>
    rcases sound.phase_of_isDue due with held | bouncing
    · refine ⟨?_, by simp [decided, held]⟩
      simp [Contact.after, level, isDown, decided, held]
    · refine ⟨?_, by simp [decided, bouncing]⟩
      simp only [Contact.after, level, isDown, decided, bouncing]
      rfl

/-- Tracker and contact go through a course together. -/
theorem Fits.along (fits : Fits tracker contact) (sound : tracker.Sound)
    (course : Course Change tracker moments last) : Fits last (contact.afterAll moments) := by
  induction moments generalizing tracker contact with
  | nil =>
    rw [← show tracker = last from course]
    exact fits
  | cons moment rest ih =>
    obtain ⟨_, change, further⟩ := course
    exact ih (change.fits sound fits) (change.sound sound) further

/-! ## Firings of one burst -/

/-- A burst of a key that came up holds no press from the end of the window on. -/
theorem Joined.quiet {window : Span} {up : Instant} (joined : Joined window contact moments)
    (high : contact.down = false) (came : contact.lastUp = some up)
    (late : ∀ moment ∈ moments, moment.input.isPress = true →
      up.later window ≤ moment.input.time) :
    ∀ moment ∈ moments, moment.input.isPress = false := by
  induction moments with
  | nil => exact fun _ member => absurd member List.not_mem_nil
  | cons moment rest ih =>
    obtain ⟨continues, joined⟩ := joined
    have quiet : moment.input.isPress = false := by
      cases press : moment.input.isPress with
      | false => rfl
      | true =>
        have past := late moment List.mem_cons_self press
        rcases moment with ⟨before, ⟨stamp, down⟩ | ⟨now⟩, after, firing⟩
        · rw [show down = true from press] at continues
          simp only [Contact.opens, high, came, Option.any_some, Bool.not_false, Bool.true_and,
            decide_eq_false_iff_not] at continues
          exact absurd past continues
        · contradiction
    have unchanged : contact.after moment.input = contact := by
      rcases moment with ⟨before, ⟨stamp, down⟩ | ⟨now⟩, after, firing⟩
      · simp [show down = false from quiet, Contact.after, high]
      · rfl
    rw [unchanged] at joined
    intro other member
    rcases List.mem_cons.mp member with rfl | member
    · exact quiet
    · exact ih joined (fun other member => late other (List.mem_cons_of_mem _ member)) other member

/-- A key whose press was decided while it was held has to come up and go down before it fires
again. -/
theorem release_before_firing (course : Course Change tracker moments last)
    (sound : tracker.Sound) (phase : tracker.phase = .handled) {late : Moment}
    (member : late ∈ moments) (fires : late.output.isSome = true) :
    ∃ release press, [release, press, late].Sublist moments ∧
      release.before.phase = .handled ∧ release.input.isRelease = true ∧
      press.input.isPress = true := by
  obtain ⟨earlier, later, rfl⟩ := List.append_of_mem member
  obtain ⟨middle, within, _, change, _⟩ := course_append.mp course
  obtain ⟨now, _, due, _⟩ := change.due_of_firing fires
  obtain ⟨release, press, sublist, decided, releases, accepted⟩ :=
    sound.release_of_due within phase due
  refine ⟨release, press, ?_, decided, releases, (Bool.and_eq_true_iff.mp accepted).2⟩
  exact sublist.append (List.singleton_sublist.mpr List.mem_cons_self)

/-- Of two firings, one comes first. -/
theorem two_firings (more : 1 < (firings moments).length) :
    ∃ earlier first later second, moments = earlier ++ first :: later ∧
      first.output.isSome = true ∧ second ∈ later ∧ second.output.isSome = true := by
  induction moments with
  | nil => contradiction
  | cons moment rest ih =>
    cases fires : moment.output with
    | none =>
      simp only [firings, List.filterMap_cons, fires] at more
      obtain ⟨earlier, first, later, second, rfl, found⟩ := ih more
      exact ⟨moment :: earlier, first, later, second, rfl, found⟩
    | some firing =>
      simp only [firings, List.filterMap_cons, fires, List.length_cons] at more
      obtain ⟨again, member⟩ := List.exists_mem_of_length_pos (Nat.lt_of_succ_lt_succ more)
      obtain ⟨second, member, same⟩ := List.mem_filterMap.mp member
      exact ⟨[], moment, rest, second, rfl, by rw [fires]; rfl, member, by rw [same]; rfl⟩

/-- A burst fires more than once only if it holds a second press behind a firing while the key was
held: once a bouncing key has fired, the window has passed, and a later press opens a burst. -/
theorem fires_again_of_more (course : Course Change tracker moments last) (sound : tracker.Sound)
    (fits : Fits tracker contact) (joined : JoinedAfterFirst tracker.window contact moments)
    (ordered : moments.Pairwise fun earlier later => earlier.input.inOrder later.input)
    (more : 1 < (firings moments).length) : FiresAgain moments := by
  obtain ⟨earlier, first, later, second, rfl, fires, member, again⟩ := two_firings more
  obtain ⟨middle, one, same, change, further⟩ := course_append.mp course
  have soundMiddle := sound.along one
  have soundNext := change.sound soundMiddle
  have fitsMiddle := fits.along sound one
  have fitsNext := change.fits soundMiddle fitsMiddle
  obtain ⟨now, isTimeout, due, next⟩ := change.due_of_firing fires
  rcases soundMiddle.phase_of_isDue due with held | bouncing
  · have phase : first.after.phase = .handled := by simp [next, decided, held]
    obtain ⟨release, press, sublist, found⟩ :=
      release_before_firing further soundNext phase member again
    refine ⟨first, release, press, second, ?_, ?_, fires, found.1, found.2.1, found.2.2, again⟩
    · exact (sublist.cons_cons first).trans (List.sublist_append_right _ _)
    · rw [same]
      exact held
  · have phase : first.after.phase = .released := by simp [next, decided, bouncing]
    obtain ⟨up, came, deadline⟩ := fitsMiddle.bouncing bouncing
    have passed : up.later tracker.window ≤ now := by
      rw [(fixed_of_course one).2] at deadline
      simpa [isDue, deadline] using due
    have high : ((contact.afterAll earlier).after first.input).down = false := by
      rw [fitsNext.level, isDown, phase]
      rfl
    have cameNext : ((contact.afterAll earlier).after first.input).lastUp = some up := by
      rw [isTimeout]
      exact came
    have quiet := Joined.quiet joined.rest high cameNext fun moment member press => by
      have order := (List.pairwise_cons.mp (List.pairwise_append.mp ordered).2.1).1 moment member
      rw [isTimeout] at order
      exact Int.le_trans passed (Input.le_of_inOrder order press)
    have silent := (unmoved_of_ignored further fun moment member =>
      soundNext.ignores_of_released phase (quiet moment member)).2 second member
    rw [silent] at again
    contradiction

/-- A press within the window puts a bouncing key back to where it was before the release if and
only if its press was still undecided then. -/
theorem resumes_iff {earlier between later : List Moment} {release press : Moment}
    (course : Course Change tracker (earlier ++ release :: between ++ press :: later) last)
    (sound : tracker.Sound) (releases : release.input.isRelease = true)
    (down : release.before.isDown = true)
    (quiet : ∀ moment ∈ between, moment.input.isPress = false)
    (presses : press.input.isPress = true)
    (early : ¬ release.input.time.later tracker.window ≤ press.input.time)
    (ordered : ∀ moment ∈ between, moment.input.inOrder press.input) :
    press.after = { release.before with releasedAt := some release.input.time } ↔
      release.before.phase = .pressed := by
  rw [List.append_assoc] at course
  obtain ⟨first, one, further⟩ := course_append.mp course
  have same : release.before = first := further.1
  have soundFirst := sound.along one
  rw [same] at down ⊢
  cases phase : first.phase with
  | released => simp [isDown, phase] at down
  | debounce => simp [isDown, phase] at down
  | pressed =>
    have unlooked : ∀ moment ∈ between, ∀ now, moment.input = .timeout now →
        ¬ release.input.time.later first.window ≤ now := by
      intro moment member now isTimeout past
      have order := Input.le_of_inOrder (ordered moment member) presses
      rw [isTimeout] at order
      rw [(fixed_of_course one).2] at past
      exact early (Int.le_trans past order)
    have resumed := resumed_of_unlooked further soundFirst phase releases presses quiet unlooked
    exact ⟨fun _ => rfl, fun _ => resumed.1⟩
  | handled =>
    have restarted := restarted_of_handled further soundFirst phase releases presses quiet
    refine ⟨fun resumed => ?_, fun undecided => by contradiction⟩
    have phases := congrArg Tracker.phase (restarted.1.symm.trans resumed)
    simp [phase] at phases

/-- A burst that holds a second press fires more than once. -/
theorem FiresAgain.more (again : FiresAgain moments) : 1 < (firings moments).length := by
  obtain ⟨held, release, press, late, sublist, _, fires, _, _, _, firesLate⟩ := again
  obtain ⟨one, fires⟩ := Option.isSome_iff_exists.mp fires
  obtain ⟨two, firesLate⟩ := Option.isSome_iff_exists.mp firesLate
  have ends : [held, late].Sublist moments :=
    (((List.Sublist.refl [late]).cons press).cons release |>.cons_cons held).trans sublist
  have both : [one, two].Sublist (firings moments) := by
    have mapped := ends.filterMap Moment.output
    simp only [List.filterMap_cons, fires, firesLate, List.filterMap_nil] at mapped
    exact mapped
  exact both.length_le

/-- In a run without disorder a burst fires more than once exactly when the key comes up after a
decided press and is pressed again. A press within the window after a release is like no release
exactly when the press before it was still undecided. -/
theorem bursts_join_unless_decided {binding : Binding} {window : Span} {inputs : List Input}
    (ran : (start binding window).run? inputs = some (moments, last))
    (ordered : inputs.Pairwise Input.inOrder) :
    (∀ burst ∈ bursts window moments, 1 < (firings burst).length ↔ FiresAgain burst) ∧
      ∀ earlier release between press later,
        moments = earlier ++ release :: between ++ press :: later →
        release.input.isRelease = true → release.before.isDown = true →
        (∀ moment ∈ between, moment.input.isPress = false) → press.input.isPress = true →
        ¬ release.input.time.later window ≤ press.input.time →
        (press.after = { release.before with releasedAt := some release.input.time } ↔
          release.before.phase = .pressed) := by
  obtain ⟨course, same⟩ := course_of_run? ran
  have sound := sound_start binding window
  rw [← same, List.pairwise_map] at ordered
  refine ⟨fun burst member => ⟨fun more => ?_, FiresAgain.more⟩, ?_⟩
  · obtain ⟨earlier, later, rfl, joined⟩ := mem_bursts member
    obtain ⟨_, parts, _⟩ := course_append.mp course
    obtain ⟨first, before, within⟩ := course_append.mp parts
    have fixed : first.window = window := (fixed_of_course before).2
    rw [← fixed] at joined
    have orderedBurst := (List.pairwise_append.mp (List.pairwise_append.mp ordered).1).2.1
    exact fires_again_of_more within (sound.along before)
      ((fits_start binding window).along sound before)
      joined orderedBurst more
  · intro earlier release between press later parts releases down quiet presses early
    subst parts
    refine resumes_iff course sound releases down quiet presses early fun moment member => ?_
    exact (List.pairwise_append.mp ordered).2.2 moment
      (List.mem_append_right _ (List.mem_cons_of_mem _ member)) press List.mem_cons_self

/-! ## A bounce after a long press -/

/-- Whether the deadline is looked at when it comes: a record does not find it passed, and a look
comes at the deadline itself. -/
def Prompt (tracker : Tracker) : Input → Prop
  | .record stamp _ => tracker.isDue stamp = false
  | .timeout now => tracker.deadline = some now

instance (tracker : Tracker) (input : Input) : Decidable (tracker.Prompt input) :=
  match input with
  | .record stamp _ => inferInstanceAs (Decidable (tracker.isDue stamp = false))
  | .timeout now => inferInstanceAs (Decidable (tracker.deadline = some now))

/-- A long press that bounces when the key is let go. -/
def bouncedLongPress : List Input :=
  [.record ⟨0⟩ true, .timeout ⟨4000000000⟩, .record ⟨4200000000⟩ false,
    .record ⟨4203000000⟩ true, .record ⟨4205000000⟩ false, .timeout ⟨4215000000⟩]

/-- The run of a long press that bounces. -/
def bouncedRun : List Moment × Tracker :=
  ((start .shortAndLong (.ofMillis 10)).run? bouncedLongPress).get (by decide)

/-- The long press that bounces has a run. -/
theorem ran_bounced : (start .shortAndLong (.ofMillis 10)).run? bouncedLongPress =
    some (bouncedRun.1, bouncedRun.2) :=
  Option.eq_some_of_isSome (by decide)

/-- A burst fires twice when the long press has been decided before the bounce. -/
theorem burst_fires_twice :
    ¬ ∀ (binding : Binding) (window : Span) (inputs : List Input) (moments : List Moment)
      (last : Tracker), (start binding window).run? inputs = some (moments, last) →
      inputs.Pairwise Input.inOrder →
      (∀ moment ∈ moments, moment.before.Prompt moment.input) →
      ∀ burst ∈ bursts window moments, (firings burst).length ≤ 1 := by
  intro once
  have all := once .shortAndLong (.ofMillis 10) bouncedLongPress bouncedRun.1 bouncedRun.2
    ran_bounced (by decide) (by decide)
  exact absurd all (by decide)

/-- The statement on bursts at the long press that bounces: its one burst fires twice. -/
theorem bounced_burst_fires_again :
    (∀ burst ∈ bursts (.ofMillis 10) bouncedRun.1,
      1 < (firings burst).length ↔ FiresAgain burst) ∧
      (bursts (.ofMillis 10) bouncedRun.1).map (fun burst => (firings burst).length) = [2] :=
  ⟨(bursts_join_unless_decided ran_bounced (by decide)).1, by decide⟩

end Keyhold.Tracker
