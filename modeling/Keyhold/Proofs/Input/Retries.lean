import Keyhold.Proofs.Input.Episode
import Keyhold.Proofs.Run
import Mathlib.Data.List.Sigma

/-!
# Missing inputs are tried about every second

A missing source whose directory nobody watches is tried again by the rounds themselves. Each round
tries it if its own last attempt is at least a second ago, and waits no longer than a second while
such a source is missing. Time passes only while a round waits, and no longer than its timeout
(`Elapses`). So when a round begins, less than two seconds have passed since the last attempt,
however often waits end early: a wait that began before the second was over ends before two are
over.

Between rounds this is `Source.Awaits`, of one source and the time of its last failed attempt. A
round keeps it and makes its attempts in time (`Episode.Tells.paced`), and
`unwatched_tried_every_second` follows by induction over the rounds.
-/

namespace Keyhold

open Keyhold.System

/-! ## Time -/

/-- Whether time passes as marks say: the clock is read as it stands, and only a wait moves it on,
by no more than its timeout unless that is negative. -/
inductive Elapses : Instant → List PollMark → Instant → Prop where
  | nothing {now : Instant} : Elapses now [] now
  | clock {now later : Instant} {marks : List PollMark} (further : Elapses now marks later) :
      Elapses now (.clock now :: marks) later
  | wall {now later : Instant} {marks : List PollMark} {reading : WallTime}
      (further : Elapses now marks later) : Elapses now (.wall reading :: marks) later
  | waited {now woken later : Instant} {marks : List PollMark} {descriptors : List Descriptor}
      {timeout : Int} {answer : Except OsError (List Readiness)} (after : now ≤ woken)
      (within : 0 ≤ timeout → woken.nanos ≤ now.nanos + timeout * 1000000)
      (further : Elapses woken marks later) :
      Elapses now (.waited descriptors timeout answer :: marks) later
  | tried {now later : Instant} {marks : List PollMark} {path : Path}
      {answer : Except OsError OpenedDevice} (further : Elapses now marks later) :
      Elapses now (.tried path answer :: marks) later
  | read {now later : Instant} {marks : List PollMark} {device : DeviceHandle}
      {answer : Except OsError (List Report)} (further : Elapses now marks later) :
      Elapses now (.read device answer :: marks) later
  | closed {now later : Instant} {marks : List PollMark} {device : DeviceHandle}
      (further : Elapses now marks later) : Elapses now (.closed device :: marks) later

namespace Elapses

variable {now later : Instant} {marks more : List PollMark}

/-- Time passes over the first marks and then over the others. -/
theorem split (elapses : Elapses now (marks ++ more) later) :
    ∃ middle, Elapses now marks middle ∧ Elapses middle more later := by
  induction marks generalizing now with
  | nil => exact ⟨now, .nothing, elapses⟩
  | cons mark rest ih =>
    cases elapses with
    | clock further =>
      obtain ⟨middle, first, second⟩ := ih further
      exact ⟨middle, .clock first, second⟩
    | wall further =>
      obtain ⟨middle, first, second⟩ := ih further
      exact ⟨middle, .wall first, second⟩
    | waited after within further =>
      obtain ⟨middle, first, second⟩ := ih further
      exact ⟨middle, .waited after within first, second⟩
    | tried further =>
      obtain ⟨middle, first, second⟩ := ih further
      exact ⟨middle, .tried first, second⟩
    | read further =>
      obtain ⟨middle, first, second⟩ := ih further
      exact ⟨middle, .read first, second⟩
    | closed further =>
      obtain ⟨middle, first, second⟩ := ih further
      exact ⟨middle, .closed first, second⟩

/-- Without a wait no time passes. -/
theorem still (elapses : Elapses now marks later) (waits : marks.filterMap PollMark.waited? = []) :
    later = now ∧ ∀ reading, .clock reading ∈ marks → reading = now := by
  induction elapses with
  | nothing => exact ⟨rfl, fun _ member => absurd member List.not_mem_nil⟩
  | clock _ ih =>
    obtain ⟨same, readings⟩ := ih waits
    refine ⟨same, fun reading member => ?_⟩
    rcases List.mem_cons.mp member with own | others
    · exact PollMark.clock.inj own
    · exact readings reading others
  | waited => cases waits
  | wall _ ih | tried _ ih | read _ ih | closed _ ih =>
    obtain ⟨same, readings⟩ := ih waits
    refine ⟨same, fun reading member => readings reading ?_⟩
    rcases List.mem_cons.mp member with own | others
    · cases own
    · exact others

end Elapses

/-! ## The pace of one source -/

/-- Whether a failed attempt, where there is one, is at least a second ago. -/
def IsRested (failure : Option Instant) (now : Instant) : Prop :=
  ∀ failed ∈ failure, failed.later (.ofSeconds 1 0) ≤ now

/-- Whether a failed attempt, where there is one, is less than two seconds ago. -/
def IsRecent (failure : Option Instant) (now : Instant) : Prop :=
  ∀ failed ∈ failure, now.nanos < (failed.later (.ofSeconds 2 0)).nanos

/-- The time of an attempt that failed. -/
def Attempt.failure? (attempt : Attempt) : Option Instant :=
  match attempt.answer with
  | .ok _ => none
  | .error _ => some attempt.time

/-- The time of the last one of attempts if it failed; the given time without attempts. -/
def lastFailure? (failure : Option Instant) (attempts : List Attempt) : Option Instant :=
  attempts.foldl (fun _ attempt => attempt.failure?) failure

/-- Whether attempts at one source keep the pace up to a time: behind a failed attempt, such as the
given one, the next comes no sooner than a second and less than two seconds later. -/
def Paced : Option Instant → List Attempt → Instant → Prop
  | failure, [], later => IsRecent failure later
  | failure, attempt :: rest, later =>
    (IsRested failure attempt.time ∧ IsRecent failure attempt.time) ∧
      Paced attempt.failure? rest later

variable {failure : Option Instant} {start middle later : Instant} {attempts more : List Attempt}

/-- An attempt that fails fails at its own time. -/
theorem Attempt.eq_time_of_failure? (attempt : Attempt) {failed : Instant}
    (isFailed : failed ∈ attempt.failure?) : failed = attempt.time := by
  obtain ⟨position, time, answer⟩ := attempt
  cases answer with
  | ok device => cases isFailed
  | error cause => exact (Option.some.inj isFailed).symm

/-- An attempt that failed is recent while no time passes. -/
theorem Attempt.isRecent_failure? (attempt : Attempt) : IsRecent attempt.failure? attempt.time := by
  intro failed isFailed
  rw [attempt.eq_time_of_failure? isFailed]
  simp only [Instant.nanos_later, Span.ofSeconds]
  omega

/-- A pace that is kept up to a time is kept on from there. -/
theorem Paced.append (first : Paced failure attempts middle)
    (second : IsRecent (lastFailure? failure attempts) middle →
      Paced (lastFailure? failure attempts) more later) :
    Paced failure (attempts ++ more) later := by
  induction attempts generalizing failure with
  | nil => exact second first
  | cons attempt rest ih => exact ⟨first.1, ih first.2 second⟩

namespace Source

variable {source : Source}

/-- Whether a failed attempt, where there is one, is the last attempt at a source. -/
def Remembers (source : Source) (failure : Option Instant) : Prop :=
  ∀ failed ∈ failure, source.isMissing = true ∧ source.lastAttempt = some failed

/-- Whether a source waits for its next attempt behind a failed one, where there is one, that is
less than two seconds ago. -/
def Awaits (source : Source) (failure : Option Instant) (now : Instant) : Prop :=
  source.Remembers failure ∧ IsRecent failure now

/-- Behind an attempt a source remembers it if it failed. -/
theorem remembers_after (source : Source) (attempt : Attempt) :
    (source.after attempt).Remembers attempt.failure? := by
  intro failed same
  obtain ⟨position, time, answer⟩ := attempt
  cases answer with
  | ok device => cases same
  | error cause =>
    cases same
    exact ⟨rfl, rfl⟩

/-- Behind attempts a source remembers the last one if it failed. -/
theorem Remembers.attempted (remembers : source.Remembers failure) (attempts : List Attempt) :
    (attempts.foldl after source).Remembers (lastFailure? failure attempts) := by
  induction attempts generalizing source failure with
  | nil => exact remembers
  | cons attempt rest ih => exact ih (source.remembers_after attempt)

/-- Attempts leave the watch of a source as it is. -/
theorem watch_attempted (source : Source) (attempts : List Attempt) :
    (attempts.foldl after source).watch = source.watch := by
  induction attempts generalizing source with
  | nil => rfl
  | cons attempt rest ih => exact ih (source.after attempt)

end Source

/-! ## The attempts at one source -/

/-- The attempts at the source at a position. -/
def attemptsAt (position : Nat) (attempts : List Attempt) : List Attempt :=
  attempts.filter (·.position == position)

/-- The attempts at a position are found part by part. -/
theorem attemptsAt_append (position : Nat) (attempts more : List Attempt) :
    attemptsAt position (attempts ++ more) =
      attemptsAt position attempts ++ attemptsAt position more :=
  List.filter_append ..

/-- Attempts at other sources are not counted. -/
theorem attemptsAt_eq_nil {position : Nat}
    (untried : ∀ attempt ∈ attempts, attempt.position ≠ position) :
    attemptsAt position attempts = [] :=
  List.filter_eq_nil_iff.mpr fun attempt member => by simpa using untried attempt member

/-- Of attempts at different sources at most one is at a position. -/
theorem attemptsAt_of_nodup (apart : (attempts.map Attempt.position).Nodup) (position : Nat) :
    attemptsAt position attempts = [] ∨
      ∃ attempt ∈ attempts, attempt.position = position ∧
        attemptsAt position attempts = [attempt] := by
  induction attempts with
  | nil => exact .inl rfl
  | cons attempt rest ih =>
    obtain ⟨alone, apart⟩ := List.nodup_cons.mp apart
    by_cases here : attempt.position = position
    · have others : attemptsAt position rest = [] := by
        refine attemptsAt_eq_nil fun other member same => alone ?_
        rw [here, ← same]
        exact List.mem_map_of_mem member
      refine .inr ⟨attempt, List.mem_cons_self, here, ?_⟩
      have kept : attemptsAt position (attempt :: rest) = attempt :: attemptsAt position rest :=
        List.filter_cons_of_pos (by simpa using here)
      rw [kept, others]
    · have skipped : attemptsAt position (attempt :: rest) = attemptsAt position rest :=
        List.filter_cons_of_neg (by simpa using here)
      rw [skipped]
      rcases ih apart with none | ⟨other, member, there, only⟩
      · exact .inl none
      · exact .inr ⟨other, List.mem_cons_of_mem _ member, there, only⟩

/-- What becomes of a source is settled by the attempts at it. -/
theorem Makes.source_at {sources others : List Source} {source : Source} {position : Nat}
    {tries : List (Path × Except OsError OpenedDevice)}
    (makes : Makes sources attempts tries others) (found : sources[position]? = some source) :
    others[position]? = some ((attemptsAt position attempts).foldl Source.after source) := by
  rw [makes.at_position position, found]
  rfl

namespace Monitor

variable {monitor next : Monitor} {sources : List Source} {source : Source} {timeout : Int}
  {outcome : Outcome} {position : Nat} {marks : List PollMark}

/-- A position is listed once. -/
theorem positionsOf_nodup (wanted : Source → Bool) (sources : List Source) :
    (positionsOf wanted 0 sources).Nodup :=
  (List.nodup_zipIdx_map_snd sources).sublist (List.filter_sublist.map _)

/-- A source that is wanted is tried once. -/
theorem Visited.tried {wanted : Source → Bool} (visited : Visited wanted 0 sources marks attempts)
    (found : sources[position]? = some source) (isWanted : wanted source = true) :
    ∃ attempt ∈ attempts, attemptsAt position attempts = [attempt] := by
  have apart : (attempts.map Attempt.position).Nodup := by
    rw [visited.positions]
    exact positionsOf_nodup wanted sources
  rcases attemptsAt_of_nodup apart position with none | ⟨attempt, made, _, only⟩
  · have listed : position ∈ attempts.map Attempt.position := by
      rw [visited.positions]
      exact mem_positionsOf_iff.mpr ⟨source, found, isWanted⟩
    obtain ⟨attempt, made, here⟩ := List.mem_map.mp listed
    have member : attempt ∈ attemptsAt position attempts :=
      List.mem_filter.mpr ⟨made, beq_iff_eq.mpr here⟩
    rw [none] at member
    cases member
  · exact ⟨attempt, made, only⟩

/-- A missing source without a watch is due when its own last attempt is at least a second ago. -/
theorem isRetryDue_iff {now : Instant} : isRetryDue now source = true ↔
    (source.isMissing = true ∧ source.watch = none) ∧ IsRested source.lastAttempt now := by
  rw [isRetryDue, Bool.and_eq_true, Source.isUnwatched, Bool.and_eq_true, Option.isNone_iff_eq_none]
  refine and_congr_right fun _ => ?_
  cases source.lastAttempt with
  | none => simp [IsRested]
  | some last =>
    have rested : IsRested (some last) now ↔ last.nanos + 1000000000 ≤ now.nanos := by
      simp [IsRested, Instant.le_iff, Span.ofSeconds]
    refine decide_eq_true_iff.trans ?_
    simp only [rested, retryInterval, Instant.since]
    omega

/-- No wait is longer than a second while a source is missing that nothing watches for. -/
theorem cappedTimeout_le (member : source ∈ sources) (unwatched : source.isUnwatched = true) :
    0 ≤ cappedTimeout sources timeout ∧ cappedTimeout sources timeout ≤ 1000 := by
  have waiting : sources.any Source.isUnwatched = true :=
    List.any_eq_true.mpr ⟨source, member, unwatched⟩
  rw [cappedTimeout, waiting, Bool.true_and, retryTimeout]
  split
  · decide
  · rename_i within
    simp only [Bool.or_eq_true, decide_eq_true_eq] at within
    omega

namespace Episode

variable {episode : Episode}

/-- When the parts of a round take place: all up to its wait at its start, and all behind it at its
end. -/
structure Lasts (episode : Episode) (timeout : Int) (start later : Instant) : Prop where
  now : episode.now = start
  retries : ∀ attempt ∈ episode.retries, attempt.time = start
  others : ∀ attempt ∈ episode.reopens ++ episode.recalls, attempt.time = later
  within : 0 ≤ cappedTimeout episode.ready.sources timeout →
    later.nanos ≤ start.nanos + cappedTimeout episode.ready.sources timeout * 1000000

/-- In a round time passes only in its wait, so that the attempts before it take place at its start
and those behind it at its end. -/
theorem Tells.lasts (tells : episode.Tells monitor next outcome)
    (elapses : Elapses start (episode.trace timeout) later) :
    episode.Lasts timeout start later := by
  obtain ⟨notices, recalled⟩ := tells.recalled
  obtain ⟨middle, front, back⟩ := Elapses.split elapses
  have early : (PollMark.clock episode.now :: episode.before).filterMap PollMark.waited? = [] :=
    tells.retried.waits
  have late : (episode.served ++ episode.noticed).filterMap PollMark.waited? = [] := by
    rw [List.filterMap_append, tells.account.waits, recalled.waits, List.nil_append]
  obtain ⟨rfl, readings⟩ := front.still early
  cases back with
  | waited _ within further =>
    obtain ⟨rfl, others⟩ := further.still late
    refine ⟨readings _ List.mem_cons_self, fun attempt made => ?_, fun attempt made => ?_, within⟩
    · exact readings _ (List.mem_cons_of_mem _ (tells.retried.timed attempt made))
    · rcases List.mem_append.mp made with reopened | recalls
      · exact others _ (List.mem_append_left _ (tells.account.timed attempt reopened))
      · exact others _ (List.mem_append_right _ (recalled.timed attempt recalls))

/-- Notices lead to no attempt at a source without a watch. -/
theorem Tells.unrecalled (tells : episode.Tells monitor next outcome)
    (found : episode.progress.sources[position]? = some source) (unwatched : source.watch = none) :
    attemptsAt position episode.recalls = [] := by
  obtain ⟨notices, recalled⟩ := tells.recalled
  refine attemptsAt_eq_nil (recalled.untried found ?_)
  simp [isNoticed, unwatched]

/-- A source is tried behind the wait only if it is open during the wait. -/
theorem Tells.opened_of_reopen (tells : episode.Tells monitor next outcome) {attempt : Attempt}
    (made : attempt ∈ episode.reopens)
    (found : episode.ready.sources[attempt.position]? = some source) :
    source.isMissing = false := by
  obtain ⟨served, isTold, _, here⟩ := tells.account.served_of_attempt made
  obtain ⟨same, held⟩ := found_of_mem_places (mem_of_told isTold)
  rw [here, found] at same
  cases same
  rw [Source.isMissing, held]
  rfl

/-- At most one attempt at each source is made while what is ready is served. -/
theorem Tells.reopens_apart (tells : episode.Tells monitor next outcome) :
    (episode.reopens.map Attempt.position).Nodup := by
  have ready : (episode.told.filterMap ready?).Sublist (places 0 episode.ready.sources) :=
    filterMap_told_sublist (fun _ _ picked => (ready?_eq_some_iff.mp picked).2) _ _
  have positions : ((places 0 episode.ready.sources).map Place.position).Nodup :=
    List.pairwise_map.mpr ((places_ordered 0 episode.ready.sources).imp Nat.ne_of_lt)
  exact (positions.sublist (ready.map _)).sublist tells.account.reopened

/-- Behind the wait a source without a watch is tried only if it was open, so not too soon. -/
theorem Tells.paced_behind (tells : episode.Tells monitor next outcome)
    (lasts : episode.Lasts timeout start later)
    (found : episode.ready.sources[position]? = some source) (unwatched : source.watch = none)
    (awaits : source.Awaits failure later) :
    Paced failure (attemptsAt position (episode.reopens ++ episode.recalls)) later := by
  obtain ⟨remembers, recent⟩ := awaits
  have unrecalled : attemptsAt position episode.recalls = [] := by
    refine tells.unrecalled (tells.account.made.source_at found) ?_
    rw [Source.watch_attempted, unwatched]
  rw [attemptsAt_append, unrecalled, List.append_nil]
  rcases attemptsAt_of_nodup tells.reopens_apart position with none | ⟨attempt, made, rfl, only⟩
  · rw [none]
    exact recent
  · have opened := tells.opened_of_reopen made found
    have unfailed : ∀ failed ∈ failure, False := by
      intro failed same
      rw [(remembers failed same).1] at opened
      cases opened
    rw [only, ← lasts.others attempt (List.mem_append_left _ made)]
    exact ⟨⟨fun failed same => (unfailed failed same).elim,
      fun failed same => (unfailed failed same).elim⟩, attempt.isRecent_failure?⟩

/-- During the wait a failed attempt that was less than a second ago comes to be less than two
seconds ago. -/
theorem Lasts.recent (lasts : episode.Lasts timeout start later)
    (member : source ∈ episode.ready.sources) (unwatched : source.watch = none)
    (remembers : source.Remembers failure)
    (fresh : ∀ failed ∈ failure, start.nanos < (failed.later (.ofSeconds 1 0)).nanos) :
    IsRecent failure later := by
  intro failed same
  have missing := (remembers failed same).1
  obtain ⟨nonneg, cap⟩ : 0 ≤ cappedTimeout episode.ready.sources timeout ∧
      cappedTimeout episode.ready.sources timeout ≤ 1000 :=
    cappedTimeout_le member (by rw [Source.isUnwatched, missing, unwatched]; rfl)
  have within := lasts.within nonneg
  have before := fresh failed same
  simp only [Instant.nanos_later, Span.ofSeconds] at before ⊢
  omega

/-- A round keeps the pace of each source without a watch: one whose attempt is due is tried before
the wait, and the wait goes on from that attempt. -/
theorem Tells.paced (tells : episode.Tells monitor next outcome)
    (lasts : episode.Lasts timeout start later)
    (found : monitor.sources[position]? = some source) (unwatched : source.watch = none)
    (awaits : source.Awaits failure start) :
    Paced failure (attemptsAt position (episode.retries ++ (episode.reopens ++ episode.recalls)))
      later := by
  obtain ⟨remembers, recent⟩ := awaits
  have waiting := tells.prepared.source_at found
  have member := List.mem_of_getElem? waiting
  rw [attemptsAt_append]
  by_cases due : isRetryDue start source = true
  · obtain ⟨attempt, made, only⟩ := tells.retried.tried found (lasts.now ▸ due)
    have now : attempt.time = start := lasts.retries attempt made
    rw [only] at waiting member ⊢
    refine ⟨⟨?_, now ▸ recent⟩, ?_⟩
    · intro failed same
      rw [now]
      exact (isRetryDue_iff.mp due).2 failed (remembers failed same).2
    · have remembered := source.remembers_after attempt
      refine tells.paced_behind lasts waiting unwatched ⟨remembered, ?_⟩
      refine lasts.recent member unwatched remembered fun failed same => ?_
      rw [attempt.eq_time_of_failure? same, now]
      simp only [Instant.nanos_later, Span.ofSeconds]
      omega
  · have undue : isRetryDue episode.now source = false := by
      rw [lasts.now]
      exact Bool.eq_false_iff.mpr due
    rw [attemptsAt_eq_nil (tells.retried.untried found undue)] at waiting member ⊢
    refine tells.paced_behind lasts waiting unwatched ⟨remembers, ?_⟩
    refine lasts.recent member unwatched remembers fun failed same => ?_
    obtain ⟨missing, last⟩ := remembers failed same
    by_contra rested
    refine due (isRetryDue_iff.mpr ⟨⟨missing, unwatched⟩, fun other isLast => ?_⟩)
    rw [last] at isLast
    cases isLast
    exact Int.not_lt.mp rested

/-- The sources after a round are those that its attempts have made of them. -/
theorem Tells.made (tells : episode.Tells monitor next outcome) :
    Makes monitor.sources (episode.retries ++ (episode.reopens ++ episode.recalls))
      ((episode.trace timeout).filterMap PollMark.tried?) next.sources := by
  have tries : (episode.trace timeout).filterMap PollMark.tried? =
      episode.before.filterMap PollMark.tried? ++ (episode.served.filterMap PollMark.tried? ++
        episode.noticed.filterMap PollMark.tried?) := by
    simp [trace, List.filterMap_append, List.filterMap_cons, PollMark.tried?]
  rw [tries]
  exact tells.prepared.append (tells.account.made.append tells.remade)

end Episode

/-! ## Rounds one after another -/

/-- The attempts of a round: those before its wait, and those behind it. -/
structure Tries where
  early : List Attempt
  late : List Attempt

namespace Tries

/-- The attempts in their order. -/
def all (tries : Tries) : List Attempt := tries.early ++ tries.late

/-- Whether they are the attempts of a round that lasts from one time to another. -/
structure Of (tries : Tries) (monitor : Monitor) (start : Instant) (marks : List PollMark)
    (next : Monitor) (later : Instant) : Prop where
  /-- They are the attempts that are seen, and make the sources what they become. -/
  made : Makes monitor.sources tries.all (marks.filterMap PollMark.tried?) next.sources
  /-- Before the wait exactly those sources are tried, each once and in order, whose own last
  attempts make them due. -/
  due : tries.early.map Attempt.position = positionsOf (isRetryDue start) 0 monitor.sources
  early : ∀ attempt ∈ tries.early, attempt.time = start
  late : ∀ attempt ∈ tries.late, attempt.time = later

end Tries

/-- A round that ends well, with the time that passes in it. -/
def Polled (before : Monitor × Instant) (timeout : Int) (after : Monitor × Instant)
    (marks : List PollMark) : Prop :=
  (∃ outcome, (before.1.poll timeout).Shows PollMark.view marks (after.1, .ok outcome)) ∧
    Elapses before.2 marks after.2

/-- A round makes its attempts in time for each source without a watch. -/
theorem tries_of_polled (polled : Polled (monitor, start) timeout (next, later) marks) :
    ∃ tries : Tries, tries.Of monitor start marks next later ∧
      ∀ position source failure, monitor.sources[position]? = some source →
        source.watch = none → source.Awaits failure start →
        Paced failure (attemptsAt position tries.all) later := by
  obtain ⟨⟨outcome, shows⟩, elapses⟩ := polled
  obtain ⟨episode, rfl, tells⟩ := tells_of_poll shows
  have lasts := tells.lasts elapses
  refine ⟨⟨episode.retries, episode.reopens ++ episode.recalls⟩, ⟨tells.made, ?_, lasts.retries,
    lasts.others⟩, fun _ _ _ => tells.paced lasts⟩
  rw [tells.retried.positions, lasts.now]

/-- The pace of each source without a watch is kept over rounds. -/
theorem tries_of_course {moments : List (Moment (Monitor × Instant) Int (List PollMark))}
    {last : Monitor} (course : Course Polled (monitor, start) moments (last, later)) :
    ∃ rounds : List Tries,
      List.Forall₂ (fun moment tries => Tries.Of tries moment.before.1 moment.before.2
        moment.output moment.after.1 moment.after.2) moments rounds ∧
      ∀ position source failure, monitor.sources[position]? = some source →
        source.watch = none → source.Awaits failure start →
        Paced failure (attemptsAt position (rounds.flatMap Tries.all)) later := by
  induction moments generalizing monitor start with
  | nil =>
    cases course
    exact ⟨[], .nil, fun _ _ _ _ _ awaits => awaits.2⟩
  | cons moment rest ih =>
    obtain ⟨⟨_, _⟩, timeout, ⟨next, middle⟩, marks⟩ := moment
    obtain ⟨⟨⟩, polled, further⟩ := course
    obtain ⟨tries, own, paced⟩ := tries_of_polled polled
    obtain ⟨rounds, others, pacedAfter⟩ := ih further
    refine ⟨tries :: rounds, .cons own others, fun position source failure found unwatched awaits =>
      ?_⟩
    rw [List.flatMap_cons, attemptsAt_append]
    refine (paced position source failure found unwatched awaits).append fun recent => ?_
    refine pacedAfter position _ _ (own.made.source_at found) ?_ ⟨awaits.1.attempted _, recent⟩
    rw [Source.watch_attempted, unwatched]

/-! ## The first attempts -/

/-- If all sources open behind a tried one, it comes before them. -/
theorem opened_of_goOn {watching : Bool} {rest opened : List Source} {tried : Source}
    {refusal : Option InputError}
    (shows : (goOn watching rest tried refusal).Shows PollMark.view marks (.ok opened)) :
    ∃ others, opened = tried :: others ∧
      (openSources watching rest).Shows PollMark.view marks (.ok others) := by
  have settled {marks : List PollMark}
      (shows : (openSources watching rest >>= openSources.settle tried).Shows PollMark.view marks
        (.ok opened)) :
      ∃ others, opened = tried :: others ∧
        (openSources watching rest).Shows PollMark.view marks (.ok others) := by
    obtain ⟨others, _, _, rfl, opens, rfl, done⟩ := Routine.shows_bind.mp shows
    rw [List.append_nil]
    cases others with
    | error error => cases done
    | ok others =>
      cases done
      exact ⟨others, rfl, opens⟩
  cases refusal with
  | none => exact settled shows
  | some error =>
    rw [goOn] at shows
    split at shows
    · obtain ⟨_, _, _, rfl, ⟨_, _, rfl, rfl, _⟩, further⟩ := Routine.shows_bind.mp shows
      exact settled further
    · obtain ⟨_, done⟩ := shows
      cases done

/-- Every source that is opened remembers an attempt. -/
theorem attempted_of_openSources {watching : Bool} {opened : List Source}
    (shows : (openSources watching sources).Shows PollMark.view marks (.ok opened)) :
    ∀ source ∈ opened, ∃ time, source.lastAttempt = some time ∧ .clock time ∈ marks := by
  induction sources generalizing marks opened with
  | nil =>
    obtain ⟨_, done⟩ := shows
    cases done
    exact fun _ member => absurd member List.not_mem_nil
  | cons source rest ih =>
    rw [openSources_cons] at shows
    obtain ⟨⟨tried, refusal⟩, _, others, rfl, tries, further⟩ := Routine.shows_bind.mp shows
    obtain ⟨prepared, before, _, rfl, _, attempts⟩ := Routine.shows_bind.mp tries
    obtain ⟨attempt, _, rfl, rfl⟩ := Source.after_of_tryOpen 0 attempts
    obtain ⟨remaining, rfl, opens⟩ := opened_of_goOn further
    refine List.forall_mem_cons.mpr ⟨⟨attempt.time, rfl, by simp⟩, fun source member => ?_⟩
    obtain ⟨time, last, read⟩ := ih opens source member
    exact ⟨time, last, List.mem_append_right _ read⟩

/-- A monitor starts without a wait, and with every source tried. -/
theorem attempted_of_start {required waited : List Path}
    (shows : (Monitor.start required waited).Shows PollMark.view marks (.ok monitor)) :
    marks.filterMap PollMark.waited? = [] ∧
      ∀ source ∈ monitor.sources, ∃ time, source.lastAttempt = some time ∧ .clock time ∈ marks := by
  rw [start_eq] at shows
  split at shows
  · obtain ⟨_, done⟩ := shows
    cases done
  · obtain ⟨watching, _, _, rfl, prepares, opensAll⟩ := Routine.shows_bind.mp shows
    have silent : ((if waited.isEmpty then pure false else startWatching) : Routine Bool).Asks
        fun request => ∀ answer, PollMark.view request answer = none :=
      asks_prelude (fun _ => rfl) (fun _ _ => rfl) waited
    rw [Routine.marks_of_asks silent (fun _ ignored => ignored) prepares, List.nil_append]
    obtain ⟨opened, _, _, rfl, opens, rfl, done⟩ := Routine.shows_bind.mp opensAll
    rw [List.append_nil]
    cases opened with
    | error error => cases done
    | ok sources =>
      cases done
      refine ⟨List.filterMap_eq_nil_iff.mpr ?_, attempted_of_openSources opens⟩
      refine Routine.forall_marks_of_asks (asks_openSources watching _) ?_ opens
      intro request sought answer mark seen
      cases request with
      | poll descriptors timeout => cases sought
      | clock | wallClock | openDevice _ | readDevice _ | closeDevice _ =>
        obtain rfl := Option.some.inj seen
        rfl
      | _ => cases seen

/-- Missing inputs that nothing watches for are tried about every second. Time passes only while a
round waits, and then no longer than its timeout, whatever timeouts are given and however early
waits end. A monitor starts with an attempt at every source. Each round tries exactly the sources
whose own last attempts make them due. Over rounds that end well each attempt at such a source that
failed is followed by the next one no sooner than a second and less than two seconds later, whatever
becomes of the others. -/
theorem unwatched_tried_every_second :
    (∀ required waited monitor marks start later,
      (Monitor.start required waited).Shows PollMark.view marks (.ok monitor) →
      Elapses start marks later → ∀ source ∈ monitor.sources,
        source.lastAttempt = some later ∧
        (source.isMissing = true → source.Awaits (some later) later)) ∧
    (∀ now source, isRetryDue now source = true ↔
      (source.isMissing = true ∧ source.watch = none) ∧ IsRested source.lastAttempt now) ∧
    ∀ monitor start moments last later, Course Polled (monitor, start) moments (last, later) →
      ∃ rounds : List Tries,
        List.Forall₂ (fun moment tries => Tries.Of tries moment.before.1 moment.before.2
          moment.output moment.after.1 moment.after.2) moments rounds ∧
        ∀ position source failure, monitor.sources[position]? = some source →
          source.watch = none → source.Awaits failure start →
          Paced failure (attemptsAt position (rounds.flatMap Tries.all)) later := by
  refine ⟨?_, fun _ _ => isRetryDue_iff, fun _ _ _ _ _ course => tries_of_course course⟩
  intro required waited monitor marks start later shows elapses source member
  obtain ⟨waits, attempted⟩ := attempted_of_start shows
  obtain ⟨rfl, readings⟩ := elapses.still waits
  obtain ⟨time, last, read⟩ := attempted source member
  obtain rfl := readings time read
  refine ⟨last, fun missing => ⟨fun failed same => ?_, fun failed same => ?_⟩⟩
  · rw [Option.mem_def] at same
    exact ⟨missing, last.trans same⟩
  · rw [← Option.some.inj same]
    simp only [Instant.nanos_later, Span.ofSeconds]
    omega

/-- A host on which inputs are absent and a pipe ends each wait in less than a second; its state is
the time. -/
def waking (request : Request) (now : Int) : request.Answer × Int :=
  match request with
  | .clock => (⟨now⟩, now)
  | .openDevice _ => (.error (.number 2), now)
  | .poll _ _ => (.ok [.readable], now + 600000000)
  | _ => (default, now)

/-- An input that is missing from the beginning is tried in the third of three rounds, without a
timeout, that a pipe ends early: when 1.2 seconds have passed. -/
theorem tried_although_woken :
    let monitor : Instant → Monitor := fun last =>
      ⟨[⟨⟨"/dev/a"⟩, true, none, some last, none⟩], [⟨7⟩], false⟩
    ∃ moments rounds,
      Course Polled (monitor ⟨0⟩, ⟨0⟩) moments (monitor ⟨1200000000⟩, ⟨1800000000⟩) ∧
      moments.map Moment.input = [-1, -1, -1] ∧
      (moments.map fun moment => (moment.output.filterMap PollMark.tried?).length) = [0, 0, 1] ∧
      List.Forall₂ (fun moment tries => Tries.Of tries moment.before.1 moment.before.2
        moment.output moment.after.1 moment.after.2) moments rounds ∧
      Paced (some ⟨0⟩) (attemptsAt 0 (rounds.flatMap Tries.all)) ⟨1800000000⟩ := by
  intro monitor
  have polled (last next : Instant) (now : Int) (marks : List PollMark)
      (ends : ((monitor last).poll (-1)).run waking now =
        ((monitor next, .ok ⟨[], [⟨7⟩], []⟩), now + 600000000))
      (leaves : ((monitor last).poll (-1)).trail PollMark.view waking now = marks)
      (elapses : Elapses ⟨now⟩ marks ⟨now + 600000000⟩) :
      Polled (monitor last, ⟨now⟩) (-1) (monitor next, ⟨now + 600000000⟩) marks := by
    have shows : ((monitor last).poll (-1)).Shows PollMark.view _ _ :=
      Routine.shows_run waking _ now
    rw [ends, leaves] at shows
    exact ⟨⟨_, shows⟩, elapses⟩
  have waits (now : Int) : Elapses ⟨now⟩ [.waited [.wake ⟨7⟩] 1000 (.ok [.readable])]
      ⟨now + 600000000⟩ :=
    .waited (Int.le_add_of_nonneg_right (by decide)) (fun _ => Int.add_le_add_left (by decide) _)
      .nothing
  have first := polled ⟨0⟩ ⟨0⟩ 0 _ rfl rfl (.clock (waits 0))
  have second := polled ⟨0⟩ ⟨0⟩ 600000000 _ rfl rfl (.clock (waits 600000000))
  have third := polled ⟨0⟩ ⟨1200000000⟩ 1200000000 _ rfl rfl
    (.clock (.clock (.tried (waits 1200000000))))
  have course : Course Polled (monitor ⟨0⟩, ⟨0⟩) [⟨_, -1, _, _⟩, ⟨_, -1, _, _⟩, ⟨_, -1, _, _⟩]
      (monitor ⟨1200000000⟩, ⟨1800000000⟩) :=
    ⟨rfl, first, rfl, second, rfl, third, rfl⟩
  obtain ⟨rounds, own, paced⟩ := unwatched_tried_every_second.2.2 _ _ _ _ _ course
  refine ⟨_, rounds, course, rfl, rfl, own, paced 0 _ (some ⟨0⟩) rfl rfl ⟨?_, ?_⟩⟩
  · rintro _ ⟨⟩
    exact ⟨rfl, rfl⟩
  · rintro _ ⟨⟩
    decide

end Monitor

end Keyhold
