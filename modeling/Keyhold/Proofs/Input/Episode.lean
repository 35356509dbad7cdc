import Keyhold.Proofs.Input.Account
import Keyhold.Proofs.Input.Wakes

/-!
# Rounds in their parts

Before its wait a round tries the missing sources whose turn has come, and behind what it serves the
missing ones that notices are about. An `Episode` holds these parts of a round together with the
account of what was served between them, and `tells_of_poll` finds them in the marks of every round
that ends well.
-/

namespace Keyhold

open Keyhold.System

namespace Monitor

variable {progress middle after : Progress} {sources : List Source} {marks : List PollMark}

/-! ## Sources that are tried without being told -/

/-- The positions of the wanted ones of sources, counted from the given one. -/
def positionsOf (wanted : Source → Bool) (position : Nat) (sources : List Source) : List Nat :=
  ((sources.zipIdx position).filter fun placed => wanted placed.1).map (·.2)

/-- Attempts at exactly the wanted ones of sources, in order, and nothing else. -/
structure Visited (wanted : Source → Bool) (position : Nat) (sources : List Source)
    (marks : List PollMark) (attempts : List Attempt) : Prop where
  waits : marks.filterMap PollMark.waited? = []
  reads : marks.filterMap PollMark.read? = []
  closes : marks.filterMap PollMark.closed? = []
  timed : ∀ attempt ∈ attempts, .clock attempt.time ∈ marks
  positions : attempts.map Attempt.position = positionsOf wanted position sources
  batches : ∀ rest, PollMark.batches (marks ++ rest) = PollMark.batches rest

/-- Positions of wanted sources are those where a wanted source is. -/
theorem mem_positionsOf_iff {wanted : Source → Bool} {position : Nat} :
    position ∈ positionsOf wanted 0 sources ↔
      ∃ source, sources[position]? = some source ∧ wanted source = true := by
  rw [positionsOf, List.mem_map]
  constructor
  · rintro ⟨placed, member, rfl⟩
    obtain ⟨listed, isWanted⟩ := List.mem_filter.mp member
    exact ⟨placed.1, List.mem_zipIdx_iff_getElem?.mp listed, isWanted⟩
  · rintro ⟨source, found, isWanted⟩
    exact ⟨(source, position),
      List.mem_filter.mpr ⟨List.mem_zipIdx_iff_getElem?.mpr found, isWanted⟩, rfl⟩

/-- A source that is not wanted is not tried. -/
theorem Visited.untried {wanted : Source → Bool} {attempts : List Attempt} {source : Source}
    {position : Nat} (visited : Visited wanted 0 sources marks attempts)
    (found : sources[position]? = some source) (unwanted : wanted source = false) :
    ∀ attempt ∈ attempts, attempt.position ≠ position := by
  rintro attempt made rfl
  have listed : attempt.position ∈ positionsOf wanted 0 sources := by
    rw [← visited.positions]
    exact List.mem_map_of_mem made
  obtain ⟨other, same, isWanted⟩ := mem_positionsOf_iff.mp listed
  rw [found] at same
  cases same
  rw [unwanted] at isWanted
  cases isWanted

/-- What a routine does for a source that is tried if it is wanted. -/
def TriesIf (wanted : Source → Bool) (each : Source → Routine Source) : Prop :=
  ∀ source marks visited, (each source).Shows PollMark.view marks visited →
    if wanted source then ∀ position, ∃ attempt : Attempt, attempt.position = position ∧
      marks = [.clock attempt.time, .tried source.path attempt.answer] ∧
      visited = source.after attempt
    else marks = [] ∧ visited = source

/-- Visiting sources tries those that are wanted, each once and at its own position. -/
theorem visited_of_visit {each : Source → Routine Source} {wanted : Source → Bool}
    {others : List Source} (front : List Source) (tries : TriesIf wanted each)
    (shows : (visit each sources).Shows PollMark.view marks others) :
    ∃ attempts, Visited wanted front.length sources marks attempts ∧
      Makes (front ++ sources) attempts (marks.filterMap PollMark.tried?) (front ++ others) := by
  induction sources generalizing front marks others with
  | nil =>
    obtain ⟨rfl, rfl⟩ := shows
    exact ⟨[], ⟨rfl, rfl, rfl, nofun, rfl, fun _ => rfl⟩, .nothing⟩
  | cons source rest ih =>
    obtain ⟨visited, _, _, rfl, first, further⟩ := Routine.shows_bind.mp shows
    obtain ⟨remaining, _, _, rfl, back, rfl, done⟩ := Routine.shows_bind.mp further
    cases done
    have own := tries source _ _ first
    obtain ⟨attempts, behind, made⟩ := ih (front ++ [visited]) back
    rw [List.length_append, List.length_singleton] at behind
    rw [List.append_assoc, List.append_assoc, List.singleton_append, List.singleton_append] at made
    rw [List.append_nil]
    split at own
    · rename_i isWanted
      obtain ⟨attempt, here, rfl, rfl⟩ := own front.length
      refine ⟨attempt :: attempts, ⟨behind.waits, behind.reads, behind.closes, ?_, ?_,
        behind.batches⟩, ?_⟩
      · refine List.forall_mem_cons.mpr ⟨by simp, fun other member => ?_⟩
        exact List.mem_append_right _ (behind.timed other member)
      · rw [List.map_cons, behind.positions, here]
        simp [positionsOf, List.zipIdx_cons, isWanted]
      · have found : (front ++ source :: rest)[attempt.position]? = some source := by simp [here]
        refine .next found ?_
        rw [here]
        simpa using made
    · rename_i unwanted
      obtain ⟨rfl, rfl⟩ := own
      refine ⟨attempts, ⟨behind.waits, behind.reads, behind.closes, behind.timed, ?_,
        behind.batches⟩, made⟩
      rw [behind.positions]
      simp [positionsOf, List.zipIdx_cons, unwanted]

/-- Before a wait a source is tried if its next attempt is due. -/
theorem triesIf_retry (now : Instant) : TriesIf (isRetryDue now) (retry now) := by
  intro source marks visited shows
  rw [retry] at shows
  split
  · rename_i isDue
    rw [if_pos isDue] at shows
    exact fun position => Source.after_of_tryOpenQuietly position shows
  · rename_i undue
    rw [if_neg undue] at shows
    obtain ⟨rfl, rfl⟩ := shows
    exact ⟨rfl, rfl⟩

/-- Notices have a source tried if it is missing and one of them names it. -/
theorem triesIf_answerNotices (notices : List Notice) :
    TriesIf (fun source => source.isMissing && isNoticed notices source)
      (answerNotices notices) := by
  intro source marks visited shows
  rw [answerNotices] at shows
  split
  · rename_i isWanted
    rw [if_pos isWanted] at shows
    obtain ⟨_, _, _, rfl, ⟨_, _, rfl, rfl, _⟩, tries⟩ := Routine.shows_bind.mp shows
    exact fun position => Source.after_of_tryOpenQuietly position tries
  · rename_i unwanted
    rw [if_neg unwanted] at shows
    obtain ⟨rfl, rfl⟩ := shows
    exact ⟨rfl, rfl⟩

/-! ## Rounds -/

/-- A round in its parts: the attempts at missing sources, the wait, what was done for open sources,
and the attempts that notices led to. -/
structure Episode where
  /-- The reading of the clock that decides which sources are tried. -/
  now : Instant
  before : List PollMark
  retries : List Attempt
  /-- The monitor as it waits. -/
  ready : Monitor
  answer : Except OsError (List Readiness)
  served : List PollMark
  fetches : List Fetch
  reopens : List Attempt
  /-- What has been served when the notices are taken. -/
  progress : Progress
  noticed : List PollMark
  recalls : List Attempt

namespace Episode

/-- What the wait tells the open sources. -/
def told (episode : Episode) : List (Place × Readiness) :=
  tell (places 0 episode.ready.sources) (episode.answer.toOption.getD [])

/-- The marks of the parts in their order. -/
def trace (episode : Episode) (timeout : Int) : List PollMark :=
  .clock episode.now :: episode.before ++
    .waited episode.ready.descriptors (cappedTimeout episode.ready.sources timeout)
      episode.answer :: (episode.served ++ episode.noticed)

/-- Whether a round that ended well went this way. -/
structure Tells (episode : Episode) (monitor next : Monitor) (outcome : Outcome) : Prop where
  retried : Visited (isRetryDue episode.now) 0 monitor.sources episode.before episode.retries
  prepared : Makes monitor.sources episode.retries (episode.before.filterMap PollMark.tried?)
    episode.ready.sources
  watching : episode.ready.watching = monitor.watching
  wakes : episode.ready.wakes = monitor.wakes
  account : Account episode.told ⟨episode.ready.sources, .nothing, false⟩ episode.served
    episode.fetches episode.reopens episode.progress
  recalled : ∃ notices, Visited (fun source => source.isMissing && isNoticed notices source) 0
    episode.progress.sources episode.noticed episode.recalls
  remade : Makes episode.progress.sources episode.recalls
    (episode.noticed.filterMap PollMark.tried?) next.sources
  collected : outcome = episode.progress.outcome
  woken : outcome.woken =
    ((episode.ready.slots.map (·.1)).zip (episode.answer.toOption.getD [])).flatMap wokenAt

end Episode

variable {monitor next : Monitor} {outcome : Outcome}

/-- The first half of a round. -/
theorem tells_of_prepare (shows : monitor.prepare.Shows PollMark.view marks next) :
    ∃ now before retries, marks = .clock now :: before ∧
      Visited (isRetryDue now) 0 monitor.sources before retries ∧
      Makes monitor.sources retries (before.filterMap PollMark.tried?) next.sources ∧
      next.watching = monitor.watching ∧ next.wakes = monitor.wakes := by
  obtain ⟨_, _, _, rfl, ⟨now, _, rfl, rfl, rfl⟩, further⟩ := Routine.shows_bind.mp shows
  obtain ⟨retried, before, _, rfl, retries, rfl, done⟩ := Routine.shows_bind.mp further
  rw [retrySources_eq] at retries
  obtain ⟨attempts, visited, made⟩ := visited_of_visit [] (triesIf_retry now) retries
  cases done
  exact ⟨now, before, attempts, by simp [PollMark.view], visited, made, rfl, rfl⟩

/-- Where nothing is noticed nothing is tried. -/
theorem visited_nothing (sources : List Source) :
    Visited (fun source => source.isMissing && isNoticed [] source) 0 sources [] [] := by
  refine ⟨rfl, rfl, rfl, nofun, ?_, fun _ => rfl⟩
  simp [positionsOf, isNoticed]

/-- Taking notices leads to attempts at the missing sources that they are about. -/
theorem visited_of_serveNotices
    (shows : (serveNotices progress).Shows PollMark.view marks (after, none)) :
    ∃ notices recalls, Visited (fun source => source.isMissing && isNoticed notices source) 0
        progress.sources marks recalls ∧
      Makes progress.sources recalls (marks.filterMap PollMark.tried?) after.sources ∧
      after.outcome = progress.outcome := by
  obtain ⟨answer, _, _, rfl, takes, further⟩ := Routine.shows_bind.mp shows
  obtain rfl := marks_of_takeNotices (fun _ => rfl) takes
  cases answer with
  | error error =>
    obtain ⟨_, done⟩ := further
    cases done
  | ok notices =>
    obtain ⟨reopened, _, _, rfl, visits, rfl, done⟩ := Routine.shows_bind.mp further
    rw [reopenNoticed_eq] at visits
    obtain ⟨recalls, visited, made⟩ := visited_of_visit [] (triesIf_answerNotices notices) visits
    cases done
    refine ⟨notices, recalls, ?_, ?_, rfl⟩
    · simpa [PollMark.view] using visited
    · simpa [PollMark.view] using made

/-- The slots of a monitor: its open sources, and others. -/
theorem slots_eq_places (monitor : Monitor) :
    ∃ others, monitor.slots.map (·.1) =
        (places 0 monitor.sources).map (fun place => Slot.source place.position) ++ others ∧
      ∀ slot ∈ others, ∀ position, slot ≠ .source position := by
  refine ⟨_, by rw [slots, List.append_assoc, List.map_append, sourceSlots_eq, List.map_map]; rfl,
    ?_⟩
  rintro slot member position rfl
  cases watching : monitor.watching <;> simp [watching] at member

/-- The second half of a round that ends well. -/
theorem tells_of_settle {ready : Monitor} {answer : Except OsError (List Readiness)}
    (shows : (ready.settle answer).Shows PollMark.view marks (next, .ok outcome)) :
    ∃ served fetches reopens progress noticed recalls, marks = served ++ noticed ∧
      Account (tell (places 0 ready.sources) (answer.toOption.getD []))
        ⟨ready.sources, .nothing, false⟩ served fetches reopens progress ∧
      (∃ notices, Visited (fun source => source.isMissing && isNoticed notices source) 0
        progress.sources noticed recalls) ∧
      Makes progress.sources recalls (noticed.filterMap PollMark.tried?) next.sources ∧
      outcome = progress.outcome ∧
      outcome.woken =
        ((ready.slots.map (·.1)).zip (answer.toOption.getD [])).flatMap wokenAt := by
  cases answer with
  | error cause =>
    rw [settle] at shows
    split at shows
    · obtain ⟨rfl, done⟩ := shows
      cases done
      refine ⟨[], [], [], _, [], [], rfl, account_of_silence _ _, ⟨[], visited_nothing _⟩, .nothing,
        rfl, ?_⟩
      simp [Except.toOption, Outcome.nothing]
    · obtain ⟨_, done⟩ := shows
      cases done
  | ok told =>
    have woken := woken_of_serveReady shows.yields
    obtain ⟨⟨progress, failure⟩, _, _, rfl, serves, further⟩ := Routine.shows_bind.mp shows
    obtain ⟨others, parts, foreign⟩ := slots_eq_places ready
    rw [parts] at serves
    cases failure with
    | some error =>
      obtain ⟨_, done⟩ := further
      cases done
    | none =>
      obtain ⟨rfl, done⟩ := further
      cases done
      obtain ⟨⟨middle, refusal⟩, served, noticed, rfl, front, back⟩ := Routine.shows_bind.mp serves
      cases refusal with
      | some error =>
        obtain ⟨_, done⟩ := back
        cases done
      | none =>
        obtain ⟨fetches, reopens, account⟩ := account_of_serve foreign
          (places_ordered 0 ready.sources) (fun place member => found_of_mem_places member) front
        rw [List.append_nil]
        dsimp only at back
        split at back
        · obtain ⟨notices, recalls, visited, made, same⟩ := visited_of_serveNotices back
          exact ⟨served, fetches, reopens, middle, noticed, recalls, rfl, account,
            ⟨notices, visited⟩, made, same, woken⟩
        · obtain ⟨rfl, done⟩ := back
          cases done
          exact ⟨served, fetches, reopens, progress, [], [], rfl, account,
            ⟨[], visited_nothing _⟩, .nothing, rfl, woken⟩

/-- A round that ends well goes one way. -/
theorem tells_of_poll {timeout : Int}
    (shows : (monitor.poll timeout).Shows PollMark.view marks (next, .ok outcome)) :
    ∃ episode : Episode, marks = episode.trace timeout ∧ episode.Tells monitor next outcome := by
  rw [poll_eq] at shows
  obtain ⟨ready, _, _, rfl, prepares, answer, _, rfl, settles⟩ := Routine.shows_bind.mp shows
  obtain ⟨now, before, retries, rfl, retried, prepared, watching, wakes⟩ :=
    tells_of_prepare prepares
  obtain ⟨served, fetches, reopens, progress, noticed, recalls, rfl, account, recalled, remade,
    collected, woken⟩ := tells_of_settle settles
  exact ⟨⟨now, before, retries, ready, answer, served, fetches, reopens, progress, noticed,
    recalls⟩, rfl, retried, prepared, watching, wakes, account, recalled, remade, collected, woken⟩

end Monitor

end Keyhold
