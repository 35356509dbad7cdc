import Keyhold.Proofs.Input.Attempts
import Mathlib.Data.List.Forall2

/-!
# How open sources are served

A wait tells of every open source how it came back. The sources are then served in order: one
that is readable is read, one that hung up or cannot be read is closed and tried again, and the
first required one that does not open again ends the round. `IsServed` says so of the marks of a
round. As long as rounds end well no required source is missing and the paths stay the ones that
the monitor was started with (`required_open_until_disconnected`).
-/

namespace Keyhold

open Keyhold.System

/-- How the device of an open source came back from a wait. -/
structure Reply where
  source : Source
  device : DeviceHandle
  readiness : Readiness

/-- What the open sources are told, in order. -/
def replies : List Source → List Readiness → List Reply
  | source :: sources, readiness :: later =>
    match source.device with
    | some device => ⟨source, device, readiness⟩ :: replies sources later
    | none => replies sources (readiness :: later)
  | _, _ => []

/-- How an open source was served. -/
inductive Care where
  /-- It was left alone. -/
  | leave
  /-- What it had was read; it may have had nothing. -/
  | read (answer : Except OsError (List Report))
  /-- It was closed and tried again, because it hung up or because reading it failed. -/
  | reopen (failed : Option OsError) (answer : Except OsError OpenedDevice)

namespace Care

/-- Whether the care is one for how a device came back. -/
def Fits (readiness : Readiness) : Care → Prop
  | .leave => readiness = .idle
  | .read answer => readiness = .readable ∧ ∀ cause, answer = .error cause → cause = .wouldBlock
  | .reopen none _ => readiness = .lost
  | .reopen (some cause) _ => readiness = .readable ∧ cause ≠ .wouldBlock

/-- The marks of the care. -/
def marks (reply : Reply) : Care → List DeviceMark
  | .leave => []
  | .read answer => [.read reply.device answer]
  | .reopen failed answer =>
    (failed.toList.map fun cause => .read reply.device (.error cause)) ++
      [.closed reply.device, .tried reply.source.path answer]

/-- The path of a required source that was lost and does not open again. -/
def lost? (reply : Reply) : Care → Option Path
  | .reopen _ (.error _) => if reply.source.waits then none else some reply.source.path
  | _ => none

end Care

/-- The first required source, in the order of the sources, that was lost and does not open
again. -/
def firstLost? (told : List Reply) (cares : List Care) : Option Path :=
  (told.zip cares).findSome? fun served => served.2.lost? served.1

/-- The first source is lost before the others, if it is lost for good. -/
theorem firstLost?_cons (reply : Reply) (told : List Reply) (care : Care) (cares : List Care) :
    firstLost? (reply :: told) (care :: cares) = (care.lost? reply).or (firstLost? told cares) := by
  rw [firstLost?, List.zip_cons_cons, List.findSome?_cons]
  cases care.lost? reply <;> rfl

/-- Whether open sources were served in order, each as it came back, up to the first required one
that was lost for good. -/
structure IsServed (told : List Reply) (cares : List Care) (marks : List DeviceMark) : Prop where
  fits : List.Forall₂ (fun reply care => Care.Fits reply.readiness care)
    (told.take cares.length) cares
  marks : marks = (List.zipWith Care.marks told cares).flatten
  complete : firstLost? told cares = none → cares.length = told.length

namespace IsServed

variable {told : List Reply} {cares : List Care} {marks : List DeviceMark} {reply : Reply}
  {care : Care}

/-- Without sources nothing is served. -/
theorem nil : IsServed [] [] [] := ⟨.nil, rfl, fun _ => rfl⟩

/-- One more source was served before the others. -/
theorem cons (fits : care.Fits reply.readiness) (goesOn : care.lost? reply = none)
    (served : IsServed told cares marks) :
    IsServed (reply :: told) (care :: cares) (care.marks reply ++ marks) := by
  refine ⟨.cons fits served.fits, ?_, fun none => ?_⟩
  · rw [List.zipWith_cons_cons, List.flatten_cons, ← served.marks]
  · rw [firstLost?_cons, goesOn, Option.none_or] at none
    exact congrArg (· + 1) (served.complete none)

/-- A source that was lost for good was the last one served. -/
theorem last {path : Path} (fits : care.Fits reply.readiness)
    (lost : care.lost? reply = some path) :
    IsServed (reply :: told) [care] (care.marks reply) := by
  refine ⟨.cons fits .nil, by simp, fun none => ?_⟩
  rw [firstLost?_cons, lost] at none
  cases none

end IsServed

namespace Source

variable {source opened : Source} {device : DeviceHandle} {failure : Option InputError}
  {marks : List DeviceMark}

/-- A lost source is closed and tried. It is lost for good if it is required and does not open. -/
theorem care_of_reopenLost (held : source.device = some device) (readiness : Readiness)
    (failed : Option OsError)
    (shows : source.reopenLost.Shows DeviceMark.view marks (opened, failure)) :
    ∃ answer, marks = [.closed device, .tried source.path answer] ∧
      failure = (Care.lost? ⟨source, device, readiness⟩ (.reopen failed answer)).map
        .disconnected ∧
      (failure = none → opened.isMissing = true → opened.waits = true) := by
  rw [reopenLost_eq, letGo, held] at shows
  obtain ⟨_, _, _, rfl, ⟨_, _, rfl, rfl, _⟩, further⟩ := Routine.shows_bind.mp shows
  obtain ⟨_, _, _, rfl, ⟨_, _, rfl, rfl, _⟩, attempts⟩ := Routine.shows_bind.mp further
  obtain ⟨⟨attempt, refusal⟩, _, _, rfl, tries, settles⟩ := Routine.shows_bind.mp attempts
  have kept : attempt.setup = source.setup := (setup_of_tryOpen tries.yields).trans rfl
  have path : attempt.path = source.path := congrArg Prod.fst kept
  have waits : attempt.waits = source.waits := congrArg (·.2.1) kept
  obtain ⟨answer, rfl, rfl, missing⟩ := tried_of_tryOpen tries
  refine ⟨answer, ?_⟩
  cases answer with
  | ok opening =>
    obtain ⟨rfl, done⟩ := settles
    cases done
    refine ⟨rfl, rfl, fun _ absent => ?_⟩
    rw [missing] at absent
    cases absent
  | error cause =>
    simp only [refusal?, settleLost] at settles
    split at settles
    · rename_i isWaited
      obtain ⟨_, _, _, rfl, ⟨_, _, rfl, rfl, _⟩, rfl, done⟩ := Routine.shows_bind.mp settles
      cases done
      refine ⟨rfl, ?_, fun _ _ => isWaited⟩
      rw [Care.lost?, if_pos (waits ▸ isWaited)]
      rfl
    · rename_i unwaited
      obtain ⟨_, _, _, rfl, ⟨_, _, rfl, rfl, _⟩, rfl, done⟩ := Routine.shows_bind.mp settles
      cases done
      refine ⟨rfl, ?_, fun none => by cases none⟩
      rw [Care.lost?, if_neg (waits ▸ unwaited), path]
      rfl

/-- Reading an open source is one mark; it is broken when that fails for want of more than
input. -/
theorem care_of_read {reading : Reading} (held : source.device = some device)
    (shows : source.read.Shows DeviceMark.view marks reading) :
    (∃ answer events, reading = .events events ∧ marks = [.read device answer] ∧
      ∀ cause, answer = .error cause → cause = .wouldBlock) ∨
    ∃ cause, reading = .broken ∧ marks = [.read device (.error cause)] ∧ cause ≠ .wouldBlock := by
  rw [read, held] at shows
  obtain ⟨answer, _, rfl, further⟩ := shows
  cases answer with
  | ok reports =>
    obtain ⟨_, _, rfl, _, _, rfl, rfl, rfl⟩ := further
    exact .inl ⟨.ok reports, _, rfl, rfl, fun _ failed => by cases failed⟩
  | error cause =>
    simp only [Routine.bind] at further
    split at further
    · rename_i empty
      obtain ⟨rfl, rfl⟩ := further
      refine .inl ⟨.error cause, _, rfl, rfl, ?_⟩
      rintro _ ⟨⟩
      exact empty
    · rename_i failed
      obtain ⟨_, _, rfl, rfl, rfl⟩ := further
      exact .inr ⟨cause, rfl, rfl, failed⟩

end Source

namespace Monitor

variable {progress after : Progress} {front rest sources : List Source} {source : Source}
  {device : DeviceHandle} {readiness : Readiness} {failure : Option InputError}
  {marks : List DeviceMark}

/-- A source in place of which another is put that is not missing unless it is waited for. -/
theorem HoldsRequired.put {kept : Source} (holds : HoldsRequired (front ++ source :: rest))
    (fine : kept.isMissing = true → kept.waits = true) : HoldsRequired (front ++ kept :: rest) := by
  rw [HoldsRequired, List.forall_mem_append, List.forall_mem_cons] at holds ⊢
  obtain ⟨before, _, behind⟩ := holds
  exact ⟨before, fine, behind⟩

/-- A source that is closed is put back in its place once it has been tried. -/
theorem care_of_serveLost (held : source.device = some device) (readiness : Readiness)
    (failed : Option OsError)
    (shows : (serveLost progress front.length source).Shows DeviceMark.view marks
      (after, failure)) (placed : progress.sources = front ++ source :: rest) :
    ∃ answer kept, marks = [.closed device, .tried source.path answer] ∧
      failure = (Care.lost? ⟨source, device, readiness⟩ (.reopen failed answer)).map
        .disconnected ∧
      after.sources = front ++ kept :: rest ∧
      (failure = none → kept.isMissing = true → kept.waits = true) := by
  obtain ⟨⟨kept, refusal⟩, _, _, rfl, reopens, rfl, done⟩ := Routine.shows_bind.mp shows
  obtain ⟨answer, rfl, refused, fine⟩ := Source.care_of_reopenLost held readiness failed reopens
  cases done
  exact ⟨answer, kept, rfl, refused, by simp [placed], fine⟩

/-- An open source is served as it came back, and no other source is touched. -/
theorem care_of_serveSlot (placed : progress.sources = front ++ source :: rest)
    (held : source.device = some device)
    (shows : (serveSlot progress (.source front.length) readiness).Shows DeviceMark.view marks
      (after, failure)) :
    ∃ (care : Care) (kept : Source), care.Fits readiness ∧
      marks = care.marks ⟨source, device, readiness⟩ ∧
      failure = (care.lost? ⟨source, device, readiness⟩).map .disconnected ∧
      after.sources = front ++ kept :: rest ∧
      (failure = none → kept.isMissing = true → kept.waits = true) := by
  have found : progress.sources[front.length]? = some source := by simp [placed]
  have present : source.isMissing = false := by rw [Source.isMissing, held]; rfl
  have unmoved : source.isMissing = true → source.waits = true := by
    rw [present]
    exact fun absent => by cases absent
  simp only [serveSlot] at shows
  split at shows
  · rename_i idle
    obtain ⟨rfl, done⟩ := shows
    cases done
    exact ⟨.leave, source, idle, rfl, rfl, placed, fun _ => unmoved⟩
  · rename_i ready
    simp only [serveSource, found] at shows
    split at shows
    · rename_i isLost
      obtain ⟨answer, kept, rfl, refused, put, fine⟩ :=
        care_of_serveLost held readiness none shows placed
      exact ⟨.reopen none answer, kept, isLost, rfl, refused, put, fine⟩
    · rename_i unlost
      have readable : readiness = .readable := by
        cases readiness with
        | idle => exact absurd rfl ready
        | readable => rfl
        | lost => exact absurd rfl unlost
      obtain ⟨reading, _, _, rfl, reads, further⟩ := Routine.shows_bind.mp shows
      rcases Source.care_of_read held reads with ⟨answer, events, rfl, rfl, fine⟩ |
        ⟨cause, rfl, rfl, failed⟩
      · obtain ⟨rfl, done⟩ := further
        cases done
        exact ⟨.read answer, source, ⟨readable, fine⟩, rfl, rfl, placed, fun _ => unmoved⟩
      · obtain ⟨answer, kept, rfl, refused, put, fine⟩ :=
          care_of_serveLost held readiness (some cause) further placed
        exact ⟨.reopen (some cause) answer, kept, ⟨readable, failed⟩, rfl, refused, put, fine⟩

/-- Slots that are no sources leave no marks and end no round. -/
theorem marks_of_serve_others {ready : List (Slot × Readiness)}
    (others : ∀ slot ∈ ready, ∀ position, slot.1 ≠ .source position)
    (shows : (serve progress ready).Shows DeviceMark.view marks (after, failure)) :
    marks = [] ∧ failure = none ∧ after.sources = progress.sources := by
  induction ready generalizing progress marks with
  | nil =>
    obtain ⟨rfl, done⟩ := shows
    cases done
    exact ⟨rfl, rfl, rfl⟩
  | cons first rest ih =>
    obtain ⟨slot, readiness⟩ := first
    obtain ⟨⟨middle, refusal⟩, _, _, rfl, front, further⟩ := Routine.shows_bind.mp shows
    obtain ⟨foreign, others⟩ := List.forall_mem_cons.mp others
    have quiet : ∃ outcome noticed, serveSlot progress slot readiness =
        .done (⟨progress.sources, outcome, noticed⟩, none) := by
      simp only [serveSlot]
      split
      · exact ⟨_, _, rfl⟩
      · cases slot with
        | source position => exact absurd rfl (foreign position)
        | notices => exact ⟨_, _, rfl⟩
        | wake pipe => exact ⟨_, _, rfl⟩
    obtain ⟨outcome, noticed, same⟩ := quiet
    rw [same] at front
    obtain ⟨rfl, done⟩ := front
    cases done
    obtain ⟨silent, unfailed, kept⟩ := ih others further
    exact ⟨silent, unfailed, kept⟩

/-- The open sources that a wait told of are served in order, and whatever else was ready leaves
no marks. -/
theorem isServed_of_serve {others : List Slot} {told : List Readiness}
    (foreign : ∀ slot ∈ others, ∀ position, slot ≠ .source position)
    (placed : progress.sources = front ++ sources)
    (holds : HoldsRequired progress.sources)
    (shows : (serve progress ((((sourceSlots front.length sources).map (·.1)) ++ others).zip
      told)).Shows DeviceMark.view marks (after, failure)) :
    ∃ cares, IsServed (replies sources told) cares marks ∧
      failure = (firstLost? (replies sources told) cares).map .disconnected ∧
      (failure = none → HoldsRequired after.sources) := by
  induction sources generalizing front progress told marks with
  | nil =>
    have rest : ∀ slot ∈ others.zip told, ∀ position, slot.1 ≠ .source position :=
      fun slot member => foreign slot.1 (List.of_mem_zip member).1
    obtain ⟨rfl, rfl, same⟩ := marks_of_serve_others rest shows
    have silent : replies [] told = [] := by cases told <;> rfl
    rw [silent]
    exact ⟨[], .nil, rfl, fun _ => same ▸ holds⟩
  | cons source rest ih =>
    have next : front.length + 1 = (front ++ [source]).length := by simp
    cases told with
    | nil =>
      rw [List.zip_nil_right] at shows
      obtain ⟨rfl, done⟩ := shows
      cases done
      exact ⟨[], .nil, rfl, fun _ => holds⟩
    | cons readiness told =>
      cases held : source.device with
      | none =>
        rw [sourceSlots, held] at shows
        rw [next] at shows
        rw [replies, held]
        have placed : progress.sources = front ++ [source] ++ rest := by simpa using placed
        exact ih placed holds shows
      | some device =>
        rw [sourceSlots, held] at shows
        obtain ⟨⟨middle, refusal⟩, earlier, later, rfl, first, further⟩ :=
          Routine.shows_bind.mp shows
        obtain ⟨care, kept, fits, rfl, refused, put, fine⟩ := care_of_serveSlot placed held first
        rw [replies, held]
        cases lost : care.lost? ⟨source, device, readiness⟩ with
        | some path =>
          rw [lost] at refused
          obtain rfl : refusal = some (.disconnected path) := refused
          obtain ⟨rfl, done⟩ := further
          cases done
          refine ⟨[care], ?_, ?_, fun none => by cases none⟩
          · rw [List.append_nil]
            exact .last fits lost
          · rw [firstLost?_cons, lost]
            rfl
        | none =>
          rw [lost] at refused
          obtain rfl : refusal = none := refused
          have still : HoldsRequired middle.sources := by
            rw [placed] at holds
            rw [put]
            exact holds.put (fine rfl)
          rw [show front.length + 1 = (front ++ [kept]).length by simp] at further
          have put : middle.sources = front ++ [kept] ++ rest := by simpa using put
          obtain ⟨cares, served, same, keeps⟩ := ih put still further
          refine ⟨care :: cares, .cons fits lost served, ?_, keeps⟩
          rw [same, firstLost?_cons, lost, Option.none_or]

/-! ## Rounds -/

/-- What may change only missing sources, and not whether they are waited for, leaves the required
ones open. -/
theorem holdsRequired_of_visit {each : Source → Routine Source} {others : List Source}
    (keeps : ∀ source visited, (each source).Yields visited →
      visited.setup = source.setup ∧ (source.isMissing = false → visited = source))
    (holds : HoldsRequired sources) (visits : (visit each sources).Yields others) :
    HoldsRequired others := by
  induction sources generalizing others with
  | nil =>
    cases visits
    exact holds
  | cons source rest ih =>
    obtain ⟨visited, first, further⟩ := Routine.yields_bind.mp visits
    obtain ⟨remaining, back, done⟩ := Routine.yields_bind.mp further
    cases done
    obtain ⟨own, behind⟩ := List.forall_mem_cons.mp holds
    obtain ⟨same, untouched⟩ := keeps source visited first
    refine List.forall_mem_cons.mpr ⟨fun absent => ?_, ih behind back⟩
    cases missing : source.isMissing with
    | true => exact (congrArg (·.2.1) same).trans (own missing)
    | false => rw [untouched missing, missing] at absent; cases absent

/-- The first half of a round leaves no required source missing. -/
theorem holdsRequired_of_prepare {monitor ready : Monitor} (holds : HoldsRequired monitor.sources)
    (prepares : monitor.prepare.Yields ready) : HoldsRequired ready.sources := by
  obtain ⟨now, _, further⟩ := Routine.yields_bind.mp prepares
  obtain ⟨retried, retries, done⟩ := Routine.yields_bind.mp further
  rw [retrySources_eq] at retries
  cases done
  refine holdsRequired_of_visit (fun source visited first => ?_) holds retries
  refine ⟨setup_of_retry first, fun present => ?_⟩
  rw [retry, isRetryDue, Source.isUnwatched, present] at first
  cases first
  rfl

/-- Notices leave no required source missing. -/
theorem holdsRequired_of_answerNotices {notices : List Notice} {others : List Source}
    (holds : HoldsRequired sources)
    (visits : (visit (answerNotices notices) sources).Yields others) : HoldsRequired others := by
  refine holdsRequired_of_visit (fun source visited first => ?_) holds visits
  refine ⟨setup_of_answerNotices first, fun present => ?_⟩
  rw [answerNotices, present] at first
  cases first
  rfl

/-- Taking notices makes attempts and fails for no source. -/
theorem attempts_of_serveNotices (holds : HoldsRequired progress.sources)
    (shows : (serveNotices progress).Shows DeviceMark.view marks (after, failure)) :
    (∀ mark ∈ marks, mark.IsTry) ∧ HoldsRequired after.sources ∧
      ∀ path, failure ≠ some (.disconnected path) := by
  obtain ⟨answer, _, _, rfl, takes, further⟩ := Routine.shows_bind.mp shows
  obtain rfl := marks_of_takeNotices (fun _ => rfl) takes
  cases answer with
  | error error =>
    obtain ⟨cause, rfl⟩ := failed_of_takeNotices takes.yields
    obtain ⟨rfl, done⟩ := further
    cases done
    exact ⟨fun _ member => absurd member List.not_mem_nil, holds, fun _ same => by cases same⟩
  | ok notices =>
    obtain ⟨reopened, _, _, rfl, visits, rfl, done⟩ := Routine.shows_bind.mp further
    rw [reopenNoticed_eq] at visits
    cases done
    rw [List.append_nil]
    exact ⟨DeviceMark.tries_of_asks (asks_visit (asks_answerNotices notices) _) visits,
      holdsRequired_of_answerNotices holds visits.yields, fun _ same => by cases same⟩

/-- What is ready is served: the open sources in order, and the notices unless a source was lost
for good. -/
theorem isServed_of_serveAll {others : List Slot} {told : List Readiness}
    (foreign : ∀ slot ∈ others, ∀ position, slot ≠ .source position)
    (holds : HoldsRequired sources)
    (shows : (serveAll sources ((((sourceSlots 0 sources).map (·.1)) ++ others).zip told)).Shows
      DeviceMark.view marks (after, failure)) :
    ∃ served tries cares, marks = served ++ tries ∧ (∀ mark ∈ tries, mark.IsTry) ∧
      IsServed (replies sources told) cares served ∧
      (∀ path, failure = some (.disconnected path) ↔
        firstLost? (replies sources told) cares = some path) ∧
      (failure = none → HoldsRequired after.sources) := by
  obtain ⟨⟨middle, refusal⟩, served, tries, rfl, serves, further⟩ := Routine.shows_bind.mp shows
  obtain ⟨cares, isServed, same, keeps⟩ := isServed_of_serve foreign rfl holds
    (show (serve ⟨sources, .nothing, false⟩ ((((sourceSlots ([] : List Source).length sources).map
      (·.1)) ++ others).zip told)).Shows _ _ _ from serves)
  refine ⟨served, tries, cares, rfl, ?_⟩
  cases lost : firstLost? (replies sources told) cares with
  | some path =>
    rw [lost] at same
    obtain rfl : refusal = some (.disconnected path) := same
    obtain ⟨rfl, done⟩ := further
    cases done
    refine ⟨fun _ member => absurd member List.not_mem_nil, isServed, fun other => ?_,
      fun none => by cases none⟩
    simp
  | none =>
    rw [lost] at same
    obtain rfl : refusal = none := same
    have fine : (∀ mark ∈ tries, mark.IsTry) ∧ HoldsRequired after.sources ∧
        ∀ path, failure ≠ some (.disconnected path) := by
      dsimp only at further
      split at further
      · exact attempts_of_serveNotices (keeps rfl) further
      · obtain ⟨rfl, done⟩ := further
        cases done
        exact ⟨fun _ member => absurd member List.not_mem_nil, keeps rfl,
          fun _ same => by cases same⟩
    obtain ⟨attempts, still, unlost⟩ := fine
    exact ⟨attempts, isServed, fun path => iff_of_false (unlost path) (by simp), fun _ => still⟩

/-- A monitor waits for its open sources before anything else. -/
theorem slots_eq (monitor : Monitor) :
    ∃ others, monitor.slots.map (·.1) =
        (sourceSlots 0 monitor.sources).map (·.1) ++ others ∧
      ∀ slot ∈ others, ∀ position, slot ≠ .source position := by
  refine ⟨_, by rw [slots, List.append_assoc, List.map_append], ?_⟩
  rintro slot member position rfl
  cases watching : monitor.watching <;> simp [watching] at member

/-- A wait that fails leaves the monitor as it was, and the round does not end as disconnected. -/
theorem quiet_of_settle {monitor next : Monitor} {cause : OsError}
    {result : Except InputError Outcome}
    (shows : (monitor.settle (.error cause)).Shows DeviceMark.view marks (next, result)) :
    marks = [] ∧ next = monitor ∧ ∀ path, result ≠ .error (.disconnected path) := by
  rw [settle] at shows
  split at shows
  all_goals
    obtain ⟨rfl, done⟩ := shows
    cases done
    exact ⟨rfl, rfl, fun _ same => by cases same⟩

/-- After a wait the open sources are served in order, and a round that is not ended by one that
is lost for good ends with attempts at most. -/
theorem isServed_of_settle {monitor next : Monitor} {answer : Except OsError (List Readiness)}
    {result : Except InputError Outcome} (holds : HoldsRequired monitor.sources)
    (shows : (monitor.settle answer).Shows DeviceMark.view marks (next, result)) :
    ∃ served tries cares, marks = served ++ tries ∧ (∀ mark ∈ tries, mark.IsTry) ∧
      IsServed (replies monitor.sources (answer.toOption.getD [])) cares served ∧
      (∀ path, result = .error (.disconnected path) ↔
        firstLost? (replies monitor.sources (answer.toOption.getD [])) cares = some path) ∧
      ∀ outcome, result = .ok outcome → HoldsRequired next.sources := by
  cases answer with
  | error cause =>
    obtain ⟨rfl, rfl, unlost⟩ := quiet_of_settle shows
    have silent : replies next.sources
        ((Except.error cause : Except OsError (List Readiness)).toOption.getD []) = [] := by
      cases next.sources <;> rfl
    rw [silent]
    exact ⟨[], [], [], rfl, fun _ member => absurd member List.not_mem_nil, .nil,
      fun path => iff_of_false (unlost path) fun lost => (by cases lost), fun _ _ => holds⟩
  | ok told =>
    obtain ⟨⟨progress, failure⟩, _, _, rfl, serves, further⟩ := Routine.shows_bind.mp shows
    obtain ⟨others, parts, foreign⟩ := slots_eq monitor
    rw [parts] at serves
    obtain ⟨served, tries, cares, rfl, attempts, isServed, ends, keeps⟩ :=
      isServed_of_serveAll foreign holds serves
    cases failure with
    | none =>
      obtain ⟨rfl, done⟩ := further
      cases done
      refine ⟨served, tries, cares, List.append_nil _, attempts, isServed, fun path => ?_,
        fun _ _ => keeps rfl⟩
      refine Iff.trans ?_ (ends path)
      exact iff_of_false (fun lost => by cases lost) (fun lost => by cases lost)
    | some error =>
      obtain ⟨rfl, done⟩ := further
      cases done
      refine ⟨served, tries, cares, List.append_nil _, attempts, isServed, fun path => ?_,
        fun _ ok => by cases ok⟩
      refine Iff.trans ?_ (ends path)
      rw [Except.error.injEq, Option.some.injEq]

/-! ## Runs of rounds -/

variable {required waited : List Path} {monitor next : Monitor}

/-- A monitor that was started and has gone through rounds that ended well. -/
inductive IsPolled (required waited : List Path) : Monitor → Prop where
  /-- The monitor is started. -/
  | start {monitor : Monitor} (starts : (Monitor.start required waited).Yields (.ok monitor)) :
      IsPolled required waited monitor
  /-- It is to wait for one more pipe. -/
  | addWake {monitor : Monitor} (pipe : WakeId) (before : IsPolled required waited monitor) :
      IsPolled required waited (monitor.addWake pipe)
  /-- It goes through a round. -/
  | poll {monitor next : Monitor} {timeout : Int} {outcome : Outcome}
      (before : IsPolled required waited monitor)
      (polls : (monitor.poll timeout).Yields (next, .ok outcome)) :
      IsPolled required waited next

/-- Whether the sources are the required inputs and then the ones that are waited for. -/
def Lists (required waited : List Path) (monitor : Monitor) : Prop :=
  monitor.paths = required ++ waited ∧ monitor.sources.map Source.waits =
    List.replicate required.length false ++ List.replicate waited.length true

/-- A monitor starts with the required inputs and then the ones that are waited for. -/
theorem lists_of_start (starts : (start required waited).Yields (.ok monitor)) :
    Lists required waited monitor := by
  have same := map_of_openSources (fun source => (source.path, source.waits))
    (fun _ _ _ => place_of_openSource) (opened_of_start starts).2
  constructor
  · have paths := congrArg (List.map Prod.fst) same
    simpa [sourcesOf, Source.unopened, Function.comp_def, Monitor.paths] using paths
  · have waits := congrArg (List.map Prod.snd) same
    simpa [sourcesOf, Source.unopened, Function.comp_def, List.map_const'] using waits

/-- Sources that are set up alike are listed alike. -/
theorem Lists.of_setup (lists : Lists required waited monitor)
    (same : next.sources.map Source.setup = monitor.sources.map Source.setup) :
    Lists required waited next := by
  have paths := congrArg (List.map Prod.fst) same
  have waits := congrArg (List.map fun setup => setup.2.1) same
  simp only [List.map_map] at paths waits
  exact ⟨paths.trans lists.1, waits.trans lists.2⟩

/-- Rounds that end well leave only sources missing that are waited for, and the sources as they
were listed. -/
theorem IsPolled.holds (polled : IsPolled required waited monitor) :
    Lists required waited monitor ∧ HoldsRequired monitor.sources := by
  induction polled with
  | start starts =>
    obtain ⟨marks, shows⟩ := Routine.exists_shows_of_yields DeviceMark.view starts
    exact ⟨lists_of_start starts, (outcome_of_start shows).2.2 _ rfl⟩
  | addWake pipe _ ih => exact ih
  | poll _ polls ih =>
    obtain ⟨lists, holds⟩ := ih
    obtain ⟨marks, shows⟩ := Routine.exists_shows_of_yields DeviceMark.view polls
    rw [poll_eq] at shows
    obtain ⟨ready, _, _, rfl, prepares, waits⟩ := Routine.shows_bind.mp shows
    obtain ⟨answer, _, rfl, settles⟩ := waits
    have still := holdsRequired_of_prepare holds prepares.yields
    obtain ⟨_, _, _, _, _, _, _, keeps⟩ := isServed_of_settle still settles
    exact ⟨lists.of_setup (setup_of_poll polls).1, keeps _ rfl⟩

/-- Starting fails without inputs, and else with the error of the first required input that does
not open, whatever becomes of the others. As long as all rounds end well, the sources are the
required ones and then the others in the order given, and only those that are waited for are
missing. A round serves the open sources in this order, and is ended as disconnected exactly by the
first required one that is lost and does not open again. -/
theorem required_open_until_disconnected (required waited : List Path) :
    (∀ marks result, (start required waited).Shows DeviceMark.view marks result →
      (result = .error .noInputs ↔ required = [] ∧ waited = []) ∧
      (¬(required = [] ∧ waited = []) →
        ∃ answers, marks = List.zipWith .tried (required ++ waited) answers ∧
          (∀ error, result = .error error ↔
            ((required.zip answers).findSome? fun tried => refusal? tried.1 tried.2) =
              some error) ∧
          ∀ monitor, result = .ok monitor → answers.length = (required ++ waited).length)) ∧
    ∀ monitor, IsPolled required waited monitor →
      Lists required waited monitor ∧ HoldsRequired monitor.sources ∧
      ∀ timeout marks next result,
        (monitor.poll timeout).Shows DeviceMark.view marks (next, result) →
        ∃ ready earlier answer served tries cares,
          marks = earlier ++ .waited answer :: (served ++ tries) ∧
          monitor.prepare.Shows DeviceMark.view earlier ready ∧
          Lists required waited ready ∧ HoldsRequired ready.sources ∧
          IsServed (replies ready.sources (answer.toOption.getD [])) cares served ∧
          (∀ mark ∈ tries, mark.IsTry) ∧
          ∀ path, result = .error (.disconnected path) ↔
            firstLost? (replies ready.sources (answer.toOption.getD [])) cares = some path := by
  constructor
  · intro marks result shows
    obtain ⟨empty, tries, _⟩ := outcome_of_start shows
    exact ⟨empty, tries⟩
  · intro monitor polled
    obtain ⟨lists, holds⟩ := polled.holds
    refine ⟨lists, holds, fun timeout marks next result shows => ?_⟩
    rw [poll_eq] at shows
    obtain ⟨ready, earlier, _, rfl, prepares, waits⟩ := Routine.shows_bind.mp shows
    obtain ⟨answer, _, rfl, settles⟩ := waits
    have still := holdsRequired_of_prepare holds prepares.yields
    obtain ⟨served, tries, cares, rfl, attempts, isServed, ends, _⟩ :=
      isServed_of_settle still settles
    exact ⟨ready, earlier, answer, served, tries, cares, rfl, prepares,
      lists.of_setup (setup_of_prepare prepares.yields).1, still, isServed, attempts, ends⟩

/-- A host on which so many attempts succeed, and every wait tells of losses. -/
def losing : (request : Request) → Nat → request.Answer × Nat
  | .openDevice _, 0 => (.error .noDevice, 0)
  | .openDevice _, left + 1 => (.ok ⟨⟨left⟩, none, true⟩, left)
  | .poll descriptors _, left => (.ok (descriptors.map fun _ => .lost), left)
  | _, left => (default, left)

/-- Of two required inputs that are lost in one round the first is the one that ends it. -/
theorem first_loss_disconnects :
    let inputs : List Path := [⟨"/dev/input/event0"⟩, ⟨"/dev/input/event1"⟩]
    ∃ monitor next told cares served, IsPolled inputs [] monitor ∧
      Lists inputs [] monitor ∧ HoldsRequired monitor.sources ∧
      (monitor.poll 0).Yields (next, .error (.disconnected ⟨"/dev/input/event0"⟩)) ∧
      IsServed told cares served ∧ firstLost? told cares = some ⟨"/dev/input/event0"⟩ := by
  intro inputs
  obtain ⟨monitor, started⟩ : ∃ monitor, ((start inputs []).run losing 2).1 = .ok monitor :=
    ⟨_, rfl⟩
  have polled : IsPolled inputs [] monitor := .start (started ▸ Routine.yields_run losing _ 2)
  obtain ⟨lists, holds, rounds⟩ := (required_open_until_disconnected inputs []).2 monitor polled
  obtain ⟨next, lost⟩ : ∃ next, ((monitor.poll 0).run losing 0).1 =
      (next, .error (.disconnected ⟨"/dev/input/event0"⟩)) := by
    cases started
    exact ⟨_, rfl⟩
  have shows : (monitor.poll 0).Shows DeviceMark.view _ _ :=
    Routine.shows_run losing (monitor.poll 0) 0
  rw [lost] at shows
  obtain ⟨ready, _, answer, _, _, cares, _, _, _, _, isServed, _, ends⟩ := rounds _ _ _ _ shows
  exact ⟨monitor, next, _, cares, _, polled, lists, holds, shows.yields, isServed,
    (ends _).mp rfl⟩

end Monitor

end Keyhold
