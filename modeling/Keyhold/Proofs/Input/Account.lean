import Keyhold.Proofs.Input.Polling
import Keyhold.Proofs.Input.Stamps
import Mathlib.Data.List.Nodup

/-!
# The account of a round

A round of the monitor is seen in its marks: what it reads off the clock, its wait, its attempts to
open inputs, its reads and its closings. The account says which source each of them belongs to,
where sources are served. A wait tells of the open sources in their order (`tell`), and what they
are told decides alone what is read, what has hung up, and what may be closed and tried
(`account_of_serve`).

`Makes` follows the attempts. It keeps all sources apart by their positions: what becomes of a
source is settled by the attempts at its own position (`Makes.at_position`).
-/

namespace Keyhold

open Keyhold.System

/-- What a round is seen to do. -/
inductive PollMark where
  /-- It reads the monotonic clock. -/
  | clock (reading : Instant)
  /-- It reads the wall clock. -/
  | wall (reading : WallTime)
  /-- It waits. -/
  | waited (descriptors : List Descriptor) (timeout : Int)
      (answer : Except OsError (List Readiness))
  /-- It tries to open an input. -/
  | tried (path : Path) (answer : Except OsError OpenedDevice)
  /-- It reads a device. -/
  | read (device : DeviceHandle) (answer : Except OsError (List Report))
  /-- It closes a device. -/
  | closed (device : DeviceHandle)

namespace PollMark

/-- The mark of a request. -/
def view : View PollMark
  | .clock, reading => some (.clock reading)
  | .wallClock, reading => some (.wall reading)
  | .poll descriptors timeout, answer => some (.waited descriptors timeout answer)
  | .openDevice path, answer => some (.tried path answer)
  | .readDevice device, answer => some (.read device answer)
  | .closeDevice device, _ => some (.closed device)
  | _, _ => none

/-- The wait that a mark is of. -/
def waited? : PollMark → Option (List Descriptor × Int × Except OsError (List Readiness))
  | .waited descriptors timeout answer => some (descriptors, timeout, answer)
  | _ => none

/-- The attempt that a mark is of. -/
def tried? : PollMark → Option (Path × Except OsError OpenedDevice)
  | .tried path answer => some (path, answer)
  | _ => none

/-- The read that a mark is of. -/
def read? : PollMark → Option (DeviceHandle × Except OsError (List Report))
  | .read device answer => some (device, answer)
  | _ => none

/-- The closing that a mark is of. -/
def closed? : PollMark → Option DeviceHandle
  | .closed device => some device
  | _ => none

/-- The batches that are read, each with its device and with the readings of the clocks right
behind. -/
def batches : List PollMark → List (DeviceHandle × Batch)
  | .read device (.ok reports) :: .wall wallNow :: .clock now :: rest =>
    (device, ⟨reports, wallNow, now⟩) :: batches rest
  | _ :: rest => batches rest
  | [] => []

end PollMark

variable {marks : List PollMark}

/-! ## Attempts -/

/-- An attempt to open the source at a position. -/
structure Attempt where
  position : Nat
  time : Instant
  answer : Except OsError OpenedDevice

namespace Source

variable {source opened : Source} {failure : Option InputError} {device : DeviceHandle}

/-- A source after an attempt to open it. -/
def after (source : Source) (attempt : Attempt) : Source :=
  { source with
    lastAttempt := some attempt.time
    device := attempt.answer.toOption.map (·.handle) }

/-- An attempt reads the clock and remembers it. -/
theorem after_of_tryOpen (position : Nat)
    (shows : source.tryOpen.Shows PollMark.view marks (opened, failure)) :
    ∃ attempt : Attempt, attempt.position = position ∧
      marks = [.clock attempt.time, .tried source.path attempt.answer] ∧
      opened = source.after attempt := by
  obtain ⟨time, _, rfl, answer, _, rfl, further⟩ := shows
  refine ⟨⟨position, time, answer⟩, rfl, ?_⟩
  cases answer with
  | ok device =>
    obtain ⟨_, _, rfl, rfl, done⟩ := further
    cases done
    exact ⟨rfl, rfl⟩
  | error cause =>
    obtain ⟨rfl, done⟩ := further
    cases done
    exact ⟨rfl, rfl⟩

/-- A quiet attempt reads the clock and remembers it as well. -/
theorem after_of_tryOpenQuietly (position : Nat)
    (shows : source.tryOpenQuietly.Shows PollMark.view marks opened) :
    ∃ attempt : Attempt, attempt.position = position ∧
      marks = [.clock attempt.time, .tried source.path attempt.answer] ∧
      opened = source.after attempt := by
  rw [tryOpenQuietly_eq] at shows
  obtain ⟨tried, _, _, rfl, tries, further⟩ := Routine.shows_bind.mp shows
  obtain ⟨_, _, _, rfl, reports, rfl, rfl⟩ := Routine.shows_bind.mp further
  have silent : ∀ messages, (Routine.reportAll messages).Asks
      fun request => ∀ answer, PollMark.view request answer = none :=
    Routine.asks_reportAll fun _ _ => rfl
  obtain rfl := Routine.marks_of_asks (silent _) (fun _ ignored => ignored) reports
  obtain ⟨attempt, at_position, rfl, same⟩ := after_of_tryOpen position tries
  exact ⟨attempt, at_position, by simp, same⟩

/-- A lost source is closed and tried. -/
theorem after_of_reopenLost (position : Nat) (held : source.device = some device)
    (shows : source.reopenLost.Shows PollMark.view marks (opened, failure)) :
    ∃ attempt : Attempt, attempt.position = position ∧
      marks = [.closed device, .clock attempt.time, .tried source.path attempt.answer] ∧
      opened = source.after attempt := by
  rw [reopenLost_eq, letGo, held] at shows
  obtain ⟨_, _, _, rfl, ⟨_, _, rfl, rfl, _⟩, further⟩ := Routine.shows_bind.mp shows
  obtain ⟨_, _, _, rfl, ⟨_, _, rfl, rfl, _⟩, attempts⟩ := Routine.shows_bind.mp further
  obtain ⟨⟨attempted, refusal⟩, _, _, rfl, tries, settles⟩ := Routine.shows_bind.mp attempts
  have silent : (attempted.settleLost refusal).Asks
      fun request => ∀ answer, PollMark.view request answer = none := by
    cases refusal with
    | none => trivial
    | some error =>
      rw [settleLost]
      split
      · exact ⟨fun _ => rfl, fun _ => trivial⟩
      · exact ⟨fun _ => rfl, fun _ => trivial⟩
  obtain rfl := eq_of_settleLost settles.yields
  obtain rfl := Routine.marks_of_asks silent (fun _ ignored => ignored) settles
  obtain ⟨attempt, at_position, rfl, rfl⟩ := after_of_tryOpen position tries
  exact ⟨attempt, at_position, rfl, rfl⟩

/-- Reading an open source gives a batch, or nothing, or fails. -/
theorem fetch_of_read {reading : Reading} (held : source.device = some device)
    (shows : source.read.Shows PollMark.view marks reading) :
    (∃ batch : Batch, reading = .events batch.events ∧
      marks = [.read device (.ok batch.reports), .wall batch.readings.wall,
        .clock batch.readings.now]) ∨
    ∃ cause, marks = [.read device (.error cause)] ∧
      (reading = .events [] ∨ reading = .broken) := by
  rw [read, held] at shows
  obtain ⟨answer, _, rfl, further⟩ := shows
  cases answer with
  | ok reports =>
    obtain ⟨wall, _, rfl, now, _, rfl, rfl, done⟩ := further
    exact .inl ⟨⟨reports, wall, now⟩, done.symm, rfl⟩
  | error cause =>
    refine .inr ⟨cause, ?_⟩
    simp only [Routine.bind] at further
    split at further
    · obtain ⟨rfl, done⟩ := further
      exact ⟨rfl, .inl done.symm⟩
    · obtain ⟨_, _, rfl, rfl, done⟩ := further
      exact ⟨rfl, .inr done.symm⟩

end Source

/-- Attempts one after another at sources, as they are seen, and what becomes of the sources. -/
inductive Makes : List Source → List Attempt → List (Path × Except OsError OpenedDevice) →
    List Source → Prop where
  | nothing {sources : List Source} : Makes sources [] [] sources
  | next {sources others : List Source} {source : Source} {attempt : Attempt}
      {attempts : List Attempt} {tries : List (Path × Except OsError OpenedDevice)}
      (found : sources[attempt.position]? = some source)
      (further : Makes (sources.set attempt.position (source.after attempt)) attempts tries
        others) :
      Makes sources (attempt :: attempts) ((source.path, attempt.answer) :: tries) others

namespace Makes

variable {sources middle others : List Source} {source : Source} {attempt : Attempt}
  {attempts more : List Attempt} {tries seen : List (Path × Except OsError OpenedDevice)}

/-- One attempt at a source changes that source. -/
theorem single (found : sources[attempt.position]? = some source) :
    Makes sources [attempt] [(source.path, attempt.answer)]
      (sources.set attempt.position (source.after attempt)) :=
  .next found .nothing

/-- Attempts behind others start from what those have made of the sources. -/
theorem append (first : Makes sources attempts tries middle)
    (second : Makes middle more seen others) :
    Makes sources (attempts ++ more) (tries ++ seen) others := by
  induction first with
  | nothing => exact second
  | next found _ ih => exact .next found (ih second)

/-- What becomes of a source is settled by the attempts at its own position. -/
theorem at_position (makes : Makes sources attempts tries others) (position : Nat) :
    others[position]? = sources[position]?.map fun source =>
      (attempts.filter (·.position == position)).foldl Source.after source := by
  induction makes with
  | nothing => simp
  | next found _ ih =>
    rw [ih, List.getElem?_set, List.filter_cons]
    split
    · rename_i here
      have inside := (List.getElem?_eq_some_iff.mp found).1
      rw [if_pos inside, if_pos (beq_iff_eq.mpr here), ← here, found, Option.map_some,
        Option.map_some, List.foldl_cons]
    · rename_i apart
      rw [if_neg fun same => apart (beq_iff_eq.mp same)]

/-- A source at which no attempt is made stays as it is. -/
theorem kept (makes : Makes sources attempts tries others) {position : Nat}
    (untried : ∀ attempt ∈ attempts, attempt.position ≠ position) :
    others[position]? = sources[position]? := by
  have none : attempts.filter (·.position == position) = [] :=
    List.filter_eq_nil_iff.mpr fun attempt member => by simpa using untried attempt member
  rw [makes.at_position position, none]
  simp

end Makes

/-! ## Open sources -/

/-- An open source at its position, with its device. -/
structure Place where
  position : Nat
  source : Source
  device : DeviceHandle

/-- The open sources, in order, with positions counted from the given one. -/
def places (position : Nat) (sources : List Source) : List Place :=
  (sources.zipIdx position).filterMap fun placed =>
    placed.1.device.map fun device => ⟨placed.2, placed.1, device⟩

/-- What the open sources are told by a wait. Sources that it does not speak of are idle. -/
def tell : List Place → List Readiness → List (Place × Readiness)
  | [], _ => []
  | place :: rest, told => (place, told.headD .idle) :: tell rest told.tail

/-- The sources that are found readable. -/
def readable? : Place × Readiness → Option Place
  | (place, .readable) => some place
  | _ => none

/-- The paths of the sources that are ready without data. -/
def hungUp? : Place × Readiness → Option Path
  | (place, .lost) => some place.source.path
  | _ => none

/-- The sources that are ready. -/
def ready? : Place × Readiness → Option Place
  | (_, .idle) => none
  | (place, _) => some place

/-- A source that is found readable is the one that was told so. -/
theorem eq_of_readable? {served : Place × Readiness} {place : Place}
    (picked : readable? served = some place) : served.1 = place := by
  obtain ⟨own, readiness⟩ := served
  cases readiness with
  | readable => exact Option.some.inj picked
  | idle => cases picked
  | lost => cases picked

/-- The sources that are ready are those that were not told to be idle. -/
theorem ready?_eq_some_iff {served : Place × Readiness} {place : Place} :
    ready? served = some place ↔ served.2 ≠ .idle ∧ served.1 = place := by
  obtain ⟨own, readiness⟩ := served
  cases readiness <;> simp [ready?]

section Places

variable {sources rest : List Source} {source : Source} {place : Place} {position : Nat}

/-- An open source comes in front of the open ones behind it. -/
theorem places_cons_of_open {device : DeviceHandle} (held : source.device = some device) :
    places position (source :: rest) =
      ⟨position, source, device⟩ :: places (position + 1) rest := by
  rw [places, List.zipIdx_cons, List.filterMap_cons_some (by rw [held]; rfl)]
  rfl

/-- A missing source takes up a position without an entry. -/
theorem places_cons_of_missing (missing : source.device = none) :
    places position (source :: rest) = places (position + 1) rest := by
  rw [places, List.zipIdx_cons, List.filterMap_cons_none (by rw [missing]; rfl)]
  rfl

/-- The slots of the sources are the open ones. -/
theorem sourceSlots_eq (position : Nat) (sources : List Source) :
    Monitor.sourceSlots position sources = (places position sources).map fun place =>
      (.source place.position, .device place.device) := by
  induction sources generalizing position with
  | nil => rfl
  | cons source rest ih =>
    cases held : source.device with
    | none => rw [Monitor.sourceSlots, held, places_cons_of_missing held, ih]
    | some device => rw [Monitor.sourceSlots, held, places_cons_of_open held, List.map_cons, ih]

/-- An open source is at its position. -/
theorem found_of_mem_places (member : place ∈ places 0 sources) :
    sources[place.position]? = some place.source ∧ place.source.device = some place.device := by
  obtain ⟨placed, listed, made⟩ := List.mem_filterMap.mp member
  obtain ⟨device, held, rfl⟩ := Option.map_eq_some_iff.mp made
  exact ⟨List.mem_zipIdx_iff_getElem?.mp listed, held⟩

/-- Open sources come in the order of their positions. -/
theorem places_ordered (position : Nat) (sources : List Source) :
    (places position sources).Pairwise fun one other => one.position < other.position := by
  induction sources generalizing position with
  | nil => exact .nil
  | cons source rest ih =>
    cases held : source.device with
    | none => rw [places_cons_of_missing held]; exact ih _
    | some device =>
      rw [places_cons_of_open held]
      refine .cons (fun place member => ?_) (ih _)
      obtain ⟨placed, listed, made⟩ := List.mem_filterMap.mp member
      obtain ⟨_, _, rfl⟩ := Option.map_eq_some_iff.mp made
      exact (List.mem_zipIdx listed).1

/-- Whoever is told something is an open source. -/
theorem tell_fst (listed : List Place) (told : List Readiness) :
    (tell listed told).map (·.1) = listed := by
  induction listed generalizing told with
  | nil => rfl
  | cons place rest ih => rw [tell, List.map_cons, ih]

/-- Who is told something is one of those that were listed. -/
theorem mem_of_told {listed : List Place} {told : List Readiness} {served : Place × Readiness}
    (isTold : served ∈ tell listed told) : served.1 ∈ listed := by
  rw [← tell_fst listed told]
  exact List.mem_map_of_mem isTold

/-- Sources that are picked by what they are told stay in their order. -/
theorem filterMap_told_sublist {pick : Place × Readiness → Option Place}
    (own : ∀ served place, pick served = some place → served.1 = place) (listed : List Place)
    (told : List Readiness) : ((tell listed told).filterMap pick).Sublist listed := by
  induction listed generalizing told with
  | nil => exact .slnil
  | cons place rest ih =>
    rw [tell]
    cases picked : pick (place, told.headD .idle) with
    | none =>
      rw [List.filterMap_cons_none picked]
      exact .cons _ (ih _)
    | some other =>
      obtain rfl : place = other := own _ _ picked
      rw [List.filterMap_cons_some picked]
      exact .cons_cons _ (ih _)

/-- An open source is told one thing. -/
theorem eq_of_told {told : List Readiness} {one other : Place × Readiness}
    (isOne : one ∈ tell (places 0 sources) told) (isOther : other ∈ tell (places 0 sources) told)
    (same : one.1.position = other.1.position) : one = other := by
  have positions : ((tell (places 0 sources) told).map fun served => served.1.position).Nodup := by
    have ordered := places_ordered 0 sources
    rw [← tell_fst (places 0 sources) told] at ordered
    exact List.pairwise_map.mpr ((List.pairwise_map.mp ordered).imp fun before =>
      Nat.ne_of_lt before)
  exact List.inj_on_of_nodup_map positions isOne isOther same

end Places

/-- A read of an open source, with the readings of the clocks behind it and the events that come of
it. -/
structure Fetch where
  place : Place
  answer : Except OsError (List Report)
  readings : Readings
  events : List Event

namespace Fetch

/-- The batch that was read, if the read did not fail. -/
def batch? (fetch : Fetch) : Option (DeviceHandle × Batch) :=
  match fetch.answer with
  | .ok reports => some (fetch.place.device, ⟨reports, fetch.readings⟩)
  | .error _ => none

/-- The records that the device handed out, each with the readings behind it. -/
def records (fetch : Fetch) : List (Readings × Report) :=
  match fetch.answer with
  | .ok reports => reports.map fun report => (fetch.readings, report)
  | .error _ => []

/-- Whether the events are the records that the device handed out, each once and in order. -/
def Delivers (fetch : Fetch) : Prop :=
  List.Forall₂ (fun record event => record.1.Carries record.2 event) fetch.records fetch.events

/-- A batch is delivered. -/
theorem delivers_batch (place : Place) (batch : Batch) :
    Delivers ⟨place, .ok batch.reports, batch.readings, batch.events⟩ := by
  rw [Delivers, records, Batch.events, List.forall₂_map_left_iff, List.forall₂_map_right_iff]
  exact List.forall₂_same.mpr fun report _ => batch.readings.carries_toEvent report

end Fetch

namespace Monitor

variable {progress middle after : Progress} {place : Place} {readiness : Readiness}
  {sources : List Source} {failure : Option InputError}

/-- What was done for open sources that were told something. Exactly those found readable were
read, each once and in order, and their events collected; exactly those ready without data count
as hung up; and only those that were ready may have been closed and tried. -/
structure Account (told : List (Place × Readiness)) (before : Progress) (marks : List PollMark)
    (fetches : List Fetch) (attempts : List Attempt) (after : Progress) : Prop where
  waits : marks.filterMap PollMark.waited? = []
  fetched : fetches.map Fetch.place = told.filterMap readable?
  reads : marks.filterMap PollMark.read? = fetches.map fun fetch =>
    (fetch.place.device, fetch.answer)
  events : after.outcome.events = before.outcome.events ++ fetches.flatMap Fetch.events
  hungUp : after.outcome.hungUp = before.outcome.hungUp ++ told.filterMap hungUp?
  closes : (marks.filterMap PollMark.closed?).Sublist ((told.filterMap ready?).map Place.device)
  made : Makes before.sources attempts (marks.filterMap PollMark.tried?) after.sources
  timed : ∀ attempt ∈ attempts, .clock attempt.time ∈ marks
  reopened : (attempts.map Attempt.position).Sublist ((told.filterMap ready?).map Place.position)
  batches : ∀ rest, PollMark.batches (marks ++ rest) =
    fetches.filterMap Fetch.batch? ++ PollMark.batches rest
  delivers : ∀ fetch ∈ fetches, fetch.Delivers

namespace Account

variable {told further : List (Place × Readiness)} {others : List PollMark}
  {fetches gained : List Fetch} {attempts more : List Attempt}

/-- Nothing was told and nothing done. -/
theorem nothing (sources : after.sources = progress.sources)
    (events : after.outcome.events = progress.outcome.events)
    (hungUp : after.outcome.hungUp = progress.outcome.hungUp) :
    Account [] progress [] [] [] after := by
  refine ⟨rfl, rfl, rfl, by simp [events], by simp [hungUp], .refl _, ?_, nofun, .refl _,
    fun _ => rfl, nofun⟩
  rw [sources]
  exact .nothing

/-- Accounts one after another. -/
theorem append (first : Account told progress marks fetches attempts middle)
    (second : Account further middle others gained more after) :
    Account (told ++ further) progress (marks ++ others) (fetches ++ gained) (attempts ++ more)
      after where
  waits := by rw [List.filterMap_append, first.waits, second.waits, List.nil_append]
  fetched := by rw [List.map_append, List.filterMap_append, first.fetched, second.fetched]
  reads := by rw [List.map_append, List.filterMap_append, first.reads, second.reads]
  events := by rw [second.events, first.events, List.flatMap_append, List.append_assoc]
  hungUp := by rw [second.hungUp, first.hungUp, List.filterMap_append, List.append_assoc]
  closes := by
    rw [List.filterMap_append, List.filterMap_append, List.map_append]
    exact first.closes.append second.closes
  made := by
    rw [List.filterMap_append]
    exact first.made.append second.made
  timed := by
    intro attempt member
    rcases List.mem_append.mp member with early | late
    · exact List.mem_append_left _ (first.timed attempt early)
    · exact List.mem_append_right _ (second.timed attempt late)
  reopened := by
    rw [List.map_append, List.filterMap_append, List.map_append]
    exact first.reopened.append second.reopened
  batches := by
    intro rest
    rw [List.append_assoc, first.batches, second.batches, List.filterMap_append,
      List.append_assoc]
  delivers := List.forall_mem_append.mpr ⟨first.delivers, second.delivers⟩

/-- An attempt is made at a source that was ready. -/
theorem served_of_attempt (account : Account told progress marks fetches attempts after)
    {attempt : Attempt} (made : attempt ∈ attempts) :
    ∃ served ∈ told, served.2 ≠ .idle ∧ served.1.position = attempt.position := by
  have position := account.reopened.subset (List.mem_map_of_mem made)
  obtain ⟨place, isReady, same⟩ := List.mem_map.mp position
  obtain ⟨served, isServed, ready⟩ := List.mem_filterMap.mp isReady
  obtain ⟨busy, rfl⟩ := ready?_eq_some_iff.mp ready
  exact ⟨served, isServed, busy, same⟩

end Account

/-- A lost source is put back in its place once it has been tried. -/
theorem after_of_serveLost (held : place.source.device = some place.device)
    (shows : (serveLost progress place.position place.source).Shows PollMark.view marks
      (after, failure)) :
    ∃ attempt : Attempt, attempt.position = place.position ∧
      marks = [.closed place.device, .clock attempt.time,
        .tried place.source.path attempt.answer] ∧
      after = { progress with
        sources := progress.sources.set place.position (place.source.after attempt) } := by
  obtain ⟨⟨kept, refusal⟩, _, _, rfl, reopens, rfl, done⟩ := Routine.shows_bind.mp shows
  obtain ⟨attempt, at_position, rfl, rfl⟩ :=
    Source.after_of_reopenLost place.position held reopens
  cases done
  exact ⟨attempt, at_position, rfl, rfl⟩

/-- The slot of an open source is served as the source is told. -/
theorem account_of_serveSource (found : progress.sources[place.position]? = some place.source)
    (held : place.source.device = some place.device)
    (shows : (serveSlot progress (.source place.position) readiness).Shows PollMark.view marks
      (after, failure)) :
    ∃ fetches attempts, Account [(place, readiness)] progress marks fetches attempts after := by
  cases readiness with
  | idle =>
    obtain ⟨rfl, done⟩ := shows
    cases done
    exact ⟨[], [], rfl, rfl, rfl, by simp, by simp [hungUp?], .refl _, .nothing, nofun, .refl _,
      fun _ => rfl, nofun⟩
  | lost =>
    simp only [serveSlot, serveSource, found] at shows
    obtain ⟨attempt, here, rfl, rfl⟩ := after_of_serveLost held shows
    refine ⟨[], [attempt], rfl, rfl, rfl, by simp, rfl, .refl _, ?_, ?_, ?_, fun _ => rfl, nofun⟩
    · rw [← here] at found ⊢
      exact .single found
    · simp
    · simp [here, ready?]
  | readable =>
    simp only [serveSlot, serveSource, found] at shows
    obtain ⟨reading, _, _, rfl, reads, further⟩ := Routine.shows_bind.mp shows
    rcases Source.fetch_of_read held reads with ⟨batch, rfl, rfl⟩ | ⟨cause, rfl, rfl | rfl⟩
    · obtain ⟨rfl, done⟩ := further
      cases done
      have delivers := Fetch.delivers_batch place batch
      exact ⟨[⟨place, .ok batch.reports, batch.readings, batch.events⟩], [], rfl, rfl, rfl, by simp,
        by simp [hungUp?], List.nil_sublist _, .nothing, nofun, List.nil_sublist _, fun _ => rfl,
        List.forall_mem_singleton.mpr delivers⟩
    · obtain ⟨rfl, done⟩ := further
      cases done
      exact ⟨[⟨place, .error cause, default, []⟩], [], rfl, rfl, rfl, by simp, by simp [hungUp?],
        List.nil_sublist _, .nothing, nofun, List.nil_sublist _, fun _ => rfl,
        List.forall_mem_singleton.mpr .nil⟩
    · obtain ⟨attempt, here, rfl, rfl⟩ := after_of_serveLost held further
      refine ⟨[⟨place, .error cause, default, []⟩], [attempt], rfl, rfl, rfl, by simp,
        by simp [hungUp?], .refl _, ?_, ?_, ?_, fun _ => rfl, List.forall_mem_singleton.mpr .nil⟩
      · rw [← here] at found ⊢
        exact .single found
      · simp
      · simp [here, ready?]

/-- Where a wait tells nothing, nothing is done. -/
theorem account_of_silence (progress : Progress) (told : List Place) :
    Account (tell told []) progress [] [] [] progress := by
  induction told with
  | nil => exact .nothing rfl rfl rfl
  | cons place rest ih =>
    have own : Account [(place, .idle)] progress [] [] [] progress :=
      ⟨rfl, rfl, rfl, by simp, by simp [hungUp?], .refl _, .nothing, nofun, .refl _, fun _ => rfl,
        nofun⟩
    exact own.append ih

/-- Slots that are no sources do nothing for sources. -/
theorem account_of_others {ready : List (Slot × Readiness)}
    (foreign : ∀ slot ∈ ready, ∀ position, slot.1 ≠ .source position)
    (shows : (serve progress ready).Shows PollMark.view marks (after, failure)) :
    marks = [] ∧ failure = none ∧ Account [] progress [] [] [] after := by
  induction ready generalizing progress marks with
  | nil =>
    obtain ⟨rfl, done⟩ := shows
    cases done
    exact ⟨rfl, rfl, .nothing rfl rfl rfl⟩
  | cons first rest ih =>
    obtain ⟨slot, readiness⟩ := first
    obtain ⟨⟨middle, refusal⟩, _, _, rfl, front, further⟩ := Routine.shows_bind.mp shows
    obtain ⟨own, others⟩ := List.forall_mem_cons.mp foreign
    have quiet : ∃ served, serveSlot progress slot readiness = .done (served, none) ∧
        Account [] progress [] [] [] served := by
      simp only [serveSlot]
      split
      · exact ⟨_, rfl, .nothing rfl rfl rfl⟩
      · cases slot with
        | source position => exact absurd rfl (own position)
        | notices => exact ⟨_, rfl, .nothing rfl rfl rfl⟩
        | wake pipe => exact ⟨_, rfl, .nothing rfl rfl rfl⟩
    obtain ⟨served, same, account⟩ := quiet
    rw [same] at front
    obtain ⟨rfl, done⟩ := front
    cases done
    obtain ⟨rfl, rfl, behind⟩ := ih others further
    exact ⟨rfl, rfl, account.append behind⟩

/-- All that is ready is served: every open source as it is told, whatever becomes of the others.
Attempts are made at the served position only, so the sources behind it are where they were. -/
theorem account_of_serve {listed : List Place} {others : List Slot} {told : List Readiness}
    (foreign : ∀ slot ∈ others, ∀ position, slot ≠ .source position)
    (ordered : listed.Pairwise fun one other => one.position < other.position)
    (found : ∀ place ∈ listed, progress.sources[place.position]? = some place.source ∧
      place.source.device = some place.device)
    (shows : (serve progress ((listed.map (fun place => Slot.source place.position) ++
      others).zip told)).Shows PollMark.view marks (after, none)) :
    ∃ fetches attempts,
      Account (tell listed told) progress marks fetches attempts after := by
  induction listed generalizing progress told marks with
  | nil =>
    have rest : ∀ slot ∈ others.zip told, ∀ position, slot.1 ≠ .source position :=
      fun slot member => foreign slot.1 (List.of_mem_zip member).1
    obtain ⟨rfl, _, account⟩ := account_of_others rest shows
    exact ⟨[], [], account⟩
  | cons place rest ih =>
    cases told with
    | nil =>
      rw [List.zip_nil_right] at shows
      obtain ⟨rfl, done⟩ := shows
      cases done
      exact ⟨[], [], account_of_silence _ _⟩
    | cons readiness told =>
      obtain ⟨⟨middle, refusal⟩, _, _, rfl, front, further⟩ := Routine.shows_bind.mp shows
      obtain ⟨here, behind⟩ := List.forall_mem_cons.mp found
      obtain ⟨before, ordered⟩ := List.pairwise_cons.mp ordered
      obtain ⟨fetches, attempts, own⟩ := account_of_serveSource here.1 here.2 front
      cases refusal with
      | some error =>
        obtain ⟨_, done⟩ := further
        cases done
      | none =>
        have still : ∀ place ∈ rest, middle.sources[place.position]? = some place.source ∧
            place.source.device = some place.device := by
          intro other member
          have apart : ∀ attempt ∈ attempts, attempt.position ≠ other.position := by
            intro attempt made
            obtain ⟨served, isServed, _, position⟩ := own.served_of_attempt made
            rw [← position, List.mem_singleton.mp isServed]
            exact Nat.ne_of_lt (before other member)
          rw [own.made.kept apart]
          exact behind other member
        obtain ⟨gained, more, later⟩ := ih ordered still further
        exact ⟨fetches ++ gained, attempts ++ more, own.append later⟩

end Monitor

end Keyhold
