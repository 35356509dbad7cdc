import Keyhold.Proofs.Input.Episode
import Keyhold.Proofs.Run

/-!
# Every ready descriptor is served for its own source

The descriptors of a wait are those of the open sources in their order, then the one of the
notices, then the pipes; missing sources have none. `Delivery.Of` says what a round that ends well
does with what they come back with, in terms of sources and their positions: who is read, who counts
as hung up, who is left alone, which pipes are told of, and where the events come from. Each read
delivers the records that its device hands out, with the readings of the clocks that the marks show
behind it (`Fetch.Delivers`). Over a run of rounds the events of a source are the records of its
device, each once and in the same order (`every_descriptor_served`).
-/

namespace Keyhold

open Keyhold.System

/-- The three ways in which a descriptor comes back, by its event bits. -/
theorem Readiness.ofBits_iff (bits : UInt16) :
    (Readiness.ofBits bits = .idle ↔ bits = 0) ∧
    (Readiness.ofBits bits = .readable ↔ bits &&& Readiness.inputBit ≠ 0) ∧
    (Readiness.ofBits bits = .lost ↔ bits ≠ 0 ∧ bits &&& Readiness.inputBit = 0) := by
  unfold Readiness.ofBits
  by_cases none : bits = 0
  · simp [none]
  · by_cases input : bits &&& Readiness.inputBit = 0 <;> simp [none, input]

/-- The pipes that are found ready. -/
def woken? : Descriptor × Readiness → Option WakeId
  | (_, .idle) => none
  | (.wake pipe, _) => some pipe
  | _ => none

namespace Monitor

/-- What a round that ended well waited for, what it was told, and what it read. -/
structure Delivery where
  /-- The monitor as it waits. -/
  ready : Monitor
  /-- How the descriptors come back, or why they do not. -/
  answer : Except OsError (List Readiness)
  /-- The reads, in order. -/
  fetches : List Fetch

namespace Delivery

/-- What the open sources are told. -/
def told (delivery : Delivery) : List (Place × Readiness) :=
  tell (places 0 delivery.ready.sources) (delivery.answer.toOption.getD [])

/-- The reads of the source at a position. -/
def fetchesAt (position : Nat) (delivery : Delivery) : List Fetch :=
  delivery.fetches.filter (·.place.position == position)

/-- Whether a round served every ready descriptor for its own source, and nothing else. -/
structure Of (delivery : Delivery) (monitor : Monitor) (timeout : Int) (next : Monitor)
    (marks : List PollMark) (outcome : Outcome) : Prop where
  /-- It waits once, for the open sources, the notices and the pipes. -/
  waited : marks.filterMap PollMark.waited? = [(delivery.ready.descriptors,
    cappedTimeout delivery.ready.sources timeout, delivery.answer)]
  descriptors : delivery.ready.descriptors =
    (places 0 delivery.ready.sources).map (fun place => .device place.device) ++
      (if monitor.watching then [.notices] else []) ++ monitor.wakes.map .wake
  /-- Sources that are open are waited for as they are. -/
  opened : ∀ (position : Nat) (source : Source), monitor.sources[position]? = some source →
    source.isMissing = false → delivery.ready.sources[position]? = some source
  /-- Exactly the readable sources are read, each once and in their order. -/
  fetched : delivery.fetches.map Fetch.place = delivery.told.filterMap readable?
  once : (delivery.fetches.map fun fetch => fetch.place.position).Pairwise (· < ·)
  own : ∀ fetch ∈ delivery.fetches,
    delivery.ready.sources[fetch.place.position]? = some fetch.place.source ∧
      fetch.place.source.device = some fetch.place.device
  reads : marks.filterMap PollMark.read? = delivery.fetches.map fun fetch =>
    (fetch.place.device, fetch.answer)
  /-- What is read stands in the marks, with the readings of the clocks behind it. -/
  batches : PollMark.batches marks = delivery.fetches.filterMap Fetch.batch?
  /-- The events are those of the reads, in order. -/
  events : outcome.events = delivery.fetches.flatMap Fetch.events
  /-- The events of a read are the records that its device hands out. -/
  delivers : ∀ fetch ∈ delivery.fetches, fetch.Delivers
  /-- Exactly the sources that are ready without data count as hung up, in their order. -/
  hungUp : outcome.hungUp = delivery.told.filterMap hungUp?
  /-- Idle sources stay as they are, and none of them is closed. -/
  idle : ∀ place, (place, .idle) ∈ delivery.told →
    next.sources[place.position]? = some place.source
  closes : (marks.filterMap PollMark.closed?).Sublist
    ((delivery.told.filterMap ready?).map Place.device)
  /-- The pipes that are ready are told of in the order in which they were added. -/
  woken : outcome.woken =
    (delivery.ready.descriptors.zip (delivery.answer.toOption.getD [])).filterMap woken?

end Delivery

variable {monitor next : Monitor} {outcome : Outcome} {timeout : Int} {episode : Episode}

/-- The descriptors of a wait, in order. -/
theorem descriptors_eq (monitor : Monitor) : monitor.descriptors =
    (places 0 monitor.sources).map (fun place => .device place.device) ++
      (if monitor.watching then [.notices] else []) ++ monitor.wakes.map .wake := by
  rw [descriptors, slots, sourceSlots_eq]
  cases monitor.watching <;> simp [Function.comp_def]

/-- Pipes are told of by their slots as by their descriptors. -/
theorem woken_of_slots (monitor : Monitor) (told : List Readiness) :
    ((monitor.slots.map (·.1)).zip told).flatMap wokenAt =
      (monitor.descriptors.zip told).filterMap woken? := by
  have alike : ∀ slot ∈ monitor.slots, ∀ readiness,
      wokenAt (slot.1, readiness) = (woken? (slot.2, readiness)).toList := by
    intro slot member readiness
    rw [slots, sourceSlots_eq, List.mem_append, List.mem_append] at member
    rcases member with (source | notices) | wake
    · obtain ⟨place, _, rfl⟩ := List.mem_map.mp source
      cases readiness <;> rfl
    · cases watching : monitor.watching
      · simp [watching] at notices
      · obtain rfl : slot = (.notices, .notices) := by simpa [watching] using notices
        cases readiness <;> rfl
    · obtain ⟨pipe, _, rfl⟩ := List.mem_map.mp wake
      cases readiness <;> rfl
  rw [descriptors]
  generalize monitor.slots = slots at alike
  induction slots generalizing told with
  | nil => rfl
  | cons slot rest ih =>
    cases told with
    | nil => rfl
    | cons readiness told =>
      obtain ⟨own, others⟩ := List.forall_mem_cons.mp alike
      rw [List.map_cons, List.map_cons, List.zip_cons_cons, List.zip_cons_cons, List.flatMap_cons,
        List.filterMap_cons, ih told others, own]
      cases woken? (slot.2, readiness) <;> rfl

namespace Episode

/-- A source that is not missing is not tried before the wait. -/
theorem Tells.opened (tells : episode.Tells monitor next outcome) {position : Nat}
    {source : Source} (found : monitor.sources[position]? = some source)
    (present : source.isMissing = false) : episode.ready.sources[position]? = some source := by
  have undue : isRetryDue episode.now source = false := by
    rw [isRetryDue, Source.isUnwatched, present]
    rfl
  rw [tells.prepared.kept (tells.retried.untried found undue), found]

/-- An open source that is idle is never tried. -/
theorem Tells.idle (tells : episode.Tells monitor next outcome) {place : Place}
    (isTold : (place, .idle) ∈ episode.told) :
    next.sources[place.position]? = some place.source := by
  obtain ⟨found, held⟩ := found_of_mem_places (mem_of_told isTold)
  have untouched : ∀ attempt ∈ episode.reopens, attempt.position ≠ place.position := by
    intro attempt made same
    obtain ⟨served, isServed, busy, position⟩ := tells.account.served_of_attempt made
    have one := eq_of_told isServed isTold (position.trans same)
    rw [one] at busy
    exact busy rfl
  have still : episode.progress.sources[place.position]? = some place.source := by
    rw [tells.account.made.kept untouched]
    exact found
  obtain ⟨notices, recalled⟩ := tells.recalled
  have present : (place.source.isMissing && isNoticed notices place.source) = false := by
    rw [Source.isMissing, held]
    rfl
  rw [tells.remade.kept (recalled.untried still present), still]

/-- The sources that are read are open ones, in their order. -/
theorem Tells.fetches_listed (tells : episode.Tells monitor next outcome) :
    (episode.fetches.map Fetch.place).Sublist (places 0 episode.ready.sources) := by
  rw [tells.account.fetched]
  exact filterMap_told_sublist (fun _ _ => eq_of_readable?) _ _

/-- The account of a round says what it delivered. -/
theorem Tells.delivery (tells : episode.Tells monitor next outcome) (timeout : Int) :
    (⟨episode.ready, episode.answer, episode.fetches⟩ : Delivery).Of monitor timeout next
      (episode.trace timeout) outcome where
  waited := by
    obtain ⟨_, recalled⟩ := tells.recalled
    simp [trace, List.filterMap_append, List.filterMap_cons, PollMark.waited?, tells.retried.waits,
      tells.account.waits, recalled.waits]
  descriptors := by rw [descriptors_eq, tells.watching, tells.wakes]
  opened := fun _ _ => tells.opened
  fetched := tells.account.fetched
  once := by
    have ordered := (places_ordered 0 episode.ready.sources).sublist tells.fetches_listed
    have positions := List.pairwise_map.mp ordered
    exact List.pairwise_map.mpr positions
  own := by
    intro fetch member
    exact found_of_mem_places (tells.fetches_listed.subset (List.mem_map_of_mem member))
  reads := by
    obtain ⟨_, recalled⟩ := tells.recalled
    simp [trace, List.filterMap_append, List.filterMap_cons, PollMark.read?, tells.retried.reads,
      tells.account.reads, recalled.reads]
  batches := by
    obtain ⟨_, recalled⟩ := tells.recalled
    have noticed : PollMark.batches episode.noticed = [] := by
      simpa [PollMark.batches] using recalled.batches []
    have served := tells.account.batches episode.noticed
    rw [noticed, List.append_nil] at served
    have waited := tells.retried.batches (.waited episode.ready.descriptors
      (cappedTimeout episode.ready.sources timeout) episode.answer ::
        (episode.served ++ episode.noticed))
    rw [trace]
    exact waited.trans served
  events := by
    rw [tells.collected, tells.account.events]
    rfl
  delivers := tells.account.delivers
  hungUp := by
    rw [tells.collected, tells.account.hungUp]
    rfl
  idle := fun _ => tells.idle
  closes := by
    obtain ⟨_, recalled⟩ := tells.recalled
    have closes : (episode.trace timeout).filterMap PollMark.closed? =
        episode.served.filterMap PollMark.closed? := by
      simp [trace, List.filterMap_append, List.filterMap_cons, PollMark.closed?,
        tells.retried.closes, recalled.closes]
    rw [closes]
    exact tells.account.closes
  woken := by
    rw [tells.woken]
    exact woken_of_slots _ _

end Episode

/-- A round that ends well, as it is seen. -/
def Polls (monitor : Monitor) (timeout : Int) (next : Monitor)
    (seen : List PollMark × Outcome) : Prop :=
  (monitor.poll timeout).Shows PollMark.view seen.1 (next, .ok seen.2)

/-- Every poll that ends well has a delivery. -/
theorem Polls.delivery {seen : List PollMark × Outcome}
    (polls : Polls monitor timeout next seen) :
    ∃ delivery : Delivery, delivery.Of monitor timeout next seen.1 seen.2 := by
  obtain ⟨episode, same, tells⟩ := tells_of_poll polls
  refine ⟨⟨episode.ready, episode.answer, episode.fetches⟩, ?_⟩
  rw [same]
  exact tells.delivery timeout

/-- Reads one after another deliver what they hand out one after another. -/
theorem delivers_flatMap {fetches : List Fetch} (delivers : ∀ fetch ∈ fetches, fetch.Delivers) :
    List.Forall₂ (fun record event => record.1.Carries record.2 event)
      (fetches.flatMap Fetch.records) (fetches.flatMap Fetch.events) := by
  induction fetches with
  | nil => exact .nil
  | cons fetch rest ih =>
    obtain ⟨own, others⟩ := List.forall_mem_cons.mp delivers
    rw [List.flatMap_cons, List.flatMap_cons]
    exact List.rel_append own (ih others)

/-- What rounds one after another read, what they deliver, and at which sources. -/
structure Delivered (moments : List (Moment Monitor Int (List PollMark × Outcome)))
    (deliveries : List Delivery) : Prop where
  /-- Each round serves every ready descriptor for its own source. -/
  rounds : List.Forall₂ (fun moment delivery => Delivery.Of delivery moment.before moment.input
    moment.after moment.output.1 moment.output.2) moments deliveries
  reads : (moments.flatMap fun moment => moment.output.1.filterMap PollMark.read?) =
    (deliveries.flatMap Delivery.fetches).map fun fetch => (fetch.place.device, fetch.answer)
  batches : (moments.flatMap fun moment => PollMark.batches moment.output.1) =
    (deliveries.flatMap Delivery.fetches).filterMap Fetch.batch?
  events : (moments.flatMap fun moment => moment.output.2.events) =
    (deliveries.flatMap Delivery.fetches).flatMap Fetch.events
  /-- The events of the source at a position are the records that its device hands out, each once
  and in order. -/
  sources : ∀ position, List.Forall₂ (fun record event => record.1.Carries record.2 event)
    ((deliveries.flatMap (Delivery.fetchesAt position)).flatMap Fetch.records)
    ((deliveries.flatMap (Delivery.fetchesAt position)).flatMap Fetch.events)

/-- Rounds one after another deliver what their reads hand out. -/
theorem delivered_of_course {last : Monitor} {moments : List (Moment Monitor Int
    (List PollMark × Outcome))} (course : Course Polls monitor moments last) :
    ∃ deliveries, Delivered moments deliveries := by
  induction moments generalizing monitor with
  | nil => exact ⟨[], .nil, rfl, rfl, rfl, fun _ => .nil⟩
  | cons moment rest ih =>
    obtain ⟨rfl, polls, further⟩ := course
    obtain ⟨delivery, own⟩ := polls.delivery
    obtain ⟨deliveries, others⟩ := ih further
    have here (position : Nat) : ∀ fetch ∈ delivery.fetchesAt position, fetch.Delivers :=
      fun fetch member => own.delivers fetch (List.mem_of_mem_filter member)
    refine ⟨delivery :: deliveries, .cons own others.rounds, ?_, ?_, ?_, fun position => ?_⟩
    · rw [List.flatMap_cons, List.flatMap_cons, List.map_append, others.reads, own.reads]
    · rw [List.flatMap_cons, List.flatMap_cons, List.filterMap_append, others.batches, own.batches]
    · rw [List.flatMap_cons, List.flatMap_cons, List.flatMap_append, others.events, own.events]
    · rw [List.flatMap_cons, List.flatMap_append, List.flatMap_append]
      exact List.rel_append (delivers_flatMap (here position)) (others.sources position)

/-- Every ready descriptor is served for its own source. A descriptor is idle without event bits,
readable with the bit of input, and lost with others alone. Whatever sources are missing and
whatever else is waited for, a round that ends well reads exactly the open sources that are
readable, lets exactly those count as hung up that are ready without data, leaves idle ones alone,
and tells of the ready pipes, all in order. Over rounds that end well the events are those that the
devices of the sources hand out, each once and in order, whatever becomes of other sources: of the
same kind, key and value, with their age by the clocks as they are read behind each batch. -/
theorem every_descriptor_served :
    (∀ bits : UInt16,
      (Readiness.ofBits bits = .idle ↔ bits = 0) ∧
      (Readiness.ofBits bits = .readable ↔ bits &&& Readiness.inputBit ≠ 0) ∧
      (Readiness.ofBits bits = .lost ↔ bits ≠ 0 ∧ bits &&& Readiness.inputBit = 0)) ∧
    (∀ monitor timeout next marks outcome, Polls monitor timeout next (marks, outcome) →
      ∃ delivery : Delivery, delivery.Of monitor timeout next marks outcome) ∧
    ∀ monitor moments last, Course Polls monitor moments last →
      ∃ deliveries, Delivered moments deliveries :=
  ⟨Readiness.ofBits_iff, fun _ _ _ _ _ polls => polls.delivery,
    fun _ _ _ course => delivered_of_course course⟩

/-- A host on which the first of three open sources has a record in each round, the second has gone
in the first round and has a record in the next one, the third is idle, and the second of two pipes
is ready. The state counts the rounds. -/
def partly : (request : Request) → Nat → request.Answer × Nat
  | .clock, rounds => (⟨3000000000⟩, rounds)
  | .wallClock, rounds => (⟨7000000000⟩, rounds)
  | .openDevice _, rounds => (.ok ⟨⟨9⟩, none, true⟩, rounds)
  | .poll _ _, rounds =>
    (.ok [.readable, if rounds = 0 then .lost else .readable, .idle, .idle, .idle, .readable],
      rounds + 1)
  | .readDevice device, _ =>
    (.ok [⟨⟨5000000000⟩, Event.keyKind, if device = ⟨9⟩ then 31 else 30, 1⟩], 1)
  | _, rounds => (default, rounds)

/-- Behind a missing source three open ones are served, each as its own descriptor comes back. The
second one has a record once it has been opened again. -/
theorem served_behind_missing :
    let sources : List Source := [⟨⟨"/dev/a"⟩, true, none, some ⟨0⟩, some ⟨0⟩⟩,
      ⟨⟨"/dev/b"⟩, true, some ⟨1⟩, none, none⟩, ⟨⟨"/dev/c"⟩, true, some ⟨2⟩, none, none⟩,
      ⟨⟨"/dev/d"⟩, true, some ⟨3⟩, none, none⟩]
    let monitor : Monitor := ⟨sources, [⟨7⟩, ⟨8⟩], true⟩
    let event (code : UInt16) : Event := ⟨⟨1000000000⟩, Event.keyKind, code, 1⟩
    ∃ middle last one two delivery deliveries, Polls monitor 0 middle one ∧
      Delivery.Of delivery monitor 0 middle one.1 one.2 ∧
      one.2 = ⟨[event 30], [⟨8⟩], [⟨"/dev/c"⟩]⟩ ∧ Polls middle 0 last two ∧
      two.2 = ⟨[event 30, event 31], [⟨8⟩], []⟩ ∧
      Delivered [⟨monitor, 0, middle, one⟩, ⟨middle, 0, last, two⟩] deliveries := by
  intro sources monitor event
  obtain ⟨middle, first⟩ : ∃ middle, ((monitor.poll 0).run partly 0).1 =
      (middle, .ok ⟨[event 30], [⟨8⟩], [⟨"/dev/c"⟩]⟩) ∧
      ∃ last, ((middle.poll 0).run partly 1).1 =
        (last, .ok ⟨[event 30, event 31], [⟨8⟩], []⟩) := ⟨_, rfl, _, rfl⟩
  obtain ⟨begins, last, ends⟩ := first
  have polls : Polls monitor 0 middle (_, _) := begins ▸ Routine.shows_run partly (monitor.poll 0) 0
  have further : Polls middle 0 last (_, _) := ends ▸ Routine.shows_run partly (middle.poll 0) 1
  obtain ⟨delivery, own⟩ := every_descriptor_served.2.1 _ _ _ _ _ polls
  obtain ⟨deliveries, delivered⟩ :=
    every_descriptor_served.2.2 monitor [⟨monitor, 0, middle, _⟩, ⟨middle, 0, last, _⟩] last
      ⟨rfl, polls, rfl, further, rfl⟩
  exact ⟨middle, last, _, _, delivery, deliveries, polls, own, rfl, further, rfl, delivered⟩

end Monitor

end Keyhold
