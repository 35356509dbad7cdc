import Keyhold.Input.Monitor
import Keyhold.Proofs.System.Marks

/-!
# Rounds of polling

A round of the monitor has two halves: `prepare` tries what nothing watches for, and `waitOn`
waits and serves what is ready. Neither changes what a source was set up with, its path, whether
it is waited for, and its watch; only its device and its last attempt come and go
(`setup_of_poll`). `Goes` is a monitor that was started in some surroundings and has gone
through rounds that did not fail.
-/

namespace Keyhold

open Keyhold.System

namespace Source

variable {source opened : Source} {failure : Option InputError}

/-- What a source is set up with, once and for all. -/
def setup (source : Source) : Path × Bool × Option WatchId :=
  (source.path, source.waits, source.watch)

/-- An attempt leaves the set-up of its source as it is. -/
theorem setup_of_tryOpen (tries : source.tryOpen.Yields (opened, failure)) :
    opened.setup = source.setup := by
  obtain ⟨now, answer, further⟩ := tries
  cases answer with
  | ok device =>
    obtain ⟨_, done⟩ := further
    cases done
    rfl
  | error cause =>
    cases further
    rfl

/-- A quiet attempt is an attempt and a mention of its failure. -/
theorem tryOpenQuietly_eq (source : Source) :
    source.tryOpenQuietly = source.tryOpen >>= fun tried =>
      Routine.reportAll (tried.2.toList.map fun error => .debug error.message) >>= fun _ =>
        pure tried.1 := by
  rw [tryOpenQuietly]
  congr 1
  funext tried
  obtain ⟨tried, failure⟩ := tried
  cases failure <;> rfl

/-- What is asked to let go of a lost device. -/
def letGo (source : Source) : Routine Unit :=
  match source.device with
  | some handle => Routine.request (.closeDevice handle)
  | none => pure ()

/-- What follows the attempt to open a lost source again. -/
def settleLost (source : Source) : Option InputError → Routine (Source × Option InputError)
  | none => pure (source, none)
  | some error =>
    if source.waits then do
      Routine.report (waitingMessage error)
      pure (source, none)
    else do
      Routine.report (.error error.message)
      pure (source, some (.disconnected source.path))

/-- A lost source is let go and tried, and the attempt decides what becomes of it. -/
theorem reopenLost_eq (source : Source) :
    source.reopenLost =
      Routine.report (.warning ("got HUP/ERR on " ++ source.path.text ++ ". Trying to reopen."))
        >>= fun _ => source.letGo >>= fun _ =>
          { source with device := none }.tryOpen >>= fun tried => tried.1.settleLost tried.2 := by
  rw [reopenLost, letGo]
  congr 1
  funext _
  cases source.device <;> rfl

/-- A quiet attempt leaves the set-up of its source as it is. -/
theorem setup_of_tryOpenQuietly (tries : source.tryOpenQuietly.Yields opened) :
    opened.setup = source.setup := by
  rw [tryOpenQuietly_eq] at tries
  obtain ⟨⟨tried, failure⟩, front, further⟩ := Routine.yields_bind.mp tries
  obtain ⟨_, _, done⟩ := Routine.yields_bind.mp further
  cases done
  exact setup_of_tryOpen front

/-- What follows an attempt at a lost source leaves the source as the attempt left it. -/
theorem eq_of_settleLost {refusal : Option InputError}
    (settles : (source.settleLost refusal).Yields (opened, failure)) : opened = source := by
  cases refusal with
  | none =>
    cases settles
    rfl
  | some error =>
    rw [settleLost] at settles
    split at settles
    all_goals
      obtain ⟨_, _, done⟩ := Routine.yields_bind.mp settles
      cases done
      rfl

/-- A lost source keeps its set-up whether it opens again or not. -/
theorem setup_of_reopenLost (reopens : source.reopenLost.Yields (opened, failure)) :
    opened.setup = source.setup := by
  rw [reopenLost_eq] at reopens
  obtain ⟨_, _, further⟩ := Routine.yields_bind.mp reopens
  obtain ⟨_, _, further⟩ := Routine.yields_bind.mp further
  obtain ⟨⟨tried, refusal⟩, front, further⟩ := Routine.yields_bind.mp further
  rw [eq_of_settleLost further]
  exact (setup_of_tryOpen front).trans rfl

/-! ## What a source asks for -/

/-- The requests that the search for a source leads to. -/
def isSought : Request → Bool
  | .clock | .log _ | .openDevice _ | .watch _ => true
  | _ => false

/-- The requests that single sources lead to. -/
def isAsked : Request → Bool
  | .wallClock | .closeDevice _ | .readDevice _ => true
  | request => isSought request

/-- What the search for a source asks for, single sources ask for. -/
theorem isAsked_of_isSought (request : Request) (sought : isSought request = true) :
    isAsked request = true := by
  cases request <;> first | rfl | exact sought

/-- An attempt asks only what the search for a source asks for. -/
theorem asks_tryOpen (source : Source) : source.tryOpen.Asks (isSought ·) := by
  refine ⟨rfl, fun now => ⟨rfl, fun answer => ?_⟩⟩
  cases answer with
  | ok device => exact ⟨rfl, fun _ => trivial⟩
  | error cause => trivial

/-- A quiet attempt asks only what the search for a source asks for. -/
theorem asks_tryOpenQuietly (source : Source) : source.tryOpenQuietly.Asks (isSought ·) := by
  rw [tryOpenQuietly_eq]
  refine Routine.asks_bind (asks_tryOpen source) fun tried => ?_
  exact Routine.asks_bind (Routine.asks_reportAll (fun _ => rfl) _) fun _ => trivial

/-- Watching a directory asks only what the search for a source asks for. -/
theorem asks_watchDirectory (source : Source) : source.watchDirectory.Asks (isSought ·) := by
  refine ⟨rfl, fun answer => ?_⟩
  cases answer with
  | ok watch => trivial
  | error cause => exact ⟨rfl, fun _ => trivial⟩

/-- Letting go of a lost device asks only what single sources ask for. -/
theorem asks_letGo (source : Source) : source.letGo.Asks (isAsked ·) := by
  rw [letGo]
  split
  · exact ⟨rfl, fun _ => trivial⟩
  · trivial

/-- Settling a lost source asks only what single sources ask for. -/
theorem asks_settleLost (source : Source) (failure : Option InputError) :
    (source.settleLost failure).Asks (isAsked ·) := by
  cases failure with
  | none => trivial
  | some error =>
    rw [settleLost]
    split <;> exact ⟨rfl, fun _ => trivial⟩

/-- Opening a lost source again asks only what single sources ask for. -/
theorem asks_reopenLost (source : Source) : source.reopenLost.Asks (isAsked ·) := by
  rw [reopenLost_eq]
  refine Routine.asks_bind (Routine.asks_request rfl) fun _ => ?_
  refine Routine.asks_bind (asks_letGo source) fun _ => ?_
  exact Routine.asks_bind ((asks_tryOpen _).mono isAsked_of_isSought) fun tried =>
    asks_settleLost _ _

/-- Reading a source asks only what single sources ask for. -/
theorem asks_read (source : Source) : source.read.Asks (isAsked ·) := by
  rw [read]
  split
  · trivial
  · refine Routine.asks_bind (Routine.asks_request rfl) fun answer => ?_
    cases answer with
    | ok reports => exact ⟨rfl, fun _ => ⟨rfl, fun _ => trivial⟩⟩
    | error cause =>
      simp only
      split
      · trivial
      · exact ⟨rfl, fun _ => trivial⟩

end Source

namespace Monitor

variable {monitor next : Monitor} {sources others : List Source} {progress after : Progress}
  {failure : Option InputError}

/-- The first half of a round: the missing sources whose turn has come are tried. -/
def prepare (monitor : Monitor) : Routine Monitor := do
  let now ← Routine.request .clock
  let sources ← retrySources now monitor.sources
  pure { monitor with sources := sources }

/-- What is done once a wait has told which descriptors are ready. -/
def serveReady (monitor : Monitor) (readiness : List Readiness) :
    Routine (Monitor × Except InputError Outcome) := do
  let (progress, failure) ←
    serveAll monitor.sources ((monitor.slots.map (·.1)).zip readiness)
  let monitor := { monitor with sources := progress.sources }
  match failure with
  | some error => pure (monitor, .error error)
  | none => pure (monitor, .ok progress.outcome)

/-- What is done with the answer to a wait. -/
def settle (monitor : Monitor) :
    Except OsError (List Readiness) → Routine (Monitor × Except InputError Outcome)
  | .error cause =>
    if cause = .interrupted ∨ cause = .wouldBlock then pure (monitor, .ok .nothing)
    else pure (monitor, .error (.failed cause))
  | .ok readiness => monitor.serveReady readiness

/-- The descriptors that a monitor waits for. -/
def descriptors (monitor : Monitor) : List Descriptor := monitor.slots.map (·.2)

/-- The second half of a round: what is ready after a wait is served. -/
def waitOn (monitor : Monitor) (timeout : Int) : Routine (Monitor × Except InputError Outcome) :=
  Routine.request (.poll monitor.descriptors (cappedTimeout monitor.sources timeout)) >>=
    monitor.settle

/-- A round is its two halves. -/
theorem poll_eq (monitor : Monitor) (timeout : Int) :
    monitor.poll timeout = monitor.prepare >>= fun ready => ready.waitOn timeout := by
  simp only [poll, prepare, Routine.bind_assoc, Routine.pure_eq, Routine.bind_done]
  congr 1
  funext now
  congr 1
  funext sources
  simp only [waitOn, descriptors]
  congr 1
  funext answer
  cases answer <;> rfl

/-- Deals with sources one after another. -/
def visit (each : Source → Routine Source) : List Source → Routine (List Source)
  | [] => pure []
  | source :: rest => do
    let visited ← each source
    let others ← visit each rest
    pure (visited :: others)

/-- What a round does with a missing source before it waits. -/
def retry (now : Instant) (source : Source) : Routine Source :=
  if isRetryDue now source then source.tryOpenQuietly else pure source

/-- Retrying sources deals with them one after another. -/
theorem retrySources_eq (now : Instant) (sources : List Source) :
    retrySources now sources = visit (retry now) sources := by
  induction sources with
  | nil => rfl
  | cons source rest ih =>
    rw [retrySources, visit, retry, ih]
    split <;> rfl

/-- What becomes of a missing source that notices may be about. -/
def answerNotices (notices : List Notice) (source : Source) : Routine Source :=
  if source.isMissing && isNoticed notices source then do
    Routine.report (.debug (source.path.text ++ " appeared, reopening"))
    source.tryOpenQuietly
  else pure source

/-- Answering notices deals with the sources one after another. -/
theorem reopenNoticed_eq (notices : List Notice) (sources : List Source) :
    reopenNoticed notices sources = visit (answerNotices notices) sources := by
  induction sources with
  | nil => rfl
  | cons source rest ih =>
    rw [reopenNoticed, visit, answerNotices, ih]
    split
    · simp only [Routine.bind_assoc]
    · rfl

/-- What starting does with one source: its directory is watched if it is waited for, and then it
is tried. -/
def openSource (watching : Bool) (source : Source) : Routine (Source × Option InputError) :=
  (if watching && source.waits then source.watchDirectory else pure source) >>= Source.tryOpen

/-- What the attempt to open one source means for the others. -/
def goOn (watching : Bool) (rest : List Source) (source : Source) :
    Option InputError → Routine (Except InputError (List Source))
  | none => openSources watching rest >>= openSources.settle source
  | some error =>
    if source.waits then do
      Routine.report (Source.waitingMessage error)
      openSources watching rest >>= openSources.settle source
    else pure (.error error)

/-- Opening sources tries the first one, and the attempt decides whether the others follow. -/
theorem openSources_cons (watching : Bool) (source : Source) (rest : List Source) :
    openSources watching (source :: rest) =
      openSource watching source >>= fun tried => goOn watching rest tried.1 tried.2 := by
  rw [openSources, openSource]
  split
  · simp only [Routine.bind_assoc]
    rfl
  · rfl

/-- Opens all that a monitor is started with. -/
def openAll (required waited : List Path) (watching : Bool) :
    Routine (Except InputError Monitor) :=
  openSources watching (sourcesOf required waited) >>= fun opened =>
    pure (opened.map fun sources => ⟨sources, [], watching⟩)

/-- A start with inputs prepares to watch directories if inputs are waited for, and then opens all
of them. -/
theorem start_eq (required waited : List Path) :
    start required waited =
      if required.isEmpty && waited.isEmpty then pure (.error .noInputs)
      else (if waited.isEmpty then pure false else startWatching) >>= openAll required waited := by
  rw [start]
  split
  · rfl
  · cases waited.isEmpty with
    | true =>
      change openSources _ _ >>= _ = openAll required waited false
      rw [openAll]
      congr 1
      funext opened
      cases opened <;> rfl
    | false =>
      change startWatching >>= _ = startWatching >>= openAll required waited
      congr 1
      funext watching
      change openSources _ _ >>= _ = openAll required waited watching
      rw [openAll]
      congr 1
      funext opened
      cases opened <;> rfl

/-! ## What single sources ask for -/

/-- Dealing with sources one after another asks only what dealing with one asks for. -/
theorem asks_visit {allowed : Request → Prop} {each : Source → Routine Source}
    (asks : ∀ source, (each source).Asks allowed) (sources : List Source) :
    (visit each sources).Asks allowed := by
  induction sources with
  | nil => trivial
  | cons source rest ih =>
    exact Routine.asks_bind (asks source) fun _ => Routine.asks_bind ih fun _ => trivial

/-- What a round does with a missing source before it waits is part of the search for it. -/
theorem asks_retry (now : Instant) (source : Source) :
    (retry now source).Asks (Source.isSought ·) := by
  rw [retry]
  split
  · exact Source.asks_tryOpenQuietly source
  · trivial

/-- What notices have done with a source is part of the search for it. -/
theorem asks_answerNotices (notices : List Notice) (source : Source) :
    (answerNotices notices source).Asks (Source.isSought ·) := by
  rw [answerNotices]
  split
  · exact ⟨rfl, fun _ => Source.asks_tryOpenQuietly source⟩
  · trivial

/-- The first half of a round only searches for sources. -/
theorem asks_prepare (monitor : Monitor) : monitor.prepare.Asks (Source.isSought ·) := by
  rw [prepare]
  refine Routine.asks_bind (Routine.asks_request rfl) fun now => ?_
  rw [retrySources_eq]
  exact Routine.asks_bind (asks_visit (asks_retry now) monitor.sources) fun _ => trivial

/-- Before the sources are opened, directories may be prepared to be watched. -/
theorem asks_prelude {allowed : Request → Prop} (notices : allowed .startNotices)
    (logs : ∀ message, allowed (.log message)) (waited : List Path) :
    ((if waited.isEmpty then pure false else startWatching) : Routine Bool).Asks allowed := by
  split
  · trivial
  · refine ⟨notices, fun answer => ?_⟩
    cases answer with
    | ok _ => trivial
    | error cause => exact ⟨logs _, fun _ => trivial⟩

/-- What starting does with one source is part of the search for it. -/
theorem asks_openSource (watching : Bool) (source : Source) :
    (openSource watching source).Asks (Source.isSought ·) := by
  rw [openSource]
  refine Routine.asks_bind ?_ Source.asks_tryOpen
  split
  · exact Source.asks_watchDirectory source
  · trivial

/-- Opening sources only searches for them. -/
theorem asks_openSources (watching : Bool) (sources : List Source) :
    (openSources watching sources).Asks (Source.isSought ·) := by
  induction sources with
  | nil => trivial
  | cons source rest ih =>
    rw [openSources_cons]
    refine Routine.asks_bind (asks_openSource watching source) fun tried => ?_
    have further : (openSources watching rest >>= openSources.settle tried.1).Asks
        (Source.isSought ·) := Routine.asks_bind ih fun _ => trivial
    rw [goOn.eq_def]
    split
    · exact further
    · split
      · exact ⟨rfl, fun _ => further⟩
      · trivial

/-- Serving one descriptor asks only what single sources ask for. -/
theorem asks_serveSlot (progress : Progress) (slot : Slot) (readiness : Readiness) :
    (serveSlot progress slot readiness).Asks (Source.isAsked ·) := by
  have lost (progress : Progress) (position : Nat) (source : Source) :
      (serveLost progress position source).Asks (Source.isAsked ·) :=
    Routine.asks_bind (Source.asks_reopenLost source) fun _ => trivial
  simp only [serveSlot]
  split
  · trivial
  · cases slot with
    | wake pipe => trivial
    | notices => trivial
    | source position =>
      simp only [serveSource]
      split
      · trivial
      · split
        · exact lost _ _ _
        · refine Routine.asks_bind (Source.asks_read _) fun reading => ?_
          cases reading with
          | events events => trivial
          | broken => exact lost _ _ _

/-- Serving the descriptors that are ready asks only what single sources ask for. -/
theorem asks_serve (progress : Progress) (ready : List (Slot × Readiness)) :
    (serve progress ready).Asks (Source.isAsked ·) := by
  induction ready generalizing progress with
  | nil => trivial
  | cons first rest ih =>
    refine Routine.asks_bind (asks_serveSlot progress first.1 first.2) fun served => ?_
    obtain ⟨served, failure⟩ := served
    cases failure with
    | none => exact ih served
    | some error => trivial

/-- The requests that serving what is ready leads to. -/
def isServing : Request → Bool
  | .readNotices => true
  | request => Source.isAsked request

/-- What single sources ask for is asked while a wait is served. -/
theorem isServing_of_isAsked (request : Request) (asked : Source.isAsked request = true) :
    isServing request = true := by
  cases request <;> first | rfl | exact asked

/-- Taking notices only reads them. -/
theorem asks_takeNotices {allowed : Request → Prop} (reads : allowed .readNotices)
    (taken : List Notice) (limit : Nat) : (takeNotices taken limit).Asks allowed := by
  induction limit generalizing taken with
  | zero => trivial
  | succ limit ih =>
    refine Routine.asks_bind (Routine.asks_request reads) fun answer => ?_
    rcases answer with cause | _ | ⟨notice, others⟩
    · dsimp only
      split <;> trivial
    · trivial
    · exact ih _

/-- Taking notices leaves no marks where reads of them leave none. -/
theorem marks_of_takeNotices {μ : Type} {view : View μ} {marks : List μ} {taken : List Notice}
    {limit : Nat} {result : Except InputError (List Notice)}
    (ignored : ∀ answer, view .readNotices answer = none)
    (shows : (takeNotices taken limit).Shows view marks result) : marks = [] := by
  have asks : (takeNotices taken limit).Asks fun request => request = .readNotices :=
    asks_takeNotices (by rfl) taken limit
  refine Routine.marks_of_asks asks ?_ shows
  rintro request rfl
  exact ignored

/-- Taking notices fails only as the system does. -/
theorem failed_of_takeNotices {taken : List Notice} {limit : Nat} {error : InputError}
    (takes : (takeNotices taken limit).Yields (.error error)) : ∃ cause, error = .failed cause := by
  induction limit generalizing taken with
  | zero => cases takes
  | succ limit ih =>
    obtain ⟨answer, _, further⟩ := Routine.yields_bind.mp takes
    rcases answer with cause | _ | ⟨notice, others⟩
    · dsimp only at further
      split at further
      · cases further
      · cases further
        exact ⟨cause, rfl⟩
    · cases further
    · exact ih further

/-- Serving notices asks only what is asked while a wait is served. -/
theorem asks_serveNotices (progress : Progress) :
    (serveNotices progress).Asks (isServing ·) := by
  refine Routine.asks_bind (asks_takeNotices (by rfl) _ _) fun answer => ?_
  cases answer with
  | error error => trivial
  | ok notices =>
    have reopens : (reopenNoticed notices progress.sources).Asks (isServing ·) := by
      rw [reopenNoticed_eq]
      exact (asks_visit (asks_answerNotices notices) _).mono fun request sought =>
        isServing_of_isAsked request (Source.isAsked_of_isSought request sought)
    exact Routine.asks_bind reopens fun _ => trivial

/-- All that follows the wait of a round is asked while it is served. -/
theorem asks_settle (monitor : Monitor) (answer : Except OsError (List Readiness)) :
    (monitor.settle answer).Asks (isServing ·) := by
  cases answer with
  | error cause =>
    rw [settle]
    split <;> trivial
  | ok readiness =>
    have serves (ready : List (Slot × Readiness)) :
        (serveAll monitor.sources ready).Asks (isServing ·) := by
      refine Routine.asks_bind ((asks_serve _ ready).mono isServing_of_isAsked) fun served => ?_
      obtain ⟨progress, failure⟩ := served
      cases failure with
      | some error => trivial
      | none =>
        dsimp only
        split
        · exact asks_serveNotices progress
        · trivial
    refine Routine.asks_bind (serves _) fun served => ?_
    obtain ⟨progress, failure⟩ := served
    cases failure <;> trivial

/-- What every read keeps, beside the notices taken so far, is kept while notices are taken. -/
theorem ensures_takeNotices {σ : Type} {surroundings : Surroundings σ}
    {holds : List Notice → σ → Prop} (stable : ∀ taken, surroundings.Stable (holds taken))
    (kept : ∀ taken state answer next, holds taken state →
      surroundings.Answers .readNotices state answer next →
      holds (taken ++ answer.toOption.getD []) next)
    (taken : List Notice) (limit : Nat) :
    surroundings.Ensures (holds taken) (takeNotices taken limit) fun result state =>
      ∃ all, holds all state ∧ ∀ notices, result = .ok notices → notices = all := by
  have done (taken : List Notice) (result : Except InputError (List Notice))
      (same : ∀ notices, result = .ok notices → notices = taken) :
      surroundings.Ensures (holds taken) (.done result) fun result state =>
        ∃ all, holds all state ∧ ∀ notices, result = .ok notices → notices = all :=
    Surroundings.ensures_done (stable taken) fun _ own => ⟨taken, own, same⟩
  induction limit generalizing taken with
  | zero => exact done taken _ fun _ same => (Except.ok.inj same).symm
  | succ limit ih =>
    refine Surroundings.ensures_ask (stable taken) (kept taken) fun answer => ?_
    rcases answer with cause | _ | ⟨notice, others⟩
    · have same : taken ++ (Except.error cause : Except OsError (List Notice)).toOption.getD [] =
          taken := List.append_nil taken
      rw [same]
      dsimp only [Routine.bind]
      split
      · exact done taken _ fun _ same => (Except.ok.inj same).symm
      · exact done taken _ fun _ failed => nomatch failed
    · have same : taken ++ (Except.ok [] : Except OsError (List Notice)).toOption.getD [] =
          taken := List.append_nil taken
      rw [same]
      exact done taken _ fun _ same => (Except.ok.inj same).symm
    · exact ih (taken ++ notice :: others)

/-! ## What a round leaves alone -/

/-- Dealing with sources keeps their set-ups if dealing with one does. -/
theorem setup_of_visit {each : Source → Routine Source}
    (keeps : ∀ source visited, (each source).Yields visited → visited.setup = source.setup)
    (visits : (visit each sources).Yields others) :
    others.map Source.setup = sources.map Source.setup := by
  induction sources generalizing others with
  | nil =>
    cases visits
    rfl
  | cons source rest ih =>
    obtain ⟨visited, front, further⟩ := Routine.yields_bind.mp visits
    obtain ⟨remaining, back, done⟩ := Routine.yields_bind.mp further
    cases done
    rw [List.map_cons, List.map_cons, keeps source visited front, ih back]

/-- A retry keeps the set-up of its source. -/
theorem setup_of_retry {now : Instant} {source retried : Source}
    (retries : (retry now source).Yields retried) : retried.setup = source.setup := by
  rw [retry] at retries
  split at retries
  · exact Source.setup_of_tryOpenQuietly retries
  · cases retries
    rfl

/-- Notices keep the set-up of a source. -/
theorem setup_of_answerNotices {notices : List Notice} {source answered : Source}
    (answers : (answerNotices notices source).Yields answered) :
    answered.setup = source.setup := by
  rw [answerNotices] at answers
  split at answers
  · obtain ⟨_, _, further⟩ := Routine.yields_bind.mp answers
    exact Source.setup_of_tryOpenQuietly further
  · cases answers
    rfl

/-- Putting a source in the place of one that was set up alike changes no setup. -/
theorem setup_set {position : Nat} {source reopened : Source}
    (found : sources[position]? = some source) (same : reopened.setup = source.setup) :
    (sources.set position reopened).map Source.setup = sources.map Source.setup := by
  rw [List.map_set, same]
  refine List.ext_getElem? fun other => ?_
  rw [List.getElem?_set]
  split
  · rename_i here
    have inside : position < (sources.map Source.setup).length := by
      rw [List.length_map]
      exact (List.getElem?_eq_some_iff.mp found).1
    rw [if_pos inside, ← here, List.getElem?_map, found, Option.map_some]
  · rfl

/-- Serving a slot changes no more than the source that the slot is about, when that was lost. -/
theorem sources_of_serveSlot {slot : Slot} {readiness : Readiness}
    (serves : (serveSlot progress slot readiness).Yields (after, failure)) :
    after.sources = progress.sources ∨
      ∃ position source reopened, slot = .source position ∧
        progress.sources[position]? = some source ∧ source.reopenLost.Yields (reopened, failure) ∧
        after.sources = progress.sources.set position reopened := by
  simp only [serveSlot] at serves
  split at serves
  · cases serves
    exact .inl rfl
  · cases slot with
    | wake pipe =>
      cases serves
      exact .inl rfl
    | notices =>
      cases serves
      exact .inl rfl
    | source position =>
      simp only [serveSource] at serves
      cases found : progress.sources[position]? with
      | none =>
        rw [found] at serves
        cases serves
        exact .inl rfl
      | some source =>
        have lost (outcome : Outcome)
            (serves : (serveLost { progress with outcome := outcome } position source).Yields
              (after, failure)) :
            ∃ reopened, source.reopenLost.Yields (reopened, failure) ∧
              after.sources = progress.sources.set position reopened := by
          obtain ⟨⟨reopened, refusal⟩, reopens, done⟩ := Routine.yields_bind.mp serves
          cases done
          exact ⟨reopened, reopens, rfl⟩
        rw [found] at serves
        simp only at serves
        split at serves
        · obtain ⟨reopened, reopens, same⟩ := lost _ serves
          exact .inr ⟨position, source, reopened, rfl, found, reopens, same⟩
        · obtain ⟨reading, _, further⟩ := Routine.yields_bind.mp serves
          cases reading with
          | events events =>
            cases further
            exact .inl rfl
          | broken =>
            obtain ⟨reopened, reopens, same⟩ := lost _ further
            exact .inr ⟨position, source, reopened, rfl, found, reopens, same⟩

/-- Serving one descriptor keeps the set-ups of all sources. -/
theorem setup_of_serveSlot {slot : Slot} {readiness : Readiness}
    (serves : (serveSlot progress slot readiness).Yields (after, failure)) :
    after.sources.map Source.setup = progress.sources.map Source.setup := by
  rcases sources_of_serveSlot serves with same |
    ⟨position, source, reopened, _, found, reopens, set⟩
  · rw [same]
  · rw [set]
    exact setup_set found (Source.setup_of_reopenLost reopens)

/-- Serving the descriptors that are ready keeps the set-ups of all sources. -/
theorem setup_of_serve {ready : List (Slot × Readiness)}
    (serves : (serve progress ready).Yields (after, failure)) :
    after.sources.map Source.setup = progress.sources.map Source.setup := by
  induction ready generalizing progress with
  | nil =>
    cases serves
    rfl
  | cons first rest ih =>
    obtain ⟨⟨middle, refusal⟩, front, further⟩ := Routine.yields_bind.mp serves
    have same := setup_of_serveSlot front
    cases refusal with
    | none => exact (ih further).trans same
    | some error =>
      cases further
      exact same

/-- Serving a wait keeps the set-ups of all sources. -/
theorem setup_of_serveAll {ready : List (Slot × Readiness)}
    (serves : (serveAll sources ready).Yields (after, failure)) :
    after.sources.map Source.setup = sources.map Source.setup := by
  obtain ⟨⟨middle, refusal⟩, front, further⟩ := Routine.yields_bind.mp serves
  have same : middle.sources.map Source.setup = sources.map Source.setup := setup_of_serve front
  cases refusal with
  | some error =>
    cases further
    exact same
  | none =>
    simp only at further
    split at further
    · obtain ⟨answer, _, further⟩ := Routine.yields_bind.mp further
      cases answer with
      | error error =>
        cases further
        exact same
      | ok notices =>
        obtain ⟨reopened, back, done⟩ := Routine.yields_bind.mp further
        rw [reopenNoticed_eq] at back
        cases done
        exact (setup_of_visit (fun _ _ => setup_of_answerNotices) back).trans same
    · cases further
      exact same

/-- The first half of a round only tries sources. -/
theorem setup_of_prepare (prepares : monitor.prepare.Yields next) :
    next.sources.map Source.setup = monitor.sources.map Source.setup ∧
      next.watching = monitor.watching ∧ next.wakes = monitor.wakes := by
  obtain ⟨now, _, further⟩ := Routine.yields_bind.mp prepares
  obtain ⟨retried, retries, done⟩ := Routine.yields_bind.mp further
  rw [retrySources_eq] at retries
  cases done
  exact ⟨setup_of_visit (fun _ _ => setup_of_retry) retries, rfl, rfl⟩

/-- A round changes neither what the sources are set up with nor what else is waited for. -/
theorem setup_of_poll {timeout : Int} {result : Except InputError Outcome}
    (polls : (monitor.poll timeout).Yields (next, result)) :
    next.sources.map Source.setup = monitor.sources.map Source.setup ∧
      next.watching = monitor.watching ∧ next.wakes = monitor.wakes := by
  rw [poll_eq] at polls
  obtain ⟨ready, front, back⟩ := Routine.yields_bind.mp polls
  obtain ⟨answer, _, further⟩ := Routine.yields_bind.mp back
  obtain ⟨same, watching, wakes⟩ := setup_of_prepare front
  cases answer with
  | error cause =>
    rw [settle] at further
    split at further
    all_goals
      cases further
      exact ⟨same, watching, wakes⟩
  | ok readiness =>
    obtain ⟨⟨served, refusal⟩, serves, done⟩ := Routine.yields_bind.mp further
    have kept := (setup_of_serveAll serves).trans same
    cases refusal with
    | none =>
      cases done
      exact ⟨kept, watching, wakes⟩
    | some error =>
      cases done
      exact ⟨kept, watching, wakes⟩

/-- A round of a monitor in some surroundings. -/
def Round {σ : Type} (surroundings : Surroundings σ) (before after : Monitor × σ) : Prop :=
  ∃ timeout result,
    surroundings.Leads (before.1.poll timeout) before.2 (after.1, result) after.2

/-- A source that a round leaves behind is set up like one from before the round. -/
theorem exists_of_setup {source : Source}
    (same : others.map Source.setup = sources.map Source.setup) (member : source ∈ others) :
    ∃ before ∈ sources, before.setup = source.setup := by
  have mapped : source.setup ∈ others.map Source.setup := List.mem_map_of_mem member
  rw [same] at mapped
  exact List.mem_map.mp mapped

/-- Before they are opened sources have no watches. -/
theorem unwatched_of_sourcesOf {required waited : List Path} {source : Source}
    (member : source ∈ sourcesOf required waited) : source.watch = none := by
  rcases List.mem_append.mp member with inRequired | inWaited
  · obtain ⟨_, _, rfl⟩ := List.mem_map.mp inRequired
    rfl
  · obtain ⟨_, _, rfl⟩ := List.mem_map.mp inWaited
    rfl

/-- What opening each source leaves alone, opening all of them leaves alone. -/
theorem map_of_openSources {γ : Type} {watching : Bool} {opened : List Source} (aspect : Source → γ)
    (keeps : ∀ source tried failure, (openSource watching source).Yields (tried, failure) →
      aspect tried = aspect source)
    (opens : (openSources watching sources).Yields (.ok opened)) :
    opened.map aspect = sources.map aspect := by
  induction sources generalizing opened with
  | nil =>
    cases opens
    rfl
  | cons source rest ih =>
    have settled (tried : Source) (same : aspect tried = aspect source)
        (further : (openSources watching rest >>= openSources.settle tried).Yields (.ok opened)) :
        opened.map aspect = (source :: rest).map aspect := by
      obtain ⟨others, front, done⟩ := Routine.yields_bind.mp further
      cases others with
      | error failure => cases done
      | ok others =>
        cases done
        rw [List.map_cons, List.map_cons, same, ih front]
    rw [openSources_cons] at opens
    obtain ⟨⟨tried, failure⟩, tries, further⟩ := Routine.yields_bind.mp opens
    have same := keeps source tried failure tries
    simp only [goOn.eq_def] at further
    split at further
    · exact settled tried same further
    · split at further
      · obtain ⟨_, _, further⟩ := Routine.yields_bind.mp further
        exact settled tried same further
      · cases further

/-- Opening a source may give it a watch but changes neither its path nor whether it is waited
for. -/
theorem place_of_openSource {watching : Bool} {source tried : Source}
    (opens : (openSource watching source).Yields (tried, failure)) :
    (tried.path, tried.waits) = (source.path, source.waits) := by
  obtain ⟨prepared, prepares, tries⟩ := Routine.yields_bind.mp opens
  have kept : (prepared.path, prepared.waits) = (source.path, source.waits) := by
    split at prepares
    · obtain ⟨answer, further⟩ := prepares
      cases answer with
      | ok watch =>
        cases further
        rfl
      | error cause =>
        obtain ⟨_, done⟩ := further
        cases done
        rfl
    · cases prepares
      rfl
  rw [← kept]
  exact congrArg (fun setup => (setup.1, setup.2.1)) (Source.setup_of_tryOpen tries)

/-- A monitor starts with the sources that were opened, and waits for nothing else. -/
theorem opened_of_start {required waited : List Path}
    (starts : (start required waited).Yields (.ok monitor)) :
    monitor.wakes = [] ∧ (openSources monitor.watching (sourcesOf required waited)).Yields
      (.ok monitor.sources) := by
  rw [start_eq] at starts
  split at starts
  · cases starts
  · obtain ⟨watching, _, further⟩ := Routine.yields_bind.mp starts
    obtain ⟨opened, opens, done⟩ := Routine.yields_bind.mp further
    cases opened with
    | error failure => cases done
    | ok sources =>
      cases done
      exact ⟨rfl, opens⟩

/-- A source that is waited for was named as one when the monitor was started. -/
theorem waited_of_start {required waited : List Path} {source : Source}
    (starts : (start required waited).Yields (.ok monitor)) (member : source ∈ monitor.sources)
    (waits : source.waits = true) : source.path ∈ waited := by
  have same := map_of_openSources (fun source => (source.path, source.waits))
    (fun _ _ _ => place_of_openSource) (opened_of_start starts).2
  have mapped := List.mem_map_of_mem (f := fun source => (source.path, source.waits)) member
  rw [same] at mapped
  obtain ⟨before, listed, place⟩ := List.mem_map.mp mapped
  obtain ⟨path, flag⟩ := Prod.mk.inj place
  rw [waits] at flag
  rw [← path]
  rcases List.mem_append.mp listed with inRequired | inWaited
  · obtain ⟨_, _, rfl⟩ := List.mem_map.mp inRequired
    cases flag
  · obtain ⟨named, inList, rfl⟩ := List.mem_map.mp inWaited
    exact inList

/-! ## Monitors that have gone through rounds -/

/-- A monitor that was started in surroundings and has gone through rounds in which the system did
not fail, and the state that the surroundings have come to. -/
inductive Goes {σ : Type} (surroundings : Surroundings σ) (required waited : List Path)
    (first : σ) : Monitor → σ → Prop where
  /-- The monitor is started. -/
  | start {monitor : Monitor} {last : σ}
      (starts : surroundings.Leads (Monitor.start required waited) first (.ok monitor) last) :
      Goes surroundings required waited first monitor last
  /-- It is to wait for one more pipe. -/
  | addWake {monitor : Monitor} {state : σ} (pipe : WakeId)
      (before : Goes surroundings required waited first monitor state) :
      Goes surroundings required waited first (monitor.addWake pipe) state
  /-- It goes through a round. -/
  | poll {monitor next : Monitor} {result : Except InputError Outcome} {timeout : Int}
      {state last : σ} (unfailed : ∀ cause, result ≠ .error (.failed cause))
      (before : Goes surroundings required waited first monitor state)
      (polls : surroundings.Leads (monitor.poll timeout) state (next, result) last) :
      Goes surroundings required waited first next last

/-- A monitor whose sources have watches waits for notices. -/
def HearsWatches (monitor : Monitor) : Prop :=
  ∀ source ∈ monitor.sources, source.watch.isSome = true → monitor.watching = true

/-- A monitor that starts with a watch on a directory reads notices. -/
theorem hearsWatches_of_start {required waited : List Path}
    (starts : (start required waited).Yields (.ok monitor)) : monitor.HearsWatches := by
  intro source member watched
  cases watching : monitor.watching with
  | true => rfl
  | false =>
    have opens := (opened_of_start starts).2
    rw [watching] at opens
    have keeps (source tried : Source) (failure : Option InputError)
        (tries : (openSource false source).Yields (tried, failure)) :
        tried.setup = source.setup := Source.setup_of_tryOpen tries
    have same := map_of_openSources Source.setup keeps opens
    obtain ⟨before, unopened, alike⟩ := exists_of_setup same member
    have watch : before.watch = source.watch := congrArg (·.2.2) alike
    rw [← watch, unwatched_of_sourcesOf unopened] at watched
    cases watched

/-- What leaves the setups of sources and the wait for notices alone, leaves watches heard. -/
theorem HearsWatches.of_setup (hears : monitor.HearsWatches)
    (same : next.sources.map Source.setup = monitor.sources.map Source.setup)
    (watching : next.watching = monitor.watching) : next.HearsWatches := by
  intro source member watched
  obtain ⟨before, found, alike⟩ := exists_of_setup same member
  have watch : before.watch = source.watch := congrArg (·.2.2) alike
  rw [watching]
  exact hears before found (watch ▸ watched)

/-- A monitor with a watch on a directory reads notices throughout its rounds. -/
theorem Goes.hearsWatches {σ : Type} {surroundings : Surroundings σ} {required waited : List Path}
    {first state : σ} (goes : Goes surroundings required waited first monitor state) :
    monitor.HearsWatches := by
  induction goes with
  | start starts => exact hearsWatches_of_start starts.yields
  | addWake pipe _ ih => exact ih
  | poll _ _ polls ih =>
    obtain ⟨same, watching, _⟩ := setup_of_poll polls.yields
    exact ih.of_setup same watching

/-- Notices are waited for where directories are watched. -/
theorem notices_mem_descriptors (watching : monitor.watching = true) :
    .notices ∈ monitor.descriptors := by
  simp [descriptors, slots, watching]

end Monitor

end Keyhold
