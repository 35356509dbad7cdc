import Keyhold.Proofs.Input.Directories

/-!
# The return of missing inputs

A missing input with a live watch is tended: either a notice that names its file is on its way,
still queued or just taken, or the input has been tried since its file was last touched. A watch
is set before the first attempt, a lost device is tried before notices are served, and notices
are taken only to try what they name; so every step of starting and polling keeps inputs tended,
whatever changes in between. `reappearance_never_missed` says so for the moment when the monitor
begins to wait.
-/

namespace Keyhold

open Keyhold.System

namespace Source

/-- Whether a notice names the file of a source. -/
def IsNamedBy (source : Source) (notice : Notice) : Prop :=
  source.watch = some notice.watch ∧
    ∃ name, notice.entry = some name ∧ source.path.fileName? = some name

/-- Whether an unread notice names the file of a source. -/
def IsExpected (source : Source) (directories : Directories) : Prop :=
  ∃ notice ∈ directories.notices, source.IsNamedBy notice

/-- Whether the attempt that a source remembers came after the last touch of its file in a
directory. Between the reading of the clock that it remembers and the attempt nothing else was
asked. -/
def IsTriedSince (source : Source) (directories : Directories) (node : Nat) : Prop :=
  ∃ earlier now between later,
    directories.history = earlier ++ .clock now :: between ++ .tried source.path :: later ∧
    source.lastAttempt = some now ∧ (∀ happening ∈ between, happening.isTouch = true) ∧
    ∀ name, source.path.fileName? = some name → .touched (.entry node name) ∉ later

/-- Whether the watch of a source, if it has one, has been set. -/
def IsIssued (source : Source) (directories : Directories) : Prop :=
  ∀ watch, source.watch = some watch → watch.id < directories.watches.length

/-- Whether the return of a source, as long as it is missing and its watch is live, has been
or will be noticed: by one of the notices that have been taken, by one that is queued, or by an
attempt since. -/
structure IsTended (taken : List Notice) (source : Source) (directories : Directories) : Prop where
  issued : source.IsIssued directories
  noticed : source.isMissing = true → ∀ watch node, source.watch = some watch →
    directories.IsLive watch node →
    Monitor.isNoticed taken source = true ∨ source.IsExpected directories ∨
      source.IsTriedSince directories node

end Source

/-- A source is noticed exactly if a notice names it. -/
theorem Monitor.isNoticed_iff {notices : List Notice} {source : Source} :
    Monitor.isNoticed notices source = true ↔ ∃ notice ∈ notices, source.IsNamedBy notice := by
  rw [Monitor.isNoticed, List.any_eq_true]
  refine exists_congr fun notice => and_congr_right fun _ => ?_
  simp only [Bool.and_eq_true, beq_iff_eq, Option.isSome_iff_exists, Source.IsNamedBy]
  grind

namespace Directories

variable {directories next : Directories} {source : Source} {taken : List Notice} {watch : WatchId}
  {node : Nat}

/-- A live watch reports a new entry of its directory under the entry's name. -/
theorem mem_noticesOf (live : directories.IsLive watch node) (name : String) :
    ⟨watch, some name⟩ ∈ Host.Machine.noticesOf directories.watches (.entry node name) := by
  rw [Host.Machine.noticesOf, List.mem_filterMap]
  exact ⟨(⟨node, true⟩, watch.id), List.mem_zipIdx_iff_getElem?.mpr live, by simp⟩

/-- A watch that is live after a touch was so before. -/
theorem isLive_of_touch {touch : Host.Touch} (live : (directories.touch touch).IsLive watch node) :
    directories.IsLive watch node := by
  cases touch with
  | entry directory name => exact live
  | mode changed => exact live
  | gone removed =>
    simp only [IsLive, Directories.touch, Host.Machine.watchesAfter, List.getElem?_map,
      Option.map_eq_some_iff] at live
    obtain ⟨before, found, same⟩ := live
    split at same
    · cases same
    · rw [IsLive, found, same]

/-- A touch of the file of a source is queued; any other leaves the last attempt as recent. -/
theorem noticed_of_touch {touch : Host.Touch} (watched : source.watch = some watch)
    (live : directories.IsLive watch node)
    (noticed : source.IsExpected directories ∨ source.IsTriedSince directories node) :
    source.IsExpected (directories.touch touch) ∨
      source.IsTriedSince (directories.touch touch) node := by
  rcases noticed with ⟨notice, queued, names⟩ | ⟨earlier, now, between, later, history, remembers,
    outside, untouched⟩
  · exact .inl ⟨notice, List.mem_append_left _ queued, names⟩
  · by_cases own : ∃ name, source.path.fileName? = some name ∧ touch = .entry node name
    · obtain ⟨name, file, rfl⟩ := own
      have queued := mem_noticesOf live name
      exact .inl ⟨_, List.mem_append_right _ queued, watched, name, rfl, file⟩
    · refine .inr ⟨earlier, now, between, later ++ [.touched touch], ?_, remembers, outside, ?_⟩
      · simp [Directories.touch, history]
      · intro name file later
        rcases List.mem_append.mp later with before | new
        · exact untouched name file before
        · cases List.mem_singleton.mp new
          exact own ⟨name, file, rfl⟩

/-- Watches that have been set stay set. -/
theorem Changes.issued (changes : Changes directories next) (issued : source.IsIssued directories) :
    source.IsIssued next := by
  intro watch watched
  have set := issued watch watched
  cases changes with
  | renamed named same present => exact same ▸ set
  | touched touch named same present =>
    subst same
    cases touch <;> simpa [Directories.touch, Host.Machine.watchesAfter] using set

/-- Watches that have been set stay set whatever is answered. -/
theorem Answers.issued {request : Request} {answer : request.Answer}
    (quiet : isQuiet request = true) (answers : Answers request directories answer next)
    (issued : source.IsIssued directories) : source.IsIssued next := by
  obtain rfl | ⟨happening, inside, rfl⟩ | ⟨path, directory, names, rfl⟩ := answers.cases quiet
  · exact issued
  · exact issued
  · intro watch watched
    have set := issued watch watched
    simp only [List.length_append, List.length_singleton]
    omega

/-- No change from outside leaves a source untended. -/
theorem Changes.tended (changes : Changes directories next)
    (tended : source.IsTended taken directories) : source.IsTended taken next := by
  refine ⟨changes.issued tended.issued, fun missing watch node watched live => ?_⟩
  cases changes with
  | renamed named same present =>
    subst same
    exact tended.noticed missing watch node watched live
  | touched touch named same present =>
    subst same
    have before := isLive_of_touch live
    rcases tended.noticed missing watch node watched before with inTaken | noticed
    · exact .inl inTaken
    · exact .inr (noticed_of_touch watched before noticed)

/-- No answer leaves a source untended, but notices that are taken have to be served. -/
theorem Answers.tended {request : Request} {answer : request.Answer}
    (quiet : isQuiet request = true) (answers : Answers request directories answer next)
    (tended : source.IsTended taken directories) : source.IsTended taken next := by
  refine ⟨answers.issued quiet tended.issued, fun missing watch node watched live => ?_⟩
  obtain rfl | ⟨happening, inside, rfl⟩ | ⟨path, directory, names, rfl⟩ := answers.cases quiet
  · exact tended.noticed missing watch node watched live
  · rcases tended.noticed missing watch node watched live with inTaken | queued | tried
    · exact .inl inTaken
    · exact .inr (.inl queued)
    · obtain ⟨earlier, now, between, later, history, remembers, outside, untouched⟩ := tried
      refine .inr (.inr ⟨earlier, now, between, later ++ [happening], ?_, remembers, outside, ?_⟩)
      · simp [record, history]
      · intro name file later
        rcases List.mem_append.mp later with before | new
        · exact untouched name file before
        · rw [← List.mem_singleton.mp new] at inside
          cases inside
  · rw [IsLive, List.getElem?_append_left (tended.issued watch watched)] at live
    exact tended.noticed missing watch node watched live

/-- Notices that are read are still at hand. -/
theorem Answers.tended_of_read {answer : Except OsError (List Notice)}
    (answers : Answers .readNotices directories answer next)
    (tended : source.IsTended taken directories) :
    source.IsTended (taken ++ answer.toOption.getD []) next := by
  obtain ⟨rest, front, rfl⟩ := answers.read
  refine ⟨tended.issued, fun missing watch node watched live => ?_⟩
  rcases tended.noticed missing watch node watched live with inTaken | ⟨notice, queued, names⟩ |
    tried
  · obtain ⟨notice, member, names⟩ := Monitor.isNoticed_iff.mp inTaken
    exact .inl (Monitor.isNoticed_iff.mpr ⟨notice, List.mem_append_left _ member, names⟩)
  · rw [front] at queued
    rcases List.mem_append.mp queued with now | later
    · exact .inl (Monitor.isNoticed_iff.mpr ⟨notice, List.mem_append_right _ now, names⟩)
    · exact .inr (.inl ⟨notice, later, names⟩)
  · exact .inr (.inr tried)

/-- Single sources take no notices. -/
theorem isQuiet_of_isAsked (request : Request) (asked : Source.isAsked request = true) :
    isQuiet request = true := by
  cases request <;> first | rfl | cases asked

/-- A routine that single sources lead to leaves no source untended. -/
theorem ensures_tended {α : Type} {routine : Routine α} (asks : routine.Asks (Source.isAsked ·))
    (taken : List Notice) (source : Source) :
    surroundings.Ensures (source.IsTended taken) routine fun _ => source.IsTended taken :=
  Surroundings.ensures_of_asks (fun _ _ => Changes.tended)
    (fun request _ _ _ asked answers =>
      Answers.tended (isQuiet_of_isAsked request asked) answers) asks

/-- The watch of a source stays set behind requests of single sources. -/
theorem ensures_issued {α : Type} {routine : Routine α} (asks : routine.Asks (Source.isAsked ·))
    (source : Source) :
    surroundings.Ensures source.IsIssued routine fun _ => source.IsIssued :=
  Surroundings.ensures_of_asks (fun _ _ => Changes.issued)
    (fun request _ _ _ asked answers =>
      Answers.issued (isQuiet_of_isAsked request asked) answers) asks

/-! ## Attempts -/

/-- Whether the last that was asked is the clock. -/
def JustRead (now : Instant) (directories : Directories) : Prop :=
  ∃ earlier between, directories.history = earlier ++ .clock now :: between ∧
    ∀ happening ∈ between, happening.isTouch = true

/-- What changes from outside is not asked for, so the clock is still the last that was. -/
theorem stable_justRead (now : Instant) : surroundings.Stable (JustRead now) := by
  rintro directories next changes ⟨earlier, between, history, outside⟩
  cases changes with
  | renamed named same present =>
    subst same
    exact ⟨earlier, between, history, outside⟩
  | touched touch named same present =>
    subst same
    refine ⟨earlier, between ++ [.touched touch], by simp [Directories.touch, history], ?_⟩
    intro happening member
    rcases List.mem_append.mp member with before | new
    · exact outside happening before
    · rw [List.mem_singleton.mp new]
      rfl

/-- A source that has just been tried is tended, whether it opened or not. -/
theorem tended_of_attempt {now : Instant} (issued : source.IsIssued directories)
    (read : JustRead now directories) (remembers : source.lastAttempt = some now) :
    source.IsTended [] (directories.record (.tried source.path)) := by
  obtain ⟨earlier, between, history, outside⟩ := read
  refine ⟨issued, fun _ _ _ _ _ => .inr (.inr ⟨earlier, now, between, [], ?_, remembers, outside,
    fun _ _ => List.not_mem_nil⟩)⟩
  simp [record, history]

/-- An attempt leaves its source tended, however it comes out. -/
theorem ensures_tryOpen (source : Source) :
    surroundings.Ensures source.IsIssued source.tryOpen fun tried => tried.1.IsTended [] := by
  have clocked (directories : Directories) (now : Instant) (next : Directories)
      (issued : source.IsIssued directories)
      (answers : Answers .clock directories now next) :
      source.IsIssued next ∧ JustRead now next := by
    obtain rfl := answers
    exact ⟨issued, directories.history, [], rfl, fun _ member => absurd member List.not_mem_nil⟩
  have attempted (now : Instant) (directories : Directories) (answer : Except OsError OpenedDevice)
      (next : Directories) (known : source.IsIssued directories ∧ JustRead now directories)
      (answers : Answers (.openDevice source.path) directories answer next) :
      { source with lastAttempt := some now, device := none }.IsTended [] next := by
    obtain rfl := answers
    exact tended_of_attempt (by exact known.1) known.2 rfl
  refine Surroundings.ensures_ask (fun _ _ => Changes.issued) clocked fun now => ?_
  refine Surroundings.ensures_ask (Surroundings.Stable.and (fun _ _ => Changes.issued)
    (stable_justRead now)) (attempted now) fun answer => ?_
  cases answer with
  | ok device =>
    have opened (directories : Directories)
        (tended : { source with lastAttempt := some now, device := none }.IsTended [] directories) :
        { source with lastAttempt := some now, device := some device.handle }.IsTended []
          directories :=
      ⟨tended.issued, fun missing => nomatch missing⟩
    have logged : surroundings.Ensures
        ({ source with lastAttempt := some now, device := none }.IsTended [])
        (Routine.report
          (.info ("opened " ++ source.path.text ++ " (" ++ Source.shownName device ++ ")")))
        fun _ => { source with lastAttempt := some now, device := none }.IsTended [] :=
      ensures_tended (Routine.asks_request rfl) [] _
    change surroundings.Ensures _ (Routine.report _ >>= fun _ => Routine.done _) _
    refine Surroundings.ensures_bind logged fun _ => ?_
    exact Surroundings.ensures_done (fun _ _ => Changes.tended) opened
  | error cause =>
    exact Surroundings.ensures_done (fun _ _ => Changes.tended) fun _ tended => tended

/-- A quiet attempt leaves its source tended. -/
theorem ensures_tryOpenQuietly (source : Source) :
    surroundings.Ensures source.IsIssued source.tryOpenQuietly fun tried =>
      tried.IsTended [] := by
  rw [Source.tryOpenQuietly_eq]
  refine Surroundings.ensures_bind (ensures_tryOpen source) fun tried => ?_
  refine Surroundings.ensures_bind
    (ensures_tended (Routine.asks_reportAll (fun _ => rfl) _) [] tried.1) fun _ => ?_
  exact Surroundings.ensures_done (fun _ _ => Changes.tended) fun _ tended => tended

/-- A lost source is tended once it has been tried. -/
theorem ensures_reopenLost (source : Source) :
    surroundings.Ensures source.IsIssued source.reopenLost fun reopened =>
      reopened.1.IsTended [] := by
  rw [Source.reopenLost_eq]
  refine Surroundings.ensures_bind (ensures_issued (Routine.asks_request rfl) source) fun _ => ?_
  refine Surroundings.ensures_bind (ensures_issued (Source.asks_letGo source) source) fun _ => ?_
  refine Surroundings.ensures_bind (ensures_tryOpen { source with device := none }) fun tried => ?_
  have settled := (ensures_tended (Source.asks_settleLost tried.1 tried.2) [] tried.1).withResult
  refine settled.mono (fun _ tended => tended) fun reopened directories holds => ?_
  rw [Source.eq_of_settleLost holds.2]
  exact holds.1

/-! ## All sources together -/

/-- Whether every one of some sources is tended. -/
def AllTended (taken : List Notice) (sources : List Source) (directories : Directories) : Prop :=
  ∀ source ∈ sources, source.IsTended taken directories

variable {sources : List Source}

/-- No change from outside leaves one of the sources untended. -/
theorem stable_allTended (taken : List Notice) (sources : List Source) :
    surroundings.Stable (AllTended taken sources) :=
  fun _ _ changes all source member => Changes.tended changes (all source member)

/-- Requests of single sources leave all sources tended. -/
theorem ensures_allTended {α : Type} {routine : Routine α}
    (asks : routine.Asks (Source.isAsked ·)) (taken : List Notice) (sources : List Source) :
    surroundings.Ensures (AllTended taken sources) routine fun _ => AllTended taken sources :=
  Surroundings.ensures_of_asks (stable_allTended taken sources)
    (fun request _ _ _ asked answers all source member =>
      Answers.tended (isQuiet_of_isAsked request asked) answers (all source member)) asks

/-- Where sources are dealt with one after another, each is tended afterwards if it is so once
its turn has come. -/
theorem ensures_visit {each : Source → Routine Source} {taken left : List Notice}
    (asks : ∀ source, (each source).Asks (Source.isSought ·))
    (one : ∀ source, surroundings.Ensures (source.IsTended taken) (each source) fun visited =>
      visited.IsTended left)
    (sources : List Source) :
    surroundings.Ensures (AllTended taken sources) (Monitor.visit each sources) fun visited =>
      AllTended left visited := by
  induction sources with
  | nil =>
    exact Surroundings.ensures_done (stable_allTended taken [])
      fun _ _ _ member => absurd member List.not_mem_nil
  | cons source rest ih =>
    have front : surroundings.Ensures (AllTended taken (source :: rest)) (each source)
        fun visited directories => visited.IsTended left directories ∧
          AllTended taken rest directories :=
      ((one source).and
        (ensures_allTended ((asks source).mono Source.isAsked_of_isSought) taken rest)).mono
        (fun _ all => List.forall_mem_cons.mp all) fun _ _ holds => holds
    refine Surroundings.ensures_bind front fun visited => ?_
    have asksRest := (Monitor.asks_visit asks rest).mono Source.isAsked_of_isSought
    refine Surroundings.ensures_bind ((ensures_tended asksRest left visited).and ih)
      fun others => ?_
    refine Surroundings.ensures_done
      (Surroundings.Stable.and (fun _ _ => Changes.tended) (stable_allTended left others)) ?_
    exact fun _ holds => List.forall_mem_cons.mpr holds

/-- Retries leave a source tended. -/
theorem ensures_retry (now : Instant) (source : Source) :
    surroundings.Ensures (source.IsTended []) (Monitor.retry now source) fun tried =>
      tried.IsTended [] := by
  rw [Monitor.retry]
  split
  · exact (ensures_tryOpenQuietly source).mono (fun _ tended => tended.issued)
      fun _ _ tried => tried
  · exact Surroundings.ensures_done (fun _ _ => Changes.tended) fun _ tended => tended

/-- Serving notices that have been taken leaves the sources that they name tended without them. -/
theorem ensures_answerNotices (notices : List Notice) (source : Source) :
    surroundings.Ensures (source.IsTended notices) (Monitor.answerNotices notices source)
      fun tried => tried.IsTended [] := by
  rw [Monitor.answerNotices]
  split
  · have mention : (Routine.report (.debug (source.path.text ++ " appeared, reopening"))).Asks
        (Source.isAsked ·) := Routine.asks_request rfl
    refine Surroundings.ensures_bind ((ensures_issued mention source).mono
      (fun _ tended => tended.issued) fun _ _ issued => issued) fun _ => ?_
    exact ensures_tryOpenQuietly source
  · rename_i unnamed
    refine Surroundings.ensures_done (fun _ _ => Changes.tended) fun directories tended => ?_
    refine ⟨tended.issued, fun missing watch node watched live => ?_⟩
    rcases tended.noticed missing watch node watched live with named | noticed
    · exact absurd (by rw [missing, named]; rfl) unnamed
    · exact .inr noticed

/-! ## Starting -/

/-- A source without a watch has none that is yet to be set. -/
theorem issued_of_unwatched (unwatched : source.watch = none) : source.IsIssued directories :=
  fun watch watched => by rw [unwatched] at watched; cases watched

/-- The watch that a source is given has been set. -/
theorem ensures_watchDirectory (source : Source) :
    surroundings.Ensures (fun _ => True) source.watchDirectory fun watched =>
      watched.IsIssued := by
  have answered (directories : Directories) (answer : Except OsError WatchId) (next : Directories)
      (_ : True) (answers : Answers (.watch source.path.directory) directories answer next) :
      ∀ watch, answer = .ok watch → { source with watch := some watch }.IsIssued next := by
    rintro watch rfl other watched
    cases watched
    obtain ⟨node, _, ⟨live, rfl⟩ | ⟨_, set, rfl⟩⟩ := answers
    · exact (List.getElem?_eq_some_iff.mp live).1
    · rw [set, List.length_append]
      exact Nat.lt_succ_self _
  refine Surroundings.ensures_ask Surroundings.stable_true answered fun answer => ?_
  cases answer with
  | ok watch =>
    have issued : surroundings.Ensures { source with watch := some watch }.IsIssued
        (.done { source with watch := some watch }) fun watched => watched.IsIssued :=
      Surroundings.ensures_done (fun _ _ => Changes.issued) fun _ issued => issued
    exact issued.mono (fun _ set => set watch rfl) fun _ _ holds => holds
  | error cause =>
    have unwatched : surroundings.Ensures (fun _ => True)
        (Routine.report (.warning ("cannot watch " ++ source.path.directory.text ++ " (" ++
          cause.message ++ "), retrying " ++ source.path.text ++ " periodically")) >>= fun _ =>
          Routine.done { source with watch := none }) fun watched => watched.IsIssued :=
      Surroundings.ensures_bind (Surroundings.ensures_true _) fun _ =>
        Surroundings.ensures_done Surroundings.stable_true fun _ _ => issued_of_unwatched rfl
    exact unwatched.mono (fun _ _ => trivial) fun _ _ holds => holds

/-- A directory is watched before its source is tried. -/
theorem ensures_openSource (watching : Bool) (unwatched : source.watch = none) :
    surroundings.Ensures (fun _ => True) (Monitor.openSource watching source) fun tried =>
      tried.1.IsTended [] := by
  have prepared : surroundings.Ensures (fun _ => True)
      (if watching && source.waits then source.watchDirectory else pure source)
      fun prepared => prepared.IsIssued := by
    split
    · exact ensures_watchDirectory source
    · exact Surroundings.ensures_done Surroundings.stable_true
        fun _ _ => issued_of_unwatched unwatched
  exact Surroundings.ensures_bind prepared ensures_tryOpen

/-- Whether the sources, if opening them came to its end, are tended. -/
def OpenedTended : Except InputError (List Source) → Directories → Prop
  | .ok sources, directories => AllTended [] sources directories
  | .error _, _ => True

/-- No change from outside leaves a source untended that has been opened or tried. -/
theorem stable_openedTended (opened : Except InputError (List Source)) :
    surroundings.Stable (OpenedTended opened) := by
  cases opened with
  | ok sources => exact stable_allTended [] sources
  | error failure => exact fun _ _ _ _ => trivial

/-- Every source is tended once all are opened. -/
theorem ensures_openSources (watching : Bool) (sources : List Source)
    (unwatched : ∀ source ∈ sources, source.watch = none) :
    surroundings.Ensures (fun _ => True) (Monitor.openSources watching sources) OpenedTended := by
  induction sources with
  | nil =>
    exact Surroundings.ensures_done Surroundings.stable_true
      fun _ _ _ member => absurd member List.not_mem_nil
  | cons source rest ih =>
    obtain ⟨first, others⟩ := List.forall_mem_cons.mp unwatched
    have further (tried : Source) : surroundings.Ensures (tried.IsTended [])
        (Monitor.openSources watching rest >>= Monitor.openSources.settle tried)
        OpenedTended := by
      have asks := (Monitor.asks_openSources watching rest).mono Source.isAsked_of_isSought
      have both := ((ensures_tended asks [] tried).and (ih others)).mono
        (fun _ tended => ⟨tended, trivial⟩) fun _ _ holds => holds
      refine Surroundings.ensures_bind both fun opened => ?_
      refine Surroundings.ensures_done (Surroundings.Stable.and (fun _ _ => Changes.tended)
        (stable_openedTended opened)) fun directories holds => ?_
      cases opened with
      | ok remaining => exact List.forall_mem_cons.mpr holds
      | error failure => trivial
    rw [Monitor.openSources_cons]
    refine Surroundings.ensures_bind (ensures_openSource watching first) fun tried => ?_
    rw [Monitor.goOn.eq_def]
    split
    · exact further tried.1
    · split
      · refine Surroundings.ensures_bind (ensures_tended (Routine.asks_request rfl) [] tried.1)
          fun _ => ?_
        exact further tried.1
      · exact Surroundings.ensures_done (fun _ _ => Changes.tended) fun _ _ => trivial

/-- A monitor that has just been started has all its sources tended. -/
theorem ensures_start (required waited : List Path) :
    surroundings.Ensures (fun _ => True) (Monitor.start required waited)
      fun started directories => ∀ monitor, started = .ok monitor →
        AllTended [] monitor.sources directories := by
  have unwatched : ∀ source ∈ Monitor.sourcesOf required waited, source.watch = none :=
    fun _ => Monitor.unwatched_of_sourcesOf
  rw [Monitor.start_eq]
  split
  · exact Surroundings.ensures_done Surroundings.stable_true fun _ _ _ failed => nomatch failed
  · refine Surroundings.ensures_bind (Surroundings.ensures_true _) fun watching => ?_
    refine Surroundings.ensures_bind (ensures_openSources watching _ unwatched) fun opened => ?_
    cases opened with
    | ok sources =>
      refine Surroundings.ensures_done (stable_allTended [] sources) fun _ all monitor started => ?_
      cases started
      exact all
    | error failure =>
      exact Surroundings.ensures_done Surroundings.stable_true fun _ _ _ failed => nomatch failed

/-! ## Rounds -/

variable {progress : Monitor.Progress}

/-- Serving one slot leaves all sources tended. -/
theorem ensures_serveSlot (progress : Monitor.Progress) (slot : Slot) (readiness : Readiness) :
    surroundings.Ensures (AllTended [] progress.sources)
      (Monitor.serveSlot progress slot readiness) fun served => AllTended [] served.1.sources := by
  have unchanged (outcome : Outcome) (noticesReady : Bool) :
      surroundings.Ensures (AllTended [] progress.sources)
        (Routine.done (⟨progress.sources, outcome, noticesReady⟩, none))
        fun (served : Monitor.Progress × Option InputError) => AllTended [] served.1.sources :=
    Surroundings.ensures_done (stable_allTended [] _) fun _ all => all
  have lost (outcome : Outcome) (position : Nat) (source : Source)
      (found : progress.sources[position]? = some source) :
      surroundings.Ensures (AllTended [] progress.sources)
        (Monitor.serveLost { progress with outcome := outcome } position source)
        fun served => AllTended [] served.1.sources := by
    have asks := Source.asks_reopenLost source
    have both := ((ensures_reopenLost source).and
      (ensures_allTended asks [] progress.sources)).mono
      (fun _ all => ⟨(all source (List.mem_of_getElem? found)).issued, all⟩) fun _ _ holds => holds
    refine Surroundings.ensures_bind both fun reopened => ?_
    refine Surroundings.ensures_done (Surroundings.Stable.and (fun _ _ => Changes.tended)
      (stable_allTended [] _)) fun directories holds other member => ?_
    rcases List.mem_or_eq_of_mem_set member with before | rfl
    · exact holds.2 other before
    · exact holds.1
  simp only [Monitor.serveSlot]
  split
  · exact unchanged _ _
  · cases slot with
    | wake pipe => exact unchanged _ _
    | notices => exact unchanged _ _
    | source position =>
      simp only [Monitor.serveSource]
      cases found : progress.sources[position]? with
      | none => exact unchanged _ _
      | some source =>
        simp only
        split
        · exact lost _ _ _ found
        · refine Surroundings.ensures_bind (ensures_allTended (Source.asks_read source) [] _)
            fun reading => ?_
          cases reading with
          | events events => exact unchanged _ _
          | broken => exact lost _ _ _ found

/-- Serving the descriptors that are ready leaves all sources tended. -/
theorem ensures_serve (progress : Monitor.Progress) (ready : List (Slot × Readiness)) :
    surroundings.Ensures (AllTended [] progress.sources) (Monitor.serve progress ready)
      fun served => AllTended [] served.1.sources := by
  induction ready generalizing progress with
  | nil => exact Surroundings.ensures_done (stable_allTended [] _) fun _ all => all
  | cons first rest ih =>
    refine Surroundings.ensures_bind (ensures_serveSlot progress first.1 first.2) fun served => ?_
    obtain ⟨served, failure⟩ := served
    cases failure with
    | none => exact ih served
    | some error => exact Surroundings.ensures_done (stable_allTended [] _) fun _ all => all

/-- Notices that are taken are served in the same round. -/
theorem ensures_serveNotices (progress : Monitor.Progress) :
    surroundings.Ensures (AllTended [] progress.sources) (Monitor.serveNotices progress)
      fun served directories => (∀ cause, served.2 ≠ some (.failed cause)) →
        AllTended [] served.1.sources directories := by
  have taken : surroundings.Ensures (AllTended [] progress.sources)
      (Monitor.takeNotices [] Monitor.readLimit) fun result directories =>
        ∀ notices, result = .ok notices → AllTended notices progress.sources directories := by
    refine (Monitor.ensures_takeNotices (fun taken => stable_allTended taken progress.sources)
      (fun taken directories answer next all answers source member =>
        Answers.tended_of_read answers (all source member)) [] Monitor.readLimit).mono
      (fun _ all => all) ?_
    rintro result directories ⟨all, tended, same⟩ notices taken
    rw [same notices taken]
    exact tended
  refine Surroundings.ensures_bind taken.withResult fun answer => ?_
  cases answer with
  | ok notices =>
    have served : surroundings.Ensures (AllTended notices progress.sources)
        (Monitor.reopenNoticed notices progress.sources >>= fun sources =>
          Routine.done ({ progress with sources := sources }, (none : Option InputError)))
        fun served directories => (∀ cause, served.2 ≠ some (.failed cause)) →
          AllTended [] served.1.sources directories := by
      rw [Monitor.reopenNoticed_eq]
      refine Surroundings.ensures_bind (ensures_visit (Monitor.asks_answerNotices notices)
        (ensures_answerNotices notices) progress.sources) fun sources => ?_
      exact Surroundings.ensures_done (stable_allTended [] sources) fun _ all _ => all
    exact served.mono (fun _ all => all.1 notices rfl) fun _ _ holds => holds
  | error error =>
    have failed : surroundings.Ensures (fun _ => ∃ cause, error = .failed cause)
        (Routine.done (progress, some error))
        fun served directories => (∀ cause, served.2 ≠ some (.failed cause)) →
          AllTended [] served.1.sources directories := by
      refine Surroundings.ensures_done (fun _ _ _ holds => holds) ?_
      rintro directories ⟨cause, rfl⟩ through
      exact absurd rfl (through cause)
    exact failed.mono (fun _ holds => Monitor.failed_of_takeNotices holds.2) fun _ _ holds => holds

/-- Serving a wait leaves all sources tended, unless its notices cannot be read. -/
theorem ensures_serveAll (sources : List Source) (ready : List (Slot × Readiness)) :
    surroundings.Ensures (AllTended [] sources) (Monitor.serveAll sources ready)
      fun served directories => (∀ cause, served.2 ≠ some (.failed cause)) →
        AllTended [] served.1.sources directories := by
  refine Surroundings.ensures_bind (ensures_serve ⟨sources, .nothing, false⟩ ready) fun served => ?_
  obtain ⟨progress, failure⟩ := served
  have unserved (failure : Option InputError) : surroundings.Ensures (AllTended [] progress.sources)
      (Routine.done (progress, failure)) fun served directories =>
        (∀ cause, served.2 ≠ some (.failed cause)) → AllTended [] served.1.sources directories :=
    Surroundings.ensures_done (stable_allTended [] _) fun _ all _ => all
  cases failure with
  | some error => exact unserved (some error)
  | none =>
    simp only
    split
    · exact ensures_serveNotices progress
    · exact unserved none

/-- The first half of a round leaves all sources tended. -/
theorem ensures_prepare (monitor : Monitor) :
    surroundings.Ensures (AllTended [] monitor.sources) monitor.prepare fun ready =>
      AllTended [] ready.sources := by
  have clock : (Routine.request .clock).Asks (Source.isAsked ·) := Routine.asks_request rfl
  refine Surroundings.ensures_bind (ensures_allTended clock [] monitor.sources) fun now => ?_
  rw [Monitor.retrySources_eq]
  refine Surroundings.ensures_bind (ensures_visit (Monitor.asks_retry now) (ensures_retry now)
    monitor.sources) fun sources => ?_
  exact Surroundings.ensures_done (stable_allTended [] sources) fun _ all => all

/-- A round in which the system does not fail leaves all sources tended. -/
theorem ensures_poll (monitor : Monitor) (timeout : Int) :
    surroundings.Ensures (AllTended [] monitor.sources) (monitor.poll timeout)
      fun polled directories => (∀ cause, polled.2 ≠ .error (.failed cause)) →
        AllTended [] polled.1.sources directories := by
  rw [Monitor.poll_eq]
  refine Surroundings.ensures_bind (ensures_prepare monitor) fun ready => ?_
  have waited (directories : Directories) (answer : Except OsError (List Readiness))
      (next : Directories) (all : AllTended [] ready.sources directories)
      (answers : Answers (.poll ready.descriptors (Monitor.cappedTimeout ready.sources timeout))
        directories answer next) : AllTended [] ready.sources next :=
    fun source member => Answers.tended rfl answers (all source member)
  refine Surroundings.ensures_ask (stable_allTended [] _) waited fun answer => ?_
  cases answer with
  | error cause =>
    change surroundings.Ensures _ (ready.settle (.error cause)) _
    rw [Monitor.settle]
    split
    all_goals exact Surroundings.ensures_done (stable_allTended [] _) fun _ all _ => all
  | ok readiness =>
    change surroundings.Ensures _ (ready.serveReady readiness) _
    refine Surroundings.ensures_bind (ensures_serveAll ready.sources _) fun served => ?_
    obtain ⟨progress, failure⟩ := served
    have kept : surroundings.Stable fun directories =>
        (∀ cause, failure ≠ some (.failed cause)) → AllTended [] progress.sources directories :=
      fun _ _ changes all through => stable_allTended [] _ changes (all through)
    cases failure with
    | none =>
      exact Surroundings.ensures_done kept fun _ all _ => all fun _ failed => by cases failed
    | some error =>
      refine Surroundings.ensures_done kept fun _ all through => all fun cause failed => ?_
      exact through cause (congrArg Except.error (Option.some.inj failed))

end Directories

namespace Monitor

variable {required waited : List Path} {first state : Directories} {monitor : Monitor}

/-- All sources of a monitor are tended between its rounds. -/
theorem Goes.allTended
    (goes : Monitor.Goes Directories.surroundings required waited first monitor state) :
    Directories.AllTended [] monitor.sources state := by
  induction goes with
  | start starts => exact Directories.ensures_start required waited trivial starts _ rfl
  | addWake pipe _ ih => exact ih
  | poll unfailed _ polls ih => exact Directories.ensures_poll _ _ ih polls unfailed

/-- Whenever a monitor is about to wait, a missing input with a live watch has a notice that ends
the wait at once, or it has been tried since its file was last touched. -/
theorem reappearance_never_missed {before : Monitor} {source : Source} {watch : WatchId}
    {node : Nat} {earlier : Directories}
    (goes : Monitor.Goes Directories.surroundings required waited first before earlier)
    (prepares : Directories.surroundings.Leads before.prepare earlier monitor state)
    (member : source ∈ monitor.sources) (missing : source.isMissing = true)
    (watched : source.watch = some watch) (live : state.IsLive watch node) :
    (source.IsExpected state ∧
        Directories.surroundings.Wakes state monitor.descriptors .notices) ∨
      source.IsTriedSince state node := by
  have tended := Directories.ensures_prepare before goes.allTended prepares source member
  rcases tended.noticed missing watch node watched live with taken | expected | tried
  · obtain ⟨notice, none, _⟩ := isNoticed_iff.mp taken
    exact absurd none List.not_mem_nil
  · obtain ⟨same, watching, _⟩ := setup_of_prepare prepares.yields
    have hears := goes.hearsWatches.of_setup same watching source member (by rw [watched]; rfl)
    obtain ⟨notice, queued, _⟩ := id expected
    exact .inl ⟨expected, Directories.wakes_of_notice (List.ne_nil_of_mem queued)
      (notices_mem_descriptors hears)⟩
  · exact .inr tried

/-- An input that is waited for and was tried once its directory was watched. -/
def awaited : Source := ⟨⟨"/dev/input/event0"⟩, true, none, some ⟨0⟩, some ⟨0⟩⟩

/-- The directories right after that attempt. -/
def sought : Directories :=
  ⟨fun _ => some 0, [⟨0, true⟩], [], [.clock ⟨0⟩, .tried awaited.path]⟩

/-- The monitor that waits for one input in those directories is reached by a start. -/
theorem goes_awaited :
    Monitor.Goes Directories.surroundings [] [awaited.path] (.start fun _ => some 0)
      ⟨[awaited], [], true⟩ sought :=
  have ran : (Monitor.start [] [awaited.path]).run Directories.answer (.start fun _ => some 0) =
      (.ok ⟨[awaited], [], true⟩, sought) := rfl
  have leads := Surroundings.leads_run Directories.answers_answer (Monitor.start [] [awaited.path])
    (.start fun _ => some 0)
  .start (by rwa [ran] at leads)

/-- The directories once the next round has begun and the file of the input has appeared. -/
def appeared : Directories := (sought.record (.clock ⟨0⟩)).touch (.entry 0 "event0")

/-- The file may appear while the monitor prepares its wait. -/
theorem leads_appeared :
    Directories.surroundings.Leads (Monitor.prepare ⟨[awaited], [], true⟩) sought
      ⟨[awaited], [], true⟩ appeared := by
  have leads := Surroundings.leads_run Directories.answers_answer
    (Monitor.prepare ⟨[awaited], [], true⟩) sought
  refine leads.further (.single (.touched (.entry 0 "event0") (fun _ => some 0) rfl ?_))
  rintro path node ⟨⟩
  change ¬ _ ∈ _
  decide

/-- A file that appears between the attempt and the wait ends the wait. -/
theorem reappearance_of_awaited :
    awaited ∈ [awaited] ∧ awaited.isMissing = true ∧ awaited.watch = some ⟨0⟩ ∧
      appeared.IsLive ⟨0⟩ 0 ∧
      ((awaited.IsExpected appeared ∧ Directories.surroundings.Wakes appeared
          (Monitor.descriptors ⟨[awaited], [], true⟩) .notices) ∨
        awaited.IsTriedSince appeared 0) :=
  ⟨List.mem_singleton_self _, rfl, rfl, rfl,
    reappearance_never_missed goes_awaited leads_appeared (List.mem_singleton_self _) rfl rfl rfl⟩

end Monitor

end Keyhold
