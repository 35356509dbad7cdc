import Keyhold.Proofs.Input.Return

/-!
# Remembered inputs

A missing input comes back in one of two ways: nothing watches for it and it is tried every
second, or its watch reports the file. `IsRemembered` says that one of them is open: a watch does
its duty only while it is live and on the directory that the path of the input names now. Since
a watch ends with its directory and the source keeps it none the less, an input is remembered
exactly as long as its path names the directory that was watched when monitoring began
(`missing_source_remembered_iff`); when that directory is removed and made anew, the input is
neither tried again nor noticed (`missing_source_forgotten`, `forgotten_for_good`).
-/

namespace Keyhold

open Keyhold.System

namespace Source

/-- Whether the return of a source will be found out: nothing watches for it, so that it is
tried again, or a live watch is on the directory that its path names. -/
def IsRemembered (source : Source) (directories : Directories) : Prop :=
  source.isUnwatched = true ∨
    ∃ watch node, source.watch = some watch ∧ directories.IsLive watch node ∧
      directories.named source.path.directory = some node

end Source

namespace Directories

variable {directories : Directories} {watch : WatchId} {node other : Nat}

/-- A live watch is set. -/
theorem IsLive.isOn (live : directories.IsLive watch node) : directories.IsOn watch node :=
  ⟨true, live⟩

/-- A watch is set on one directory. -/
theorem IsOn.unique (first : directories.IsOn watch node) (second : directories.IsOn watch other) :
    node = other := by
  obtain ⟨_, set⟩ := first
  obtain ⟨_, same⟩ := second
  rw [set] at same
  exact congrArg Host.Watch.node (Option.some.inj same)

end Directories

namespace Monitor

variable {required waited : List Path} {named : Path → Option Nat} {monitor : Monitor}
  {state : Directories} {source : Source}

/-- Throughout the rounds of a monitor, watches live as long as their directories. -/
theorem Goes.sound
    (goes : Monitor.Goes Directories.surroundings required waited (.start named) monitor state) :
    state.Sound := by
  induction goes with
  | start starts => exact Directories.ensures_sound _ (Directories.sound_start named) starts
  | addWake pipe _ ih => exact ih
  | poll _ _ polls ih => exact Directories.ensures_sound _ ih polls

/-- A missing input is remembered exactly if its path names the directory that its watch was set
on. Such a watch is live, and a new file of the input is reported. -/
theorem missing_source_remembered_iff
    (goes : Monitor.Goes Directories.surroundings required waited (.start named) monitor state)
    (member : source ∈ monitor.sources) (missing : source.isMissing = true) :
    source.IsRemembered state ↔
      ∀ watch node, source.watch = some watch → state.IsOn watch node →
        state.named source.path.directory = some node := by
  constructor
  · rintro (unwatched | ⟨watch, node, watched, live, names⟩) other on otherWatched set
    · rw [Source.isUnwatched, missing, otherWatched] at unwatched
      cases unwatched
    · rw [watched] at otherWatched
      cases otherWatched
      rwa [← live.isOn.unique set]
  · intro stays
    cases watched : source.watch with
    | none => exact .inl (by rw [Source.isUnwatched, missing, watched]; rfl)
    | some watch =>
      have issued := (goes.allTended source member).issued watch watched
      have set : state.IsOn watch state.watches[watch.id].node :=
        ⟨state.watches[watch.id].live, List.getElem?_eq_getElem issued⟩
      have names := stays watch _ watched set
      have present := goes.sound.present _ _ names
      exact .inr ⟨watch, _, watched, goes.sound.isLive_iff.mpr ⟨set, present⟩, names⟩

/-- An input whose directory stays is remembered. -/
theorem awaited_remembered : awaited.isMissing = true ∧ awaited.IsRemembered sought := by
  refine ⟨rfl, (missing_source_remembered_iff goes_awaited (List.mem_singleton_self _) rfl).mpr ?_⟩
  rintro watch node ⟨⟩ ⟨live, set⟩
  cases set
  rfl

/-- The directories after the one that was watched has been removed and made anew. -/
def replaced : Directories :=
  { sought.touch (.gone 0) with named := fun _ => some 1 }

/-- The input is missed by a round that finds out about its directory. -/
theorem polls_replaced :
    Directories.surroundings.Leads (Monitor.poll ⟨[awaited], [], true⟩ (-1)) sought
      (⟨[awaited], [], true⟩, .ok .nothing)
      { (replaced.record (.clock ⟨0⟩)) with notices := [] } := by
  have changes : Directories.surroundings.Changes sought replaced := by
    refine .touched (.gone 0) (fun _ => some 1) rfl ?_
    rintro path node ⟨⟩
    change ¬ _ ∈ _
    decide
  have ran : (Monitor.poll ⟨[awaited], [], true⟩ (-1)).run Directories.answer replaced =
      ((⟨[awaited], [], true⟩, .ok .nothing),
        { (replaced.record (.clock ⟨0⟩)) with notices := [] }) := rfl
  have leads := Surroundings.leads_run Directories.answers_answer
    (Monitor.poll ⟨[awaited], [], true⟩ (-1)) replaced
  rw [ran] at leads
  exact .head (.change changes) leads

/-- A missing input may be left with a watch that never reports again. -/
theorem missing_source_forgotten :
    ¬ ∀ (required waited : List Path) (named : Path → Option Nat) (before monitor : Monitor)
      (state last : Directories) (timeout : Int) (outcome : Outcome) (source : Source),
      Monitor.Goes Directories.surroundings required waited (.start named) before state →
      Directories.surroundings.Leads (before.poll timeout) state (monitor, .ok outcome) last →
      source ∈ monitor.sources → source.waits = true → source.isMissing = true →
      source.IsRemembered last := by
  intro claimed
  have remembered := claimed _ _ _ _ _ _ _ _ _ awaited goes_awaited polls_replaced
    (List.mem_singleton_self _) rfl rfl
  rcases remembered with unwatched | ⟨watch, node, watched, live, _⟩
  · cases unwatched
  · cases watched
    cases live

end Monitor

/-! ## Forgotten inputs -/

namespace Source

/-- Whether a source is missing with a watch that has ended, and no unread notice names it. -/
structure IsForgotten (source : Source) (directories : Directories) : Prop where
  missing : source.isMissing = true
  ended : ∃ watch node, source.watch = some watch ∧
    directories.watches[watch.id]? = some ⟨node, false⟩
  unnamed : ¬ source.IsExpected directories

/-- A forgotten source has a watch, so it is not retried. -/
theorem IsForgotten.watched {source : Source} {directories : Directories}
    (forgotten : source.IsForgotten directories) : source.isUnwatched = false := by
  obtain ⟨watch, _, watched, _⟩ := forgotten.ended
  rw [isUnwatched, watched]
  exact Bool.and_false _

end Source

namespace Directories

variable {directories next : Directories} {source : Source} {taken : List Notice}

/-- Only live watches report. -/
theorem live_of_mem_noticesOf {touch : Host.Touch} {notice : Notice}
    (reported : notice ∈ Host.Machine.noticesOf directories.watches touch) :
    ∃ node, directories.IsLive notice.watch node := by
  rw [Host.Machine.noticesOf, List.mem_filterMap] at reported
  obtain ⟨⟨⟨node, live⟩, position⟩, found, reports⟩ := reported
  have set := List.mem_zipIdx_iff_getElem?.mp found
  cases live with
  | false => cases reports
  | true =>
    refine ⟨node, ?_⟩
    have same : notice.watch = ⟨position⟩ := by
      simp only [Bool.not_true, Bool.false_eq_true, if_false] at reports
      split at reports
      all_goals
        split at reports
        · cases reports
          rfl
        · cases reports
    rw [same]
    exact set

/-- A watch that has ended reports nothing. -/
theorem forgotten_touch (forgotten : source.IsForgotten directories) (touch : Host.Touch) :
    source.IsForgotten (directories.touch touch) := by
  obtain ⟨watch, node, watched, ended⟩ := forgotten.ended
  refine ⟨forgotten.missing, ⟨watch, node, watched, ?_⟩, ?_⟩
  · cases touch with
    | entry directory name => exact ended
    | mode changed => exact ended
    | gone removed =>
      simp only [Directories.touch, Host.Machine.watchesAfter, List.getElem?_map, ended,
        Option.map_some]
      split <;> rfl
  · rintro ⟨notice, queued, names⟩
    rcases List.mem_append.mp queued with before | new
    · exact forgotten.unnamed ⟨notice, before, names⟩
    · obtain ⟨other, live⟩ := live_of_mem_noticesOf new
      have same : watch = notice.watch := Option.some.inj (watched.symm.trans names.1)
      rw [IsLive, ← same, ended] at live
      cases live

/-- No change from outside brings a forgotten source back. -/
theorem Changes.forgotten (changes : Changes directories next)
    (forgotten : source.IsForgotten directories) : source.IsForgotten next := by
  cases changes with
  | touched touch named same present =>
    have touched := forgotten_touch forgotten touch
    subst same
    exact ⟨touched.missing, touched.ended, touched.unnamed⟩
  | renamed named same present =>
    subst same
    exact ⟨forgotten.missing, forgotten.ended, forgotten.unnamed⟩

/-- No answered request, reads of notices apart, brings a forgotten source back. -/
theorem Answers.forgotten {request : Request} {answer : request.Answer}
    (quiet : isQuiet request = true) (answers : Answers request directories answer next)
    (forgotten : source.IsForgotten directories) : source.IsForgotten next := by
  obtain rfl | ⟨happening, _, rfl⟩ | ⟨path, directory, _, rfl⟩ := answers.cases quiet
  · exact forgotten
  · exact ⟨forgotten.missing, forgotten.ended, forgotten.unnamed⟩
  · obtain ⟨watch, node, watched, ended⟩ := forgotten.ended
    have inside := (List.getElem?_eq_some_iff.mp ended).1
    refine ⟨forgotten.missing, ⟨watch, node, watched, ?_⟩, forgotten.unnamed⟩
    rw [List.getElem?_append_left inside, ended]

/-- Notices that are read do not name a forgotten source. -/
theorem Answers.forgotten_of_read {answer : Except OsError (List Notice)}
    (answers : Answers .readNotices directories answer next)
    (forgotten : source.IsForgotten directories)
    (unnamed : Monitor.isNoticed taken source = false) :
    source.IsForgotten next ∧
      Monitor.isNoticed (taken ++ answer.toOption.getD []) source = false := by
  obtain ⟨rest, front, rfl⟩ := answers.read
  have unread : ¬ source.IsExpected { directories with notices := rest } := by
    rintro ⟨notice, later, names⟩
    exact forgotten.unnamed ⟨notice, front ▸ List.mem_append_right _ later, names⟩
  refine ⟨⟨forgotten.missing, forgotten.ended, unread⟩, Bool.eq_false_iff.mpr fun noticed => ?_⟩
  obtain ⟨notice, member, names⟩ := Monitor.isNoticed_iff.mp noticed
  rcases List.mem_append.mp member with earlier | now
  · rw [Monitor.isNoticed_iff.mpr ⟨notice, earlier, names⟩] at unnamed
    cases unnamed
  · exact forgotten.unnamed ⟨notice, front ▸ List.mem_append_left rest now, names⟩

/-- Requests of single sources leave a forgotten source so. -/
theorem ensures_forgotten {α : Type} {routine : Routine α}
    (asks : routine.Asks (Source.isAsked ·)) (source : Source) :
    surroundings.Ensures source.IsForgotten routine fun _ => source.IsForgotten :=
  Surroundings.ensures_of_asks (fun _ _ => Changes.forgotten)
    (fun request _ _ _ asked answers =>
      Answers.forgotten (isQuiet_of_isAsked request asked) answers) asks

end Directories

namespace Monitor

variable {monitor : Monitor} {sources others : List Source} {source : Source} {position : Nat}

/-- A source that its own turn leaves alone stays where it is. -/
theorem kept_of_visit {each : Source → Routine Source} (found : sources[position]? = some source)
    (keeps : ∀ visited, (each source).Yields visited → visited = source)
    (visits : (visit each sources).Yields others) : others[position]? = some source := by
  induction sources generalizing position others with
  | nil => cases found
  | cons first rest ih =>
    obtain ⟨visited, front, further⟩ := Routine.yields_bind.mp visits
    obtain ⟨remaining, back, done⟩ := Routine.yields_bind.mp further
    cases done
    cases position with
    | zero =>
      cases found
      exact congrArg some (keeps visited front)
    | succ position =>
      rw [List.getElem?_cons_succ] at found ⊢
      exact ih found back

/-- Retries leave a source alone that something watches for. -/
theorem eq_of_retry {now : Instant} {retried : Source} (watched : source.isUnwatched = false)
    (retries : (retry now source).Yields retried) : retried = source := by
  rw [retry, isRetryDue, watched, Bool.false_and] at retries
  cases retries
  rfl

/-- Notices that do not name a source leave it alone. -/
theorem eq_of_answerNotices {notices : List Notice} {answered : Source}
    (unnamed : isNoticed notices source = false)
    (answers : (answerNotices notices source).Yields answered) : answered = source := by
  rw [answerNotices, unnamed, Bool.and_false] at answers
  cases answers
  rfl

/-- Only open sources have slots. -/
theorem open_of_mem_sourceSlots {start : Nat} {descriptor : Descriptor}
    (listed : (.source position, descriptor) ∈ sourceSlots start sources) :
    start ≤ position ∧ ∃ source, sources[position - start]? = some source ∧
      source.isMissing = false := by
  induction sources generalizing start with
  | nil => cases listed
  | cons first rest ih =>
    have later (listed : (.source position, descriptor) ∈ sourceSlots (start + 1) rest) :
        start ≤ position ∧ ∃ source, (first :: rest)[position - start]? = some source ∧
          source.isMissing = false := by
      obtain ⟨bound, source, found, isOpen⟩ := ih listed
      refine ⟨by omega, source, ?_, isOpen⟩
      rw [show position - start = position - (start + 1) + 1 by omega, List.getElem?_cons_succ,
        found]
    rw [sourceSlots] at listed
    cases device : first.device with
    | none =>
      rw [device] at listed
      exact later listed
    | some handle =>
      rw [device] at listed
      rcases List.mem_cons.mp listed with same | others
      · cases same
        exact ⟨Nat.le_refl _, first, by rw [Nat.sub_self]; rfl,
          by rw [Source.isMissing, device]; rfl⟩
      · exact later others

/-- A source that was missing when a wait began has no slot afterwards. -/
theorem not_mem_ready {readiness : List Readiness}
    (found : monitor.sources[position]? = some source)
    (missing : source.isMissing = true) (state : Readiness) :
    (Slot.source position, state) ∉ (monitor.slots.map (·.1)).zip readiness := by
  intro listed
  obtain ⟨⟨slot, descriptor⟩, inSlots, rfl⟩ := List.mem_map.mp (List.of_mem_zip listed).1
  rw [slots, List.mem_append, List.mem_append] at inSlots
  rcases inSlots with (inSources | inNotices) | inWakes
  · obtain ⟨_, other, same, isOpen⟩ := open_of_mem_sourceSlots inSources
    rw [Nat.sub_zero, found] at same
    cases same
    rw [missing] at isOpen
    cases isOpen
  · split at inNotices <;> simp at inNotices
  · simp at inWakes

/-- Serving other slots leaves a source where it is. -/
theorem kept_of_serve {progress after : Progress} {failure : Option InputError}
    {ready : List (Slot × Readiness)} (found : progress.sources[position]? = some source)
    (unlisted : ∀ state, (.source position, state) ∉ ready)
    (serves : (serve progress ready).Yields (after, failure)) :
    after.sources[position]? = some source := by
  induction ready generalizing progress with
  | nil =>
    cases serves
    exact found
  | cons first rest ih =>
    obtain ⟨⟨middle, refusal⟩, front, further⟩ := Routine.yields_bind.mp serves
    have kept : middle.sources[position]? = some source := by
      rcases sources_of_serveSlot front with same | ⟨other, _, _, slot, _, _, set⟩
      · rw [same, found]
      · have apart : other ≠ position := by
          rintro rfl
          exact unlisted first.2 (by rw [← slot]; exact List.mem_cons_self)
        rw [set, List.getElem?_set_ne apart, found]
    cases refusal with
    | none =>
      have others := fun state member => unlisted state (List.mem_cons_of_mem first member)
      exact ih kept others further
    | some error =>
      cases further
      exact kept

end Monitor

namespace Directories

variable {source : Source} {position : Nat}

/-- Whether a forgotten source stands at a position of a list of sources. -/
def ForgottenAt (source : Source) (position : Nat) (sources : List Source)
    (directories : Directories) : Prop :=
  sources[position]? = some source ∧ source.IsForgotten directories

/-- A forgotten source stays at its position whatever changes from outside. -/
theorem stable_forgottenAt (source : Source) (position : Nat) (sources : List Source) :
    surroundings.Stable (ForgottenAt source position sources) :=
  fun _ _ changes holds => ⟨holds.1, changes.forgotten holds.2⟩

/-- A routine that keeps a source in its place and takes no notices leaves it forgotten. -/
theorem ensures_forgottenAt {α : Type} {routine : Routine α} {sources : List Source}
    {left : α → List Source} (asks : routine.Asks (Source.isAsked ·))
    (kept : ∀ result, sources[position]? = some source → source.isMissing = true →
      source.isUnwatched = false → routine.Yields result → (left result)[position]? = some source) :
    surroundings.Ensures (ForgottenAt source position sources) routine fun result =>
      ForgottenAt source position (left result) :=
  fun _ _ _ holds leads =>
    ⟨kept _ holds.1 holds.2.missing holds.2.watched leads.yields,
      ensures_forgotten asks source holds.2 leads⟩

/-- The first half of a round leaves a forgotten source so. -/
theorem ensures_prepare_forgotten (monitor : Monitor) :
    surroundings.Ensures (ForgottenAt source position monitor.sources) monitor.prepare fun ready =>
      ForgottenAt source position ready.sources := by
  have asks := (Monitor.asks_prepare monitor).mono Source.isAsked_of_isSought
  refine ensures_forgottenAt asks fun ready found _ watched prepares => ?_
  obtain ⟨now, _, further⟩ := Routine.yields_bind.mp prepares
  obtain ⟨retried, retries, done⟩ := Routine.yields_bind.mp further
  rw [Monitor.retrySources_eq] at retries
  cases done
  exact Monitor.kept_of_visit found (fun _ => Monitor.eq_of_retry watched) retries

/-- Notices about other sources leave a forgotten source so. -/
theorem ensures_serveNotices_forgotten (progress : Monitor.Progress) :
    surroundings.Ensures (ForgottenAt source position progress.sources)
      (Monitor.serveNotices progress) fun served =>
        ForgottenAt source position served.1.sources := by
  have stable (taken : List Notice) : surroundings.Stable fun directories =>
      ForgottenAt source position progress.sources directories ∧
        Monitor.isNoticed taken source = false :=
    fun _ _ changes holds => ⟨stable_forgottenAt _ _ _ changes holds.1, holds.2⟩
  have kept (taken : List Notice) (directories : Directories)
      (answer : Except OsError (List Notice)) (next : Directories)
      (holds : ForgottenAt source position progress.sources directories ∧
        Monitor.isNoticed taken source = false)
      (answers : Answers .readNotices directories answer next) :
      ForgottenAt source position progress.sources next ∧
        Monitor.isNoticed (taken ++ answer.toOption.getD []) source = false := by
    obtain ⟨forgotten, unnamed⟩ := answers.forgotten_of_read holds.1.2 holds.2
    exact ⟨⟨holds.1.1, forgotten⟩, unnamed⟩
  have taken : surroundings.Ensures (ForgottenAt source position progress.sources)
      (Monitor.takeNotices [] Monitor.readLimit) fun result directories =>
        ForgottenAt source position progress.sources directories ∧
          ∀ notices, result = .ok notices → Monitor.isNoticed notices source = false := by
    refine (Monitor.ensures_takeNotices stable kept [] Monitor.readLimit).mono
      (fun _ holds => ⟨holds, rfl⟩) ?_
    rintro result directories ⟨all, ⟨forgotten, unnamed⟩, same⟩
    refine ⟨forgotten, fun notices taken => ?_⟩
    rw [same notices taken]
    exact unnamed
  refine Surroundings.ensures_bind taken fun answer => ?_
  cases answer with
  | ok notices =>
    intro directories result last holds leads
    have unnamed := holds.2 notices rfl
    have served : surroundings.Ensures (ForgottenAt source position progress.sources)
        (Monitor.visit (Monitor.answerNotices notices) progress.sources >>= fun sources =>
          Routine.done ({ progress with sources := sources }, (none : Option InputError)))
        fun served => ForgottenAt source position served.1.sources := by
      have asks := (Monitor.asks_visit (Monitor.asks_answerNotices notices) progress.sources).mono
        Source.isAsked_of_isSought
      refine Surroundings.ensures_bind (ensures_forgottenAt asks
        fun others found _ _ visits => Monitor.kept_of_visit found
          (fun _ => Monitor.eq_of_answerNotices unnamed) visits) fun sources => ?_
      exact Surroundings.ensures_done (stable_forgottenAt _ _ _) fun _ holds => holds
    rw [← Monitor.reopenNoticed_eq] at served
    exact served holds.1 leads
  | error error =>
    have failed : surroundings.Ensures (ForgottenAt source position progress.sources)
        (Routine.done (progress, some error))
        fun served => ForgottenAt source position served.1.sources :=
      Surroundings.ensures_done (stable_forgottenAt _ _ _) fun _ holds => holds
    exact failed.mono (fun _ holds => holds.1) fun _ _ holds => holds

/-- Serving a wait that does not speak of a forgotten source leaves it so. -/
theorem ensures_serveAll_forgotten {ready : List (Slot × Readiness)} (sources : List Source)
    (unlisted : sources[position]? = some source → source.isMissing = true →
      ∀ state, (.source position, state) ∉ ready) :
    surroundings.Ensures (ForgottenAt source position sources) (Monitor.serveAll sources ready)
      fun served => ForgottenAt source position served.1.sources := by
  have slots : surroundings.Ensures (ForgottenAt source position sources)
      (Monitor.serve ⟨sources, .nothing, false⟩ ready) fun served =>
        ForgottenAt source position served.1.sources :=
    ensures_forgottenAt (Monitor.asks_serve _ ready) fun _ found missing _ serves =>
      Monitor.kept_of_serve (by exact found) (unlisted found missing) serves
  refine Surroundings.ensures_bind slots fun served => ?_
  obtain ⟨progress, failure⟩ := served
  have unserved (failure : Option InputError) :
      surroundings.Ensures (ForgottenAt source position progress.sources)
        (Routine.done (progress, failure)) fun served =>
          ForgottenAt source position served.1.sources :=
    Surroundings.ensures_done (stable_forgottenAt _ _ _) fun _ holds => holds
  cases failure with
  | some error => exact unserved (some error)
  | none =>
    simp only
    split
    · exact ensures_serveNotices_forgotten progress
    · exact unserved none

/-- A round neither tries nor notices a forgotten source. -/
theorem ensures_poll_forgotten (monitor : Monitor) (timeout : Int) :
    surroundings.Ensures (ForgottenAt source position monitor.sources) (monitor.poll timeout)
      fun polled => ForgottenAt source position polled.1.sources := by
  rw [Monitor.poll_eq]
  refine Surroundings.ensures_bind (ensures_prepare_forgotten monitor) fun ready => ?_
  have waited (directories : Directories) (answer : Except OsError (List Readiness))
      (next : Directories) (holds : ForgottenAt source position ready.sources directories)
      (answers : Answers (.poll ready.descriptors (Monitor.cappedTimeout ready.sources timeout))
        directories answer next) : ForgottenAt source position ready.sources next :=
    ⟨holds.1, answers.forgotten rfl holds.2⟩
  have through (result : Monitor × Except InputError Outcome) :
      surroundings.Ensures (ForgottenAt source position result.1.sources) (Routine.done result)
        fun polled => ForgottenAt source position polled.1.sources :=
    Surroundings.ensures_done (stable_forgottenAt _ _ _) fun _ holds => holds
  refine Surroundings.ensures_ask (stable_forgottenAt _ _ _) waited fun answer => ?_
  cases answer with
  | error cause =>
    change surroundings.Ensures _ (ready.settle (.error cause)) _
    rw [Monitor.settle]
    split
    · exact through (ready, .ok .nothing)
    · exact through (ready, .error (.failed cause))
  | ok readiness =>
    change surroundings.Ensures _ (ready.serveReady readiness) _
    refine Surroundings.ensures_bind (ensures_serveAll_forgotten ready.sources
      fun found missing => Monitor.not_mem_ready found missing) fun served => ?_
    obtain ⟨progress, failure⟩ := served
    cases failure with
    | none => exact through ({ ready with sources := progress.sources }, .ok progress.outcome)
    | some error => exact through ({ ready with sources := progress.sources }, .error error)

end Directories

/-- Once the watch of a missing input has ended, with nothing left to read about the input, no
round tries it again, whatever changes. -/
theorem Monitor.forgotten_for_good {before after : Monitor × Directories} {source : Source}
    {position : Nat}
    (rounds : Relation.ReflTransGen (Monitor.Round Directories.surroundings) before after)
    (found : before.1.sources[position]? = some source) (forgotten : source.IsForgotten before.2) :
    after.1.sources[position]? = some source ∧ source.IsForgotten after.2 := by
  induction rounds with
  | refl => exact ⟨found, forgotten⟩
  | tail _ round ih =>
    obtain ⟨timeout, _, polls⟩ := round
    exact Directories.ensures_poll_forgotten _ timeout ih polls

end Keyhold
