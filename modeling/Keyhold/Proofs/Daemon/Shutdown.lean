import Keyhold.Proofs.Daemon.Course
import Keyhold.Proofs.Input.Delivery

/-!
# How a run ends

The commands of a run are the marks that its log leaves of them. Whatever the system answers, a turn
waits once, for the stop pipe among others, and then hands over the firings of all keys that are due
at its reading of the clock (`Turn.Passes.hands_over`). What it does with its records and how it
ends is decided by them (`Turn.Passes.decision`). The order of the steps in a turn is the order in
which causes to stop win: `shutdown_order`.
-/

namespace Keyhold

open Keyhold.System

/-- What is done about commands. -/
inductive CommandMark where
  /-- A command is run to its end. -/
  | ran (command : String)
  /-- A command is started. -/
  | started (command : String)
  deriving DecidableEq, Repr

namespace CommandMark

/-- The mark of a request about commands. -/
def view : View CommandMark
  | .runToEnd command, _ => some (.ran command)
  | .spawn command, _ => some (.started command)
  | _, _ => none

/-- Whether requests of this kind leave no mark. -/
def Silent (request : Request) : Prop := ∀ answer, view request answer = none

/-- The mark of a firing that is handed to the executor. -/
def ofFiring (mode : CommandMode) (firing : Firing) : CommandMark :=
  if mode == .blocking || firing.exits then .ran firing.command else .started firing.command

variable {α : Type} {routine : Routine α} {result : α} {marks : List CommandMark}

/-- A routine whose requests are silent leaves no mark. -/
theorem marks_of_silent (asks : routine.Asks Silent) (shows : routine.Shows view marks result) :
    marks = [] :=
  Routine.marks_of_asks asks (fun _ silent => silent) shows

/-- Serving sources is silent. -/
theorem silent_of_isServing (request : Request) (serving : Monitor.isServing request = true) :
    Silent request := by
  cases request <;> first | exact fun _ => rfl | cases serving

/-- Looking for sources is silent. -/
theorem silent_of_isSought (request : Request) (sought : Source.isSought request = true) :
    Silent request := by
  cases request <;> first | exact fun _ => rfl | cases sought

end CommandMark

/-- After a retirement no key is due. -/
theorem Panel.early_of_retire (panel : Panel) (now : Instant) :
    ∀ key ∈ (panel.retire now).1.keys, key.isDue now = false := by
  intro key member
  obtain ⟨tracker, _, rfl⟩ := List.mem_map.mp member
  rw [Tracker.expire]
  split
  · rfl
  · rename_i early
    exact Bool.not_eq_true _ ▸ early

namespace Commands

variable {commands next : Commands} {marks : List CommandMark}

/-- A firing is handed over once, whether its command can be run or not. -/
theorem marks_of_execute {firing : Firing} {result : Except OsError Unit}
    (shows : (commands.execute firing).Shows CommandMark.view marks (result, next)) :
    marks = [.ofFiring commands.mode firing] ∧ next.mode = commands.mode := by
  rw [execute] at shows
  split at shows
  · rename_i waits
    obtain ⟨_, _, _, rfl, runs, rfl, done⟩ := Routine.shows_bind.mp shows
    obtain ⟨answer, later, rfl, further⟩ := runs
    cases done
    have quiet : later = [] := by
      cases answer with
      | error cause => exact further.1
      | ok status =>
        dsimp only [Routine.bind] at further
        split at further
        · obtain ⟨_, _, rfl, rfl, _⟩ := further
          rfl
        · exact further.1
    rw [waitsFor] at waits
    rw [quiet, CommandMark.ofFiring, if_pos waits]
    exact ⟨rfl, rfl⟩
  · rename_i beside
    obtain ⟨answer, _, rfl, further⟩ := shows
    rw [waitsFor] at beside
    rw [CommandMark.ofFiring, if_neg beside]
    cases answer with
    | error cause =>
      obtain ⟨rfl, done⟩ := further
      cases done
      exact ⟨rfl, rfl⟩
    | ok process =>
      obtain ⟨_, _, rfl, rfl, done⟩ := further
      cases done
      exact ⟨rfl, rfl⟩

/-- All firings are handed over in order, and an exit is requested when one of them asks for
it. -/
theorem marks_of_runAll {firings : List Firing} {outcome : FireOutcome}
    (shows : (commands.runAll firings).Shows CommandMark.view marks (outcome, next)) :
    marks = firings.map (.ofFiring commands.mode) ∧ next.mode = commands.mode ∧
      outcome.exitRequested = firings.any Firing.exits := by
  induction firings generalizing commands marks outcome with
  | nil =>
    obtain ⟨rfl, done⟩ := shows
    cases done
    exact ⟨rfl, rfl, rfl⟩
  | cons firing rest ih =>
    obtain ⟨⟨result, started⟩, _, _, rfl, executes, further⟩ := Routine.shows_bind.mp shows
    obtain ⟨_, _, _, rfl, reports, others⟩ := Routine.shows_bind.mp further
    obtain ⟨⟨rested, _⟩, _, _, rfl, runs, rfl, done⟩ := Routine.shows_bind.mp others
    cases done
    obtain ⟨rfl, mode⟩ := marks_of_execute executes
    obtain ⟨rfl, last, exits⟩ := ih runs
    rw [CommandMark.marks_of_silent (Routine.asks_reportAll (fun _ _ => rfl) _) reports]
    refine ⟨by simp [mode], last.trans mode, ?_⟩
    rw [List.any_cons, ← exits]

/-- Looking after started commands hands nothing over. -/
theorem silent_stillRunning (processes : List ProcessId) :
    (stillRunning processes).Asks CommandMark.Silent := by
  induction processes with
  | nil => trivial
  | cons process rest ih =>
    refine Routine.asks_bind ⟨fun _ => rfl, fun answer => ?_⟩ fun _ =>
      Routine.asks_bind ih fun _ => trivial
    rcases answer with cause | _ | status
    · exact ⟨fun _ => rfl, fun _ => trivial⟩
    · trivial
    · dsimp only [Routine.bind]
      split
      · exact ⟨fun _ => rfl, fun _ => trivial⟩
      · trivial

/-- Forgetting finished commands hands nothing over. -/
theorem silent_reap (commands : Commands) : commands.reap.Asks CommandMark.Silent :=
  Routine.asks_bind (silent_stillRunning commands.children) fun _ => trivial

/-- Ending the executor hands nothing over. -/
theorem silent_close (commands : Commands) : commands.close.Asks CommandMark.Silent :=
  Routine.asks_bind (silent_reap commands) fun _ =>
    Routine.asks_reportAll (fun _ _ => rfl) _

/-- Forgetting finished commands leaves the mode alone. -/
theorem mode_of_reap (reaps : commands.reap.Yields next) : next.mode = commands.mode := by
  obtain ⟨children, _, done⟩ := Routine.yields_bind.mp reaps
  cases done
  rfl

end Commands

namespace Monitor

/-- Starting to monitor hands nothing over. -/
theorem silent_start (required waited : List Path) :
    (start required waited).Asks CommandMark.Silent := by
  rw [start_eq]
  split
  · trivial
  · refine Routine.asks_bind (asks_prelude (fun _ => rfl) (fun _ _ => rfl) waited)
      fun watching => ?_
    exact Routine.asks_bind
      ((asks_openSources watching _).mono CommandMark.silent_of_isSought) fun _ => trivial

/-- A round hands nothing over. -/
theorem silent_poll (monitor : Monitor) (timeout : Int) :
    (monitor.poll timeout).Asks CommandMark.Silent := by
  rw [poll_eq]
  refine Routine.asks_bind ((asks_prepare monitor).mono CommandMark.silent_of_isSought)
    fun ready => ⟨fun _ => rfl, fun answer => ?_⟩
  exact (asks_settle ready answer).mono CommandMark.silent_of_isServing

end Monitor

namespace Daemon

variable {daemon next : Daemon} {outcome : Outcome} {now : Instant} {ending : Option Ending}
  {marks : List CommandMark}

/-! ## Stages -/

/-- Waiting hands nothing over. -/
theorem silent_wait (daemon : Daemon) : daemon.wait.Asks CommandMark.Silent := by
  refine Routine.asks_bind ⟨fun _ => rfl, fun _ => trivial⟩ fun now => ?_
  refine Routine.asks_bind (Routine.asks_reportAll (fun _ _ => rfl) _) fun _ => ?_
  exact Routine.asks_bind (Monitor.silent_poll daemon.monitor _) fun _ => trivial

/-- Collecting commands hands nothing over. -/
theorem silent_collect (daemon : Daemon) (outcome : Outcome) :
    (daemon.collect outcome).Asks CommandMark.Silent := by
  have reaps : (daemon.commands.reap >>= fun commands =>
      pure { daemon with commands := commands }).Asks CommandMark.Silent :=
    Routine.asks_bind (Commands.silent_reap daemon.commands) fun _ => trivial
  rw [collect]
  dsimp only
  split
  · exact ⟨fun _ => rfl, fun _ => reaps⟩
  · exact reaps

/-- Handing records on hands no command over. -/
theorem silent_handOn (daemon : Daemon) (fired : FireOutcome) (outcome : Outcome) :
    (daemon.handOn fired outcome).Asks CommandMark.Silent := by
  rw [handOn]
  split
  · trivial
  · split
    · trivial
    · refine Routine.asks_bind
        (asks_feedAll (fun _ _ => rfl) daemon.panel outcome.events) fun fed => ?_
      cases fed with
      | none => trivial
      | some panel =>
        dsimp only
        split
        · exact ⟨fun _ => rfl, fun _ => trivial⟩
        · trivial

/-- Collecting commands leaves the mode alone. -/
theorem mode_of_collect (collects : (daemon.collect outcome).Yields next) :
    next.commands.mode = daemon.commands.mode := by
  simp only [collect] at collects
  split at collects
  · obtain ⟨_, _, further⟩ := Routine.yields_bind.mp collects
    obtain ⟨commands, reaps, done⟩ := Routine.yields_bind.mp further
    cases done
    exact Commands.mode_of_reap reaps
  · obtain ⟨commands, reaps, done⟩ := Routine.yields_bind.mp collects
    cases done
    exact Commands.mode_of_reap reaps

/-- Retiring deadlines hands over the firings of all keys that are due. -/
theorem marks_of_fireAt {fired : FireOutcome}
    (shows : (daemon.fireAt now).Shows CommandMark.view marks (next, fired)) :
    marks = (daemon.panel.retire now).2.map (.ofFiring daemon.commands.mode) ∧
      fired.exitRequested = (daemon.panel.retire now).2.any Firing.exits ∧
      next.panel = (daemon.panel.retire now).1 ∧ next.commands.mode = daemon.commands.mode ∧
      next.stopPipe = daemon.stopPipe ∧ next.testMode = daemon.testMode := by
  rw [fireAt_eq] at shows
  obtain ⟨_, _, _, rfl, reports, further⟩ := Routine.shows_bind.mp shows
  obtain ⟨⟨report, commands⟩, _, _, rfl, runs, rfl, done⟩ := Routine.shows_bind.mp further
  obtain ⟨rfl, mode, exits⟩ := Commands.marks_of_runAll runs
  rw [CommandMark.marks_of_silent (Routine.asks_reportAll (fun _ _ => rfl) _) reports]
  cases done
  exact ⟨by simp, exits, rfl, mode, rfl, rfl⟩

/-- Records are fed one after another, each once. -/
theorem eq_of_feedAll {panel : Panel} {events : List Event} {fed : Option Panel}
    (feeds : (feedAll panel events).Yields fed) : fed = events.foldlM Panel.feed? panel := by
  induction events generalizing panel with
  | nil => exact feeds.symm
  | cons event rest ih =>
    obtain ⟨_, _, further⟩ := Routine.yields_bind.mp feeds
    rw [List.foldlM_cons]
    cases once : panel.feed? event with
    | none =>
      rw [once] at further
      exact further.symm
    | some next =>
      rw [once] at further
      exact ih further

/-- What follows the retirement goes by the first cause to stop: an exit action, a hang-up in test
mode, a deadline that cannot be represented, and only then a signal. -/
theorem decision_of_handOn {fired : FireOutcome}
    (hands : (daemon.handOn fired outcome).Yields (next, ending)) :
    (fired.exitRequested = true → ending = some .exitAction ∧ next.panel = daemon.panel) ∧
    (fired.exitRequested = false → hangUp? daemon.testMode outcome = none →
      ∀ panel, outcome.events.foldlM Panel.feed? daemon.panel = some panel →
        daemon.stopPipe ∈ outcome.woken → ending = some .signalled) ∧
    (ending = none →
      outcome.events.foldlM Panel.feed? daemon.panel = some next.panel) ∧
    next.commands = daemon.commands := by
  rw [handOn] at hands
  split at hands
  · rename_i exits
    cases hands
    refine ⟨fun _ => ⟨rfl, rfl⟩, fun stays => ?_, fun none => (by cases none), rfl⟩
    rw [exits] at stays
    cases stays
  · rename_i stays
    refine ⟨fun exits => absurd exits stays, ?_⟩
    split at hands
    · rename_i hangsUp
      cases hands
      refine ⟨fun _ unhung => ?_, fun none => (by cases none), rfl⟩
      rw [hangsUp] at unhung
      cases unhung
    · obtain ⟨fed, feeds, further⟩ := Routine.yields_bind.mp hands
      rw [← eq_of_feedAll feeds]
      cases fed with
      | none =>
        cases further
        exact ⟨fun _ _ _ same => (by cases same), fun none => (by cases none), rfl⟩
      | some panel =>
        dsimp only at further
        split at further
        · obtain ⟨_, _, done⟩ := Routine.yields_bind.mp further
          cases done
          exact ⟨fun _ _ _ _ _ => rfl, fun none => (by cases none), rfl⟩
        · rename_i unwoken
          cases further
          refine ⟨fun _ _ _ _ woken => ?_, fun _ => rfl, rfl⟩
          exact absurd (List.contains_iff_mem.mpr woken) unwoken

/-! ## Turns -/

namespace Turn

variable {turn : Turn}

/-- The panel once the deadlines have been retired. -/
def retired (turn : Turn) : Panel := (turn.before.panel.retire turn.now).1

/-- The firings of all keys that were due. -/
def firings (turn : Turn) : List Firing := (turn.before.panel.retire turn.now).2

/-- Whether one of the firings asks the daemon to stop. -/
def exits (turn : Turn) : Bool := turn.firings.any Firing.exits

/-- The panel once it has then been fed the records of the turn, each once and in order; none if
a deadline cannot be represented. -/
def fed? (turn : Turn) : Option Panel := turn.outcome.events.foldlM Panel.feed? turn.retired

/-- Whether the turn ends before it looks for a signal. -/
def EndsEarlier (turn : Turn) : Prop :=
  turn.exits = true ∨ hangUp? turn.before.testMode turn.outcome ≠ none ∨ turn.fed? = none

instance (turn : Turn) : Decidable turn.EndsEarlier :=
  inferInstanceAs (Decidable (_ ∨ _ ∨ _))

/-- The marks of its firings. -/
def handed (turn : Turn) : List CommandMark :=
  turn.firings.map (.ofFiring turn.before.commands.mode)

/-- Whether a turn hands its firings over in the stage that runs them, and nothing else in any
stage. -/
structure HandsOver (turn : Turn) : Prop where
  waits : CommandMark.view.marks turn.waits = []
  collects : CommandMark.view.marks turn.collects = []
  fires : CommandMark.view.marks turn.fires = turn.handed
  hands : CommandMark.view.marks turn.hands = []

/-- Stage by stage the marks of a turn are those of its firings. -/
theorem HandsOver.marks_log (handsOver : turn.HandsOver) :
    CommandMark.view.marks turn.log = turn.handed := by
  rw [log, View.marks_append, View.marks_append, View.marks_append, View.marks_cons,
    handsOver.waits, handsOver.collects, handsOver.fires, handsOver.hands]
  simp [CommandMark.view]

/-- A turn hands over the firings of all keys that are due, and nothing else. -/
theorem Passes.hands_over (passes : turn.Passes) :
    turn.HandsOver ∧ turn.after.commands.mode = turn.before.commands.mode := by
  obtain ⟨waited, collected, retired, fired, waits, collects, fires, hands⟩ := passes
  have panel : collected.panel = turn.before.panel :=
    (panel_of_collect collects.yields).trans (panel_of_wait waits.yields)
  have mode : collected.commands.mode = turn.before.commands.mode := by
    obtain ⟨monitor, _, rfl, _⟩ := eq_of_wait waits.yields
    exact (mode_of_collect collects.yields).trans rfl
  obtain ⟨fires, _, _, kept, _, _⟩ := marks_of_fireAt (fires.marks CommandMark.view)
  obtain ⟨_, _, _, same⟩ := decision_of_handOn hands.yields
  refine ⟨⟨?_, ?_, ?_, ?_⟩, ?_⟩
  · exact CommandMark.marks_of_silent (silent_wait turn.before) (waits.marks CommandMark.view)
  · exact CommandMark.marks_of_silent (silent_collect waited turn.outcome)
      (collects.marks CommandMark.view)
  · rw [fires, panel, mode]
    rfl
  · exact CommandMark.marks_of_silent (silent_handOn retired fired turn.outcome)
      (hands.marks CommandMark.view)
  · rw [show turn.after.commands = retired.commands from same, kept, mode]

/-- How a turn is decided. -/
theorem Passes.decision (passes : turn.Passes) :
    (turn.exits = true → turn.ending = some .exitAction ∧ turn.after.panel = turn.retired) ∧
    (turn.before.stopPipe ∈ turn.outcome.woken → ¬turn.EndsEarlier →
      turn.ending = some .signalled) ∧
    (turn.ending = none → turn.fed? = some turn.after.panel) := by
  obtain ⟨waited, collected, retired, fired, waits, collects, fires, hands⟩ := passes
  have panel : collected.panel = turn.before.panel :=
    (panel_of_collect collects.yields).trans (panel_of_wait waits.yields)
  obtain ⟨monitor, _, rfl, _⟩ := eq_of_wait waits.yields
  obtain ⟨commands, rfl⟩ := eq_of_collect collects.yields
  obtain ⟨_, exits, after, _, stop, test⟩ := marks_of_fireAt (fires.marks CommandMark.view)
  have exits : fired.exitRequested = turn.exits := exits
  have after : retired.panel = turn.retired := after
  obtain ⟨exit, signal, further, _⟩ := decision_of_handOn hands.yields
  rw [exits, after] at exit
  rw [exits, after, stop, test] at signal
  rw [after] at further
  refine ⟨exit, fun woken lasts => ?_, further⟩
  rw [EndsEarlier, not_or, not_or] at lasts
  obtain ⟨stays, unhung, fed⟩ := lasts
  obtain ⟨last, fed⟩ := Option.ne_none_iff_exists'.mp fed
  exact signal (by simpa using stays) (by simpa using unhung) last fed woken

/-- Where the daemon stops for an exit action, nothing more is asked. -/
theorem Passes.hands_eq_nil (passes : turn.Passes) (exits : turn.exits = true) :
    turn.hands = [] := by
  obtain ⟨waited, collected, retired, fired, waits, collects, fires, hands⟩ := passes
  have panel : collected.panel = turn.before.panel :=
    (panel_of_collect collects.yields).trans (panel_of_wait waits.yields)
  obtain ⟨_, requested, _⟩ := marks_of_fireAt (fires.marks CommandMark.view)
  rw [panel] at requested
  rw [handOn, if_pos (requested.trans exits)] at hands
  exact hands.1

/-- Whether a turn waits once, for the stop pipe among others, and finds exactly those pipes woken
that come back ready. -/
def Listens (turn : Turn) : Prop :=
  ∃ descriptors timeout answer,
    (PollMark.view.marks turn.waits).filterMap PollMark.waited? =
      [(descriptors, timeout, answer)] ∧
    .wake turn.before.stopPipe ∈ descriptors ∧
    turn.outcome.woken = (descriptors.zip (answer.toOption.getD [])).filterMap woken?

/-- A turn of a daemon that waits for its stop pipe listens. -/
theorem Passes.listens (passes : turn.Passes)
    (isWaitedFor : turn.before.stopPipe ∈ turn.before.monitor.wakes) : turn.Listens := by
  obtain ⟨waited, _, _, _, waits, _⟩ := passes
  obtain ⟨now, _, _, same, ⟨_, _, rfl, rfl, _⟩, further⟩ :=
    Routine.shows_bind.mp (waits.marks PollMark.view)
  obtain ⟨_, reported, _, rfl, reports, further⟩ := Routine.shows_bind.mp further
  obtain ⟨⟨monitor, result⟩, polled, _, rfl, polls, rfl, done⟩ := Routine.shows_bind.mp further
  cases done
  have silent : (Routine.reportAll (Panel.waitMessages (turn.before.panel.nextWait? now))).Asks
      fun request => ∀ answer, PollMark.view request answer = none :=
    Routine.asks_reportAll (fun _ _ => rfl) _
  obtain rfl := Routine.marks_of_asks silent (fun _ ignored => ignored) reports
  have round : Monitor.Polls turn.before.monitor _ monitor (polled, turn.outcome) := polls
  obtain ⟨delivery, delivers⟩ := round.delivery
  have waited : (PollMark.view.marks turn.waits).filterMap PollMark.waited? =
      polled.filterMap PollMark.waited? := by
    rw [same]
    simp only [List.append_nil, List.nil_append]
    rfl
  have listed : .wake turn.before.stopPipe ∈ delivery.ready.descriptors := by
    rw [delivers.descriptors]
    exact List.mem_append_right _ (List.mem_map_of_mem isWaitedFor)
  exact ⟨_, _, _, waited.trans delivers.waited, listed, delivers.woken⟩

end Turn

/-! ## Runs -/

/-- Starting hands nothing over. -/
theorem marks_of_start {required missing : List Path} {bindings : Bindings} {window : Span}
    {mode : CommandMode} {testMode : Bool} {result : Except StartError Daemon}
    (shows : (start required missing bindings window mode testMode).Shows CommandMark.view marks
      result) :
    marks = [] ∧ ∀ daemon, result = .ok daemon →
      daemon.panel = .start bindings window ∧ daemon.commands.mode = mode := by
  obtain ⟨opened, starts, ready⟩ := opened_of_start (fun _ _ => rfl) (fun _ _ => rfl) shows
  refine ⟨CommandMark.marks_of_silent (Monitor.silent_start required missing) starts, ?_⟩
  intro daemon started
  obtain ⟨monitor, stopPipe, childPipe, _, rfl⟩ := ready daemon started
  exact ⟨rfl, rfl⟩

/-- What is done behind the last turn hands nothing over. -/
theorem silent_end (daemon : Daemon) (ending : Option Ending) :
    (daemon.close ending).Asks CommandMark.Silent :=
  Routine.asks_bind (Routine.asks_reportAll (fun _ _ => rfl) _) fun _ =>
    Commands.silent_close daemon.commands

/-- The marks of turns one after another are those of their firings. -/
theorem Went.marks_log {limit : Nat} {turns : List Turn} {log : List Exchange} {last : Daemon}
    (went : Went limit daemon turns ending log last) :
    CommandMark.view.marks log = turns.flatMap Turn.handed := by
  induction went with
  | limit => rfl
  | failed waits =>
    exact CommandMark.marks_of_silent (silent_wait _) (waits.marks CommandMark.view)
  | last passes _ => rw [passes.hands_over.1.marks_log, List.flatMap_singleton]
  | onward passes _ _ ih =>
    rw [View.marks_append, passes.hands_over.1.marks_log, ih, List.flatMap_cons]

end Daemon

namespace Application

open Daemon

variable {application : Application} {limit : Nat} {log : List Exchange}
  {result : Except ApplicationError Unit} {daemon : Daemon} {turns : List Turn}
  {ending : Option Ending}

/-- The commands that a run hands over are those of the firings of its turns. -/
theorem Ran.marks_log (ran : application.Ran limit log daemon turns ending) :
    CommandMark.view.marks log = turns.flatMap Turn.handed := by
  obtain ⟨opening, turning, closing, last, rfl, starts, went, closes⟩ := ran
  have opens := (marks_of_start (starts.marks CommandMark.view)).1
  have ends := CommandMark.marks_of_silent (silent_end last ending) (closes.marks CommandMark.view)
  rw [View.marks_append, View.marks_append, opens, ends, went.marks_log, List.append_nil,
    List.nil_append]

/-- Throughout a run commands are run as the application asks, and the stop pipe is waited for. -/
theorem Ran.kept (ran : application.Ran limit log daemon turns ending) :
    ∀ turn ∈ turns, turn.before.commands.mode = application.commandMode ∧
      turn.before.stopPipe ∈ turn.before.monitor.wakes := by
  obtain ⟨opening, turning, closing, last, _, starts, went, _⟩ := ran
  have mode := ((marks_of_start (starts.marks CommandMark.view)).2 daemon rfl).2
  refine went.kept (fun daemon => daemon.commands.mode = application.commandMode ∧
    daemon.stopPipe ∈ daemon.monitor.wakes) ⟨mode, (wakes_of_start starts.yields).1⟩
    fun turn passes holds => ?_
  obtain ⟨stop, _, wakes⟩ := wakes_of_turn passes.shows.yields
  rw [passes.hands_over.2, stop, wakes]
  exact holds

/-- Every log of a run is that of its turns, unless the application does not get ready, and in each
turn the causes to stop come in a fixed order. The commands of the run are those of the firings of
its turns; a turn listens for signals, hands its firings over in one stage and nothing in another.
A turn in which an exit action fires is the last: the run ends well, nothing is asked afterwards in
the turn, and no record of it is fed. A turn that finds the stop pipe woken and does not end earlier
is the last as well: the run ends well, and no key is left that was due. A turn that does not end
has fed each of its records once, in order, to the panel that the next turn begins with. -/
theorem shutdown_order (shows : (application.run limit).Shows Exchange.view log result) :
    ((∃ cause, application.ready.Shows Exchange.view log (.error cause) ∧
        result = .error (.ofStart cause) ∧ CommandMark.view.marks log = []) ∨
      ∃ daemon turns ending, application.Ran limit log daemon turns ending) ∧
    ∀ daemon turns ending, application.Ran limit log daemon turns ending →
      daemon.panel = .start application.bindings application.window ∧ result = resultOf ending ∧
      CommandMark.view.marks log = turns.flatMap Turn.handed ∧
      ∀ earlier turn later, turns = earlier ++ turn :: later →
        turn.before.commands.mode = application.commandMode ∧ turn.Listens ∧ turn.HandsOver ∧
        (turn.exits = true →
          later = [] ∧ result = .ok () ∧ turn.hands = [] ∧ turn.after.panel = turn.retired) ∧
        (turn.before.stopPipe ∈ turn.outcome.woken → ¬turn.EndsEarlier →
          later = [] ∧ result = .ok () ∧ ∀ key ∈ turn.retired.keys, key.isDue turn.now = false) ∧
        (turn.ending = none → turn.fed? = some turn.after.panel ∧
          ∀ next rest, later = next :: rest → next.before = turn.after) := by
  constructor
  · rcases ran_of_shows shows with ⟨cause, fails, failed⟩ | ran
    · exact .inl ⟨cause, fails, failed, (marks_of_start (fails.marks CommandMark.view)).1⟩
    · exact .inr ran
  · intro daemon turns ending ran
    have same : result = resultOf ending := shows.unique ran.shows
    have kept := ran.kept
    have marks := ran.marks_log
    obtain ⟨opening, turning, closing, last, rfl, starts, went, closes⟩ := ran
    have panel := ((marks_of_start (starts.marks CommandMark.view)).2 daemon rfl).1
    refine ⟨panel, same, marks, fun earlier turn later parts => ?_⟩
    obtain ⟨mode, isWaitedFor⟩ := kept turn (by simp [parts])
    obtain ⟨passes, place⟩ := went.split parts
    obtain ⟨exit, signal, further⟩ := passes.decision
    refine ⟨mode, passes.listens isWaitedFor, passes.hands_over.1, fun exits => ?_,
      fun woken lasts => ?_, fun goesOn => ⟨further goesOn, ?_⟩⟩
    · obtain ⟨ends, fed⟩ := exit exits
      rcases place with ⟨_, none, stop⟩ | ⟨goesOn, _⟩
      · exact ⟨none, by rw [same, stop, ends]; rfl, passes.hands_eq_nil exits, fed⟩
      · rw [ends] at goesOn
        cases goesOn
    · have ends := signal woken lasts
      rcases place with ⟨_, none, stop⟩ | ⟨goesOn, _⟩
      · exact ⟨none, by rw [same, stop, ends]; rfl, Panel.early_of_retire _ _⟩
      · rw [ends] at goesOn
        cases goesOn
    · rintro next rest rfl
      rcases place with ⟨_, none, _⟩ | ⟨_, _, _, onward⟩
      · cases none
      · exact onward.before_eq

/-! ## A host that presses keys -/

/-- An application with two keys; the action of the first may end the daemon. -/
def pair (exits : Bool) : Application :=
  ⟨CommandLine.Options.empty, [⟨116, none, [⟨.short, 3000, "halt", exits⟩]⟩,
    ⟨30, none, [⟨.short, 3000, "note", false⟩]⟩], [⟨"/dev/input/event0"⟩], [], ⟨10000000⟩⟩

/-- A host whose only device is always ready: after one second both keys are pressed, after two
they are released, and from then on the second one is pressed. The third wait ends with a signal
to stop as well. The state counts the waits. -/
def pressing : (request : Request) → Nat → request.Answer × Nat
  | .clock, waits => (⟨waits * 1000000000⟩, waits)
  | .wallClock, waits => (⟨waits * 1000000000⟩, waits)
  | .openDevice _, waits => (.ok ⟨⟨0⟩, none, true⟩, waits)
  | .openSignalPipe signals, waits => (.ok ⟨signals.length⟩, waits)
  | .poll descriptors _, waits => (.ok (descriptors.map fun descriptor =>
      match descriptor with
      | .device _ => .readable
      | .wake pipe => if waits = 2 ∧ pipe.id = 2 then .readable else .idle
      | .notices => .idle), waits + 1)
  | .readDevice _, waits =>
    let record (code : UInt16) (value : Int) : Report := ⟨⟨waits * 1000000000⟩, 1, code, value⟩
    (.ok (match waits with
      | 1 => [record 116 1, record 30 1]
      | 2 => [record 116 0, record 30 0]
      | _ => [record 30 1]), waits)
  | .spawn _, waits => (.ok ⟨7⟩, waits)
  | .runToEnd _, waits => (.ok (.exited 0), waits)
  | _, waits => (default, waits)

/-- The daemon that gets ready on this host. -/
def pairReady (exits : Bool) : Daemon :=
  match ((pair exits).ready.run pressing 0).1 with
  | .ok daemon => daemon
  | .error _ => default

/-- The turns of this daemon. -/
def pairTurns (exits : Bool) : List Turn := (pairReady exits).turnsOn pressing 0 5

/-- The application goes through these turns. -/
theorem ran_pair (exits : Bool) :
    ∃ log ending, (pair exits).Ran 5 log (pairReady exits) (pairTurns exits) ending := by
  have starts : (pair exits).ready.Shows Exchange.view _ _ :=
    Routine.shows_run pressing (pair exits).ready 0
  have gets : ((pair exits).ready.run pressing 0).1 = .ok (pairReady exits) := by
    cases exits <;> rfl
  rw [gets] at starts
  obtain ⟨ending, log, last, went⟩ := went_on pressing (pairReady exits) 0 5
  exact ⟨_, ending, _, log, _, last, rfl, starts, went, Routine.shows_run pressing _ 0⟩

/-- In the third turn both keys are due and a signal arrives. Where the action of the first key ends
the daemon, both commands are handed over, and the record of the turn is not fed. Where it does not,
the signal ends the daemon, and both commands are handed over as well. -/
theorem exit_hands_all_over :
    (∃ log daemon earlier turn ending, (pair true).Ran 5 log daemon (earlier ++ [turn]) ending ∧
      turn.exits = true ∧ ((pair true).run 5).Shows Exchange.view log (.ok ()) ∧
      CommandMark.view.marks log = [.ran "halt", .started "note"] ∧
      turn.after.panel = turn.retired) ∧
    ∃ log daemon earlier turn ending, (pair false).Ran 5 log daemon (earlier ++ [turn]) ending ∧
      turn.before.stopPipe ∈ turn.outcome.woken ∧ ¬turn.EndsEarlier ∧
      ((pair false).run 5).Shows Exchange.view log (.ok ()) ∧
      CommandMark.view.marks log = [.started "halt", .started "note"] ∧
      ∀ key ∈ turn.retired.keys, key.isDue turn.now = false := by
  constructor
  · obtain ⟨log, ending, ran⟩ := ran_pair true
    have exits : (pairTurns true).map Turn.exits = [false, false] ++ [true] := by decide +kernel
    have handed : (pairTurns true).flatMap Turn.handed = [.ran "halt", .started "note"] := by
      decide +kernel
    obtain ⟨earlier, later, parts, _, last⟩ := List.map_eq_append_iff.mp exits
    obtain ⟨turn, rfl, own⟩ := List.map_eq_singleton_iff.mp last
    obtain ⟨_, _, marks, order⟩ := (shutdown_order ran.shows).2 _ _ _ ran
    obtain ⟨_, _, _, exit, _⟩ := order earlier turn [] parts
    obtain ⟨_, well, _, fed⟩ := exit own
    have shows := ran.shows
    rw [well] at shows
    rw [parts] at ran
    exact ⟨log, _, earlier, turn, ending, ran, own, shows, marks.trans handed, fed⟩
  · obtain ⟨log, ending, ran⟩ := ran_pair false
    have signals : (pairTurns false).map (fun turn =>
        (decide (turn.before.stopPipe ∈ turn.outcome.woken), decide turn.EndsEarlier)) =
          [(false, false), (false, false)] ++ [(true, false)] := by decide +kernel
    have handed : (pairTurns false).flatMap Turn.handed = [.started "halt", .started "note"] := by
      decide +kernel
    obtain ⟨earlier, later, parts, _, last⟩ := List.map_eq_append_iff.mp signals
    obtain ⟨turn, rfl, own⟩ := List.map_eq_singleton_iff.mp last
    obtain ⟨woken, lasts⟩ := Prod.mk.inj own
    have woken := of_decide_eq_true woken
    have lasts := of_decide_eq_false lasts
    obtain ⟨_, _, marks, order⟩ := (shutdown_order ran.shows).2 _ _ _ ran
    obtain ⟨_, _, _, _, signal, _⟩ := order earlier turn [] parts
    obtain ⟨_, well, early⟩ := signal woken lasts
    have shows := ran.shows
    rw [well] at shows
    rw [parts] at ran
    exact ⟨log, _, earlier, turn, ending, ran, woken, lasts, shows, marks.trans handed, early⟩

end Application

end Keyhold
