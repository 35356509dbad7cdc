import Keyhold.Host.Machine
import Keyhold.Proofs.Daemon.Commands
import Keyhold.Proofs.Input.Wakes

/-!
# Ends of commands

The surroundings of a daemon, as far as its commands go: which commands run, which have ended
without having been collected, and the pipes that signals go to. Commands may end at any moment,
and then the pipes that hear the signal for it get something to read, if they hold nothing yet.

A daemon empties its pipe before it asks for its commands, and starts others only afterwards. So
between that and its next wait a command that has ended is either no longer listed, or it ended
after the pipe had been emptied, and then the pipe holds something (`Heard`). A turn leaves it so
whether or not the one before did (`ensures_turn`): it is enough that the pipe is open.
`child_exit_never_missed` says what follows for the moment when the daemon begins to wait.
-/

namespace Keyhold

open Keyhold.System

/-- The surroundings of a daemon as far as commands go. -/
structure Family where
  /-- Commands that run. -/
  running : List ProcessId
  /-- Commands that have ended and have not been collected. -/
  ended : List ProcessId
  /-- Pipes that signals go to, by their numbers. -/
  pipes : List Host.Pipe

namespace Family

/-- A pipe after a signal: it holds something if it hears the signal. -/
def reached (signal : Nat) (pipe : Host.Pipe) : Host.Pipe :=
  { pipe with filled := pipe.filled || pipe.signals.contains signal }

/-- The surroundings after a signal. -/
def send (family : Family) (signal : Nat) : Family :=
  { family with pipes := family.pipes.map (reached signal) }

/-- The surroundings after a pipe has been emptied. -/
def drained (family : Family) (pipe : WakeId) : Family :=
  { family with pipes := family.pipes.modify pipe.id fun pipe => { pipe with filled := false } }

/-- What may change from outside. -/
inductive Changes : Family → Family → Prop where
  /-- A command ends, and the signal for it is sent. -/
  | ends {family : Family} {process : ProcessId} (runs : process ∈ family.running) :
      Changes family
        ({ family with
          running := family.running.erase process, ended := process :: family.ended }.send
            childSignal)
  /-- A signal is sent. -/
  | signalled {family : Family} (signal : Nat) : Changes family (family.send signal)

/-- How a pipe comes back from a wait. -/
def readiness (family : Family) (pipe : WakeId) : Readiness :=
  if family.pipes[pipe.id]?.any fun pipe => pipe.filled || pipe.closed then .readable else .idle

/-- How a request may be answered. A command that is started is a new one; one is collected only
after it has ended, and found running only before. Running a command to its end sends the signal
for its end as well. A wait finds the pipes that hold something readable and ends without
anything ready only by its timeout; it is interrupted only before a pipe is readable, and the
system does not put it off. -/
def Answers : (request : Request) → Family → request.Answer → Family → Prop
  | .openSignalPipe signals, family, .ok pipe, next =>
    pipe.id = family.pipes.length ∧
      next = { family with pipes := family.pipes ++ [⟨signals, false, false⟩] }
  | .drain pipe, family, _, next => next = family.drained pipe
  | .spawn _, family, .ok process, next =>
    process ∉ family.running ∧ process ∉ family.ended ∧
      next = { family with running := process :: family.running }
  | .check process, family, .ok none, next => process ∉ family.ended ∧ next = family
  | .check process, family, .ok (some _), next =>
    process ∈ family.ended ∧ next = { family with ended := family.ended.erase process }
  | .runToEnd _, family, .ok _, next => next = family.send childSignal
  | .runToEnd _, family, .error _, next => next = family ∨ next = family.send childSignal
  | .poll descriptors timeout, family, .ok readiness, next =>
    next = family ∧ ∃ ready : Descriptor → Readiness,
      readiness = descriptors.map ready ∧ (∀ pipe, ready (.wake pipe) = family.readiness pipe) ∧
      (timeout < 0 → ∃ descriptor ∈ descriptors, ready descriptor ≠ .idle)
  | .poll descriptors _, family, .error cause, next =>
    next = family ∧ cause ≠ .wouldBlock ∧
      (cause = .interrupted → ∀ pipe, .wake pipe ∈ descriptors → family.readiness pipe = .idle)
  | _, family, _, next => next = family

/-- The surroundings in which a daemon runs commands. -/
def surroundings : Surroundings Family := ⟨Answers, Changes⟩

variable {family next : Family} {pipe other : WakeId} {children : List ProcessId}

/-- Whether a pipe hears of the end of commands. -/
def Hears (family : Family) (pipe : WakeId) : Prop :=
  ∃ inside, family.pipes[pipe.id]? = some inside ∧ childSignal ∈ inside.signals

/-- Whether a pipe holds something. -/
def Filled (family : Family) (pipe : WakeId) : Prop :=
  ∃ inside, family.pipes[pipe.id]? = some inside ∧ inside.filled = true

/-- Whether a pipe hears of the end of commands and holds something if one of the given commands
has ended. -/
structure Heard (pipe : WakeId) (children : List ProcessId) (family : Family) : Prop where
  hears : family.Hears pipe
  filled : ∀ process ∈ children, process ∈ family.ended → family.Filled pipe

/-! ## Pipes -/

variable {inside : Host.Pipe}

/-- A signal leaves every pipe in its place. -/
theorem getElem?_send (found : family.pipes[pipe.id]? = some inside) (signal : Nat) :
    (family.send signal).pipes[pipe.id]? = some (reached signal inside) := by
  rw [send, List.getElem?_map, found, Option.map_some]

/-- A signal does not stop a pipe from hearing. -/
theorem hears_send (hears : family.Hears pipe) (signal : Nat) :
    (family.send signal).Hears pipe := by
  obtain ⟨inside, found, listens⟩ := hears
  exact ⟨reached signal inside, getElem?_send found signal, listens⟩

/-- A signal empties no pipe. -/
theorem filled_send (filled : family.Filled pipe) (signal : Nat) :
    (family.send signal).Filled pipe := by
  obtain ⟨inside, found, holds⟩ := filled
  have still : (reached signal inside).filled = true := by rw [reached, holds, Bool.true_or]
  exact ⟨reached signal inside, getElem?_send found signal, still⟩

/-- The signal for the end of a command fills the pipes that hear of it. -/
theorem filled_of_hears (hears : family.Hears pipe) : (family.send childSignal).Filled pipe := by
  obtain ⟨inside, found, listens⟩ := hears
  have fills : (reached childSignal inside).filled = true := by
    rw [reached, List.contains_iff_mem.mpr listens, Bool.or_true]
  exact ⟨reached childSignal inside, getElem?_send found childSignal, fills⟩

/-- Emptying pipes does not stop one from hearing. -/
theorem hears_drained (hears : family.Hears pipe) (other : WakeId) :
    (family.drained other).Hears pipe := by
  obtain ⟨inside, found, listens⟩ := hears
  rw [Hears, drained, List.getElem?_modify, found]
  refine ⟨_, rfl, ?_⟩
  dsimp only
  split <;> exact listens

/-- Emptying another pipe leaves a pipe as it is. -/
theorem filled_drained (filled : family.Filled pipe) (apart : other ≠ pipe) :
    (family.drained other).Filled pipe := by
  obtain ⟨inside, found, holds⟩ := filled
  have places : other.id ≠ pipe.id := by
    intro same
    exact apart (congrArg WakeId.mk same)
  have kept : (family.drained other).pipes[pipe.id]? = some inside :=
    (List.getElem?_modify_ne _ _ places).trans found
  exact ⟨inside, kept, holds⟩

/-- A pipe stays in its place when others are opened. -/
theorem getElem?_append (found : family.pipes[pipe.id]? = some inside)
    (others : List Host.Pipe) : (family.pipes ++ others)[pipe.id]? = some inside := by
  have bound : pipe.id < family.pipes.length := (List.getElem?_eq_some_iff.mp found).1
  rw [List.getElem?_append_left bound, found]

/-- Opening other pipes does not stop one from hearing. -/
theorem hears_append (hears : family.Hears pipe) (others : List Host.Pipe) :
    ({ family with pipes := family.pipes ++ others } : Family).Hears pipe := by
  obtain ⟨inside, found, listens⟩ := hears
  exact ⟨inside, getElem?_append found others, listens⟩

/-- Opening other pipes empties none. -/
theorem filled_append (filled : family.Filled pipe) (others : List Host.Pipe) :
    ({ family with pipes := family.pipes ++ others } : Family).Filled pipe := by
  obtain ⟨inside, found, holds⟩ := filled
  exact ⟨inside, getElem?_append found others, holds⟩

/-- A signal leaves a pipe heard of. -/
theorem Heard.send (heard : family.Heard pipe children) (signal : Nat) :
    (family.send signal).Heard pipe children :=
  ⟨hears_send heard.hears signal, fun process listed ended =>
    filled_send (heard.filled process listed ended) signal⟩

/-- No change from outside empties a pipe. -/
theorem Changes.filled (changes : Changes family next) (filled : family.Filled pipe) :
    next.Filled pipe := by
  cases changes with
  | ends runs => exact filled_send filled childSignal
  | signalled signal => exact filled_send filled signal

/-- Commands that end by themselves are heard of, since their signal fills the pipe. -/
theorem Changes.heard (changes : Changes family next) (heard : family.Heard pipe children) :
    next.Heard pipe children := by
  cases changes with
  | ends runs =>
    exact ⟨hears_send heard.hears childSignal, fun _ _ _ => filled_of_hears heard.hears⟩
  | signalled signal => exact heard.send signal

/-- What an answered request may do: nothing, or a signal is sent, a pipe is opened or emptied, a
new command is started, or one that has ended is collected. -/
theorem Answers.cases {request : Request} {answer : request.Answer}
    (answers : Answers request family answer next) :
    next = family ∨ (∃ signal, next = family.send signal) ∨
      (∃ signals, next = { family with pipes := family.pipes ++ [⟨signals, false, false⟩] }) ∨
      (∃ pipe, request = .drain pipe ∧ next = family.drained pipe) ∨
      (∃ process, process ∉ family.ended ∧
        next = { family with running := process :: family.running }) ∨
      ∃ process, next = { family with ended := family.ended.erase process } := by
  cases request with
  | openSignalPipe signals =>
    cases answer with
    | error cause => exact .inl answers
    | ok pipe => exact .inr (.inr (.inl ⟨signals, answers.2⟩))
  | drain pipe => exact .inr (.inr (.inr (.inl ⟨pipe, rfl, answers⟩)))
  | spawn command =>
    cases answer with
    | error cause => exact .inl answers
    | ok process => exact .inr (.inr (.inr (.inr (.inl ⟨process, answers.2⟩))))
  | check process =>
    rcases answer with cause | _ | status
    · exact .inl answers
    · exact .inl answers.2
    · exact .inr (.inr (.inr (.inr (.inr ⟨process, answers.2⟩))))
  | runToEnd command =>
    cases answer with
    | error cause => exact answers.imp_right fun sent => .inl ⟨childSignal, sent⟩
    | ok status => exact .inr (.inl ⟨childSignal, answers⟩)
  | poll descriptors timeout =>
    cases answer with
    | error cause => exact .inl answers.1
    | ok readiness => exact .inl answers.1
  | _ => exact .inl answers

/-- Nothing but emptying a pipe can leave it unfilled while a listed command has ended. -/
theorem Answers.heard {request : Request} {answer : request.Answer}
    (kept : request ≠ .drain pipe) (answers : Answers request family answer next)
    (heard : family.Heard pipe children) : next.Heard pipe children := by
  rcases answers.cases with rfl | ⟨signal, rfl⟩ | ⟨signals, rfl⟩ | ⟨other, rfl, rfl⟩ |
    ⟨process, _, rfl⟩ | ⟨process, rfl⟩
  · exact heard
  · exact heard.send signal
  · exact ⟨hears_append heard.hears _, fun process listed ended =>
      filled_append (heard.filled process listed ended) _⟩
  · have apart : other ≠ pipe := fun same => kept (same ▸ rfl)
    exact ⟨hears_drained heard.hears other, fun process listed ended =>
      filled_drained (heard.filled process listed ended) apart⟩
  · exact ⟨heard.hears, heard.filled⟩
  · exact ⟨heard.hears, fun child listed ended =>
      heard.filled child listed (List.mem_of_mem_erase ended)⟩

/-- No change from outside stops a pipe from hearing. -/
theorem Changes.hears (changes : Changes family next) (hears : family.Hears pipe) :
    next.Hears pipe := by
  cases changes with
  | ends runs => exact hears_send hears childSignal
  | signalled signal => exact hears_send hears signal

/-- No answered request stops a pipe from hearing. -/
theorem Answers.hears {request : Request} {answer : request.Answer}
    (answers : Answers request family answer next) (hears : family.Hears pipe) :
    next.Hears pipe := by
  rcases answers.cases with rfl | ⟨signal, rfl⟩ | ⟨signals, rfl⟩ | ⟨other, rfl, rfl⟩ |
    ⟨process, _, rfl⟩ | ⟨process, rfl⟩
  · exact hears
  · exact hears_send hears signal
  · exact hears_append hears _
  · exact hears_drained hears other
  · exact hears
  · exact hears

/-- Once a pipe hears of the end of commands, it always does. -/
theorem ensures_hears {α : Type} (routine : Routine α) (pipe : WakeId) :
    surroundings.Ensures (Hears · pipe) routine fun _ => (Hears · pipe) :=
  Surroundings.ensures_of_kept (fun _ _ => Changes.hears) (fun _ _ _ _ => Answers.hears) routine

/-- A routine that does not empty the pipe leaves it heard of. -/
theorem ensures_heard {α : Type} {routine : Routine α}
    (asks : routine.Asks (· ≠ .drain pipe)) (children : List ProcessId) :
    surroundings.Ensures (Heard pipe children) routine fun _ => Heard pipe children :=
  Surroundings.ensures_of_asks (fun _ _ => Changes.heard)
    (fun _ _ _ _ kept answers => Answers.heard kept answers) asks

/-- Commands that are heard of stay so whatever changes from outside. -/
theorem stable_heard (pipe : WakeId) (children : List ProcessId) :
    surroundings.Stable (Heard pipe children) :=
  fun _ _ => Changes.heard

/-- Without commands there is nothing to have heard of. -/
theorem Heard.nil (hears : family.Hears pipe) : family.Heard pipe [] :=
  ⟨hears, fun _ listed => absurd listed List.not_mem_nil⟩

/-- Commands are heard of together if each of them is. -/
theorem Heard.cons {process : ProcessId} (first : family.Heard pipe [process])
    (rest : family.Heard pipe children) : family.Heard pipe (process :: children) := by
  refine ⟨rest.hears, fun child listed ended => ?_⟩
  rcases List.mem_cons.mp listed with rfl | other
  · exact first.filled child (List.mem_singleton_self child) ended
  · exact rest.filled child other ended

/-! ## Collecting and starting commands -/

/-- A message does not empty the pipe. -/
theorem asks_report (message : Message) (pipe : WakeId) :
    (Routine.report message).Asks (· ≠ .drain pipe) :=
  Routine.asks_request nofun

/-- The command that an answer finds running. -/
def foundRunning (process : ProcessId) : Except OsError (Option ExitStatus) → List ProcessId
  | .ok none => [process]
  | _ => []

/-- A command that is found running has not ended before it was asked for. -/
theorem ensures_isRunning (pipe : WakeId) (process : ProcessId) :
    surroundings.Ensures (Hears · pipe) (Commands.isRunning process) fun running =>
      Heard pipe (if running then [process] else []) := by
  have answered (family : Family) (answer : Except OsError (Option ExitStatus)) (next : Family)
      (hears : family.Hears pipe) (answers : Answers (.check process) family answer next) :
      next.Heard pipe (foundRunning process answer) := by
    have still := Answers.hears answers hears
    rcases answer with cause | _ | status
    · exact .nil still
    · obtain ⟨runs, rfl⟩ := answers
      refine ⟨hears, fun child listed ended => ?_⟩
      rw [List.mem_singleton.mp listed] at ended
      exact absurd ended runs
    · exact .nil still
  have reported (message : Message) : surroundings.Ensures (Heard pipe [])
      (Routine.report message >>= fun _ => Routine.done false) fun running =>
        Heard pipe (if running then [process] else []) := by
    refine Surroundings.ensures_bind (ensures_heard (asks_report message pipe) []) fun _ => ?_
    exact Surroundings.ensures_done (stable_heard pipe []) fun _ heard => heard
  refine Surroundings.ensures_ask (fun _ _ => Changes.hears) answered fun answer => ?_
  rcases answer with cause | _ | status
  · exact reported _
  · exact Surroundings.ensures_done (stable_heard pipe [process]) fun _ heard => heard
  · change surroundings.Ensures (Heard pipe []) _ _
    dsimp only [Routine.bind]
    split
    · exact reported _
    · exact Surroundings.ensures_done (stable_heard pipe []) fun _ heard => heard

/-- Asking for commands does not empty the pipe. -/
theorem ne_drain_of_isAsked (pipe : WakeId) (request : Request)
    (asked : Commands.isAsked request = true) : request ≠ .drain pipe := by
  rintro rfl
  cases asked

/-- The commands that are found running are heard of, though the pipe may have been emptied just
before. One of them may end while the others are asked for, but no pipe is emptied then. -/
theorem ensures_stillRunning (pipe : WakeId) (processes : List ProcessId) :
    surroundings.Ensures (Hears · pipe) (Commands.stillRunning processes) fun running =>
      Heard pipe running := by
  induction processes with
  | nil => exact Surroundings.ensures_done (fun _ _ => Changes.hears) fun _ => .nil
  | cons process rest ih =>
    refine Surroundings.ensures_bind (ensures_isRunning pipe process) fun running => ?_
    have asks := (Commands.asks_stillRunning rest).mono (ne_drain_of_isAsked pipe)
    have both := ((ensures_heard asks (if running then [process] else [])).and ih).mono
      (fun _ heard => ⟨heard, heard.hears⟩) fun _ _ heard => heard
    refine Surroundings.ensures_bind both fun others => ?_
    refine Surroundings.ensures_done ((stable_heard pipe _).and (stable_heard pipe others)) ?_
    intro family heard
    cases running with
    | true => exact heard.1.cons heard.2
    | false => exact heard.2

/-- Once commands have been collected, those that are left are heard of. -/
theorem ensures_collect (daemon : Daemon) (outcome : Outcome) :
    surroundings.Ensures (Hears · daemon.childPipe) (daemon.collect outcome) fun collected =>
      Heard daemon.childPipe collected.commands.children := by
  have reaps : surroundings.Ensures (Hears · daemon.childPipe)
      (daemon.commands.reap >>= fun commands => Routine.done { daemon with commands := commands })
      fun collected => Heard daemon.childPipe collected.commands.children := by
    have left : surroundings.Ensures (Hears · daemon.childPipe) daemon.commands.reap fun commands =>
        Heard daemon.childPipe commands.children :=
      Surroundings.ensures_bind (ensures_stillRunning daemon.childPipe daemon.commands.children)
        fun running => Surroundings.ensures_done (stable_heard _ running) fun _ heard => heard
    refine Surroundings.ensures_bind left fun commands => ?_
    exact Surroundings.ensures_done (stable_heard _ commands.children) fun _ heard => heard
  rw [Daemon.collect]
  dsimp only
  split
  · exact Surroundings.ensures_bind (ensures_hears (Routine.request _) _) fun _ => reaps
  · exact reaps

/-- A command that has just been started has not ended before it is listed. -/
theorem Heard.append {process : ProcessId} (heard : family.Heard pipe children)
    (fresh : process ∉ family.ended) : family.Heard pipe (children ++ [process]) := by
  refine ⟨heard.hears, fun child listed ended => ?_⟩
  rcases List.mem_append.mp listed with before | new
  · exact heard.filled child before ended
  · rw [List.mem_singleton.mp new] at ended
    exact absurd ended fresh

/-- The command that an answer has started. -/
def started : Except OsError ProcessId → List ProcessId
  | .ok process => [process]
  | .error _ => []

/-- Starting a command leaves all listed ones heard of, the new one among them: what is known of it
is settled by the answer, since it may end before it is listed. -/
theorem ensures_runBeside (commands : Commands) (command : String) (pipe : WakeId) :
    surroundings.Ensures (Heard pipe commands.children) (commands.runBeside command) fun done =>
      Heard pipe done.2.children := by
  have answered (family : Family) (answer : Except OsError ProcessId) (next : Family)
      (heard : family.Heard pipe commands.children)
      (answers : Answers (.spawn command) family answer next) :
      next.Heard pipe (commands.children ++ started answer) := by
    cases answer with
    | error cause =>
      obtain rfl := answers
      rwa [started, List.append_nil]
    | ok process =>
      have other : Request.spawn command ≠ .drain pipe := nofun
      have kept := Answers.heard other answers heard
      obtain ⟨_, fresh, rfl⟩ := answers
      exact kept.append fresh
  refine Surroundings.ensures_ask (stable_heard pipe _) answered fun answer => ?_
  cases answer with
  | error cause =>
    rw [started, List.append_nil]
    exact Surroundings.ensures_done (stable_heard pipe _) fun _ heard => heard
  | ok process =>
    change surroundings.Ensures _ (Routine.report _ >>= fun _ => Routine.done _) _
    refine Surroundings.ensures_bind (ensures_heard (asks_report _ pipe) _) fun _ => ?_
    exact Surroundings.ensures_done (stable_heard pipe _) fun _ heard => heard

/-- Running the command of a firing leaves the listed commands heard of. -/
theorem ensures_execute (commands : Commands) (firing : Firing) (pipe : WakeId) :
    surroundings.Ensures (Heard pipe commands.children) (commands.execute firing) fun done =>
      Heard pipe done.2.children := by
  rw [Commands.execute]
  split
  · have waits := (Commands.asks_runWaiting firing.command).mono (ne_drain_of_isAsked pipe)
    refine Surroundings.ensures_bind (ensures_heard waits commands.children) fun result => ?_
    exact Surroundings.ensures_done (stable_heard pipe _) fun _ heard => heard
  · exact ensures_runBeside commands firing.command pipe

/-- Running the commands of firings leaves the listed commands heard of. -/
theorem ensures_runAll (commands : Commands) (firings : List Firing) (pipe : WakeId) :
    surroundings.Ensures (Heard pipe commands.children) (commands.runAll firings) fun done =>
      Heard pipe done.2.children := by
  induction firings generalizing commands with
  | nil => exact Surroundings.ensures_done (stable_heard pipe _) fun _ heard => heard
  | cons firing rest ih =>
    refine Surroundings.ensures_bind (ensures_execute commands firing pipe) fun done => ?_
    have reports : (Routine.reportAll (Commands.refusals firing done.1)).Asks (· ≠ .drain pipe) :=
      Routine.asks_reportAll (fun _ => nofun) _
    refine Surroundings.ensures_bind (ensures_heard reports _) fun _ => ?_
    refine Surroundings.ensures_bind (ih done.2) fun others => ?_
    exact Surroundings.ensures_done (stable_heard pipe _) fun _ heard => heard

/-! ## Turns -/

/-- Reporting does not empty the pipe. -/
theorem asks_reportAll (messages : List Message) (pipe : WakeId) :
    (Routine.reportAll messages).Asks (· ≠ .drain pipe) :=
  Routine.asks_reportAll (fun _ => nofun) messages

/-- Firing leaves the listed commands heard of. -/
theorem ensures_fire (daemon : Daemon) :
    surroundings.Ensures (Heard daemon.childPipe daemon.commands.children) daemon.fire
      fun fired => Heard daemon.childPipe fired.1.commands.children := by
  have clock : (Routine.request .clock).Asks (· ≠ .drain daemon.childPipe) :=
    Routine.asks_request nofun
  refine Surroundings.ensures_bind (ensures_heard clock _) fun now => ?_
  change surroundings.Ensures _ (daemon.fireAt now) _
  rw [Daemon.fireAt_eq]
  refine Surroundings.ensures_bind (ensures_heard (asks_reportAll _ _) _) fun _ => ?_
  refine Surroundings.ensures_bind (ensures_runAll daemon.commands _ _) fun done => ?_
  exact Surroundings.ensures_done (stable_heard _ _) fun _ heard => heard

/-- Handing records on starts no command, and empties a pipe only to end the daemon. -/
theorem ensures_take (daemon : Daemon) (outcome : Outcome) :
    surroundings.Ensures (Heard daemon.childPipe daemon.commands.children) (daemon.take outcome)
      fun taken family => taken.2 = none →
        family.Heard daemon.childPipe taken.1.commands.children := by
  have feeds : (Daemon.feedAll daemon.panel outcome.events).Asks (· ≠ .drain daemon.childPipe) :=
    Daemon.asks_feedAll (fun _ => nofun) daemon.panel outcome.events
  refine Surroundings.ensures_bind (ensures_heard feeds _) fun fed => ?_
  cases fed with
  | none => exact Surroundings.ensures_done (stable_heard _ _) fun _ _ none => nomatch none
  | some panel =>
    dsimp only
    split
    · intro family taken last _ leads none
      obtain ⟨_, done⟩ := leads.yields
      cases done
      cases none
    · exact Surroundings.ensures_done (stable_heard _ _) fun _ heard _ => heard

/-- A turn that goes on leaves the listed commands heard of once its records have been handed on. -/
theorem ensures_handOn (daemon : Daemon) (fired : FireOutcome) (outcome : Outcome) :
    surroundings.Ensures (Heard daemon.childPipe daemon.commands.children)
      (daemon.handOn fired outcome) fun handed family => handed.2 = none →
        family.Heard daemon.childPipe handed.1.commands.children := by
  rw [Daemon.handOn]
  split
  · exact Surroundings.ensures_done (stable_heard _ _) fun _ _ none => by cases none
  · split
    · exact Surroundings.ensures_done (stable_heard _ _) fun _ _ none => by cases none
    · exact ensures_take daemon outcome

/-- Whatever the wait came to, its turn leaves the listed commands heard of. -/
theorem ensures_conclude (daemon : Daemon) (result : Except InputError Outcome) :
    surroundings.Ensures (Hears · daemon.childPipe) (daemon.conclude result)
      fun concluded family => concluded.2 = none →
        family.Heard daemon.childPipe concluded.1.commands.children := by
  cases result with
  | error error =>
    exact Surroundings.ensures_done (fun _ _ => Changes.hears) fun _ _ none => nomatch none
  | ok outcome =>
    refine Surroundings.ensures_bind (ensures_collect daemon outcome).withResult fun collected => ?_
    rintro family concluded last ⟨heard, collects⟩ leads
    obtain ⟨commands, rfl⟩ := Daemon.eq_of_collect collects
    obtain ⟨⟨retired, fired⟩, between, fires, hands⟩ := Surroundings.leads_bind.mp leads
    have kept := ensures_fire _ heard fires
    obtain ⟨panel, started, rfl⟩ := Daemon.eq_of_fire fires.yields
    exact ensures_handOn { daemon with panel := panel, commands := started } fired outcome kept
      hands

/-- A turn leaves the listed commands heard of, if only the pipe hears of them before. -/
theorem ensures_turn (daemon : Daemon) :
    surroundings.Ensures (Hears · daemon.childPipe) daemon.turn fun turned family =>
      turned.2 = none → family.Heard daemon.childPipe turned.1.commands.children := by
  rw [Daemon.turn_eq]
  refine Surroundings.ensures_bind (ensures_hears daemon.wait daemon.childPipe).withResult
    fun waited => ?_
  rintro family turned last ⟨hears, waits⟩ leads
  obtain ⟨waited, result⟩ := waited
  obtain ⟨monitor, _, rfl, _⟩ := Daemon.eq_of_wait waits
  exact ensures_conclude { daemon with monitor := monitor } result hears leads

/-- When a daemon starts, its pipe hears of the end of commands, and it has none. -/
theorem ensures_start (required waited : List Path) (bindings : Bindings) (window : Span)
    (mode : CommandMode) (testMode : Bool) :
    surroundings.Ensures (fun _ => True)
      (Daemon.start required waited bindings window mode testMode) fun started family =>
        ∀ daemon, started = .ok daemon →
          family.Heard daemon.childPipe daemon.commands.children := by
  refine Surroundings.ensures_bind (Surroundings.ensures_true _) fun started => ?_
  cases started with
  | error error =>
    exact Surroundings.ensures_done Surroundings.stable_true fun _ _ _ failed => nomatch failed
  | ok monitor =>
    refine Surroundings.ensures_bind (Surroundings.ensures_true _) fun stop => ?_
    cases stop with
    | error cause =>
      exact Surroundings.ensures_done Surroundings.stable_true fun _ _ _ failed => nomatch failed
    | ok stopPipe =>
      have opened (family : Family) (answer : Except SignalPipeError WakeId) (next : Family)
          (_ : True) (answers : Answers (.openSignalPipe [childSignal]) family answer next) :
          ∀ pipe, answer = .ok pipe → next.Hears pipe := by
        rintro pipe rfl
        obtain ⟨last, rfl⟩ := answers
        exact ⟨⟨[childSignal], false, false⟩, by simp [last], List.mem_singleton_self _⟩
      have stable (answer : Except SignalPipeError WakeId) : surroundings.Stable fun family =>
          ∀ pipe, answer = .ok pipe → family.Hears pipe :=
        fun _ _ changes hears pipe same => Changes.hears changes (hears pipe same)
      refine Surroundings.ensures_ask Surroundings.stable_true opened fun child => ?_
      cases child with
      | error cause =>
        exact Surroundings.ensures_done (stable _) fun _ _ _ failed => nomatch failed
      | ok childPipe =>
        change surroundings.Ensures _ (Routine.report _ >>= fun _ => Routine.done _) _
        refine (Surroundings.ensures_bind (ensures_hears _ childPipe) fun _ => ?_).mono
          (fun _ hears => hears childPipe rfl) fun _ _ holds => holds
        refine Surroundings.ensures_done (fun _ _ => Changes.hears)
          fun family hears daemon started => ?_
        cases started
        exact .nil hears

/-! ## Waiting -/

/-- A pipe that holds something is readable. -/
theorem readiness_of_filled (filled : family.Filled pipe) : family.readiness pipe = .readable := by
  obtain ⟨inside, found, holds⟩ := filled
  rw [readiness, found, Option.any_some, holds, Bool.true_or, if_pos rfl]

/-- How descriptors come back from a wait when every input has something to read. -/
def readinessOf (family : Family) : Descriptor → Readiness
  | .device _ => .readable
  | .notices => .idle
  | .wake pipe => family.readiness pipe

/-- A wait for a pipe that holds something ends at once. -/
theorem wakes_of_filled {descriptors : List Descriptor} (filled : family.Filled pipe)
    (waits : .wake pipe ∈ descriptors) :
    surroundings.Wakes family descriptors (.wake pipe) := by
  have readable := readiness_of_filled filled
  intro timeout
  constructor
  · refine ⟨descriptors.map family.readinessOf, family, rfl, _, rfl, fun _ => rfl, fun _ =>
      ⟨.wake pipe, waits, ?_⟩⟩
    rw [readinessOf, readable]
    exact Readiness.noConfusion
  · rintro readiness next ⟨_, ready, rfl, pipes, _⟩
    rw [← List.map_prod_left_eq_zip]
    exact List.mem_map.mpr ⟨.wake pipe, waits, congrArg (Prod.mk _) ((pipes pipe).trans readable)⟩

/-- What comes of a wait for a pipe that holds something tells of the pipe. -/
theorem woken_of_filled {monitor : Monitor} {timeout : Int} {outcome : Outcome}
    {served : Monitor} {last : Family} (filled : family.Filled pipe)
    (waits : pipe ∈ monitor.wakes)
    (leads : surroundings.Leads (monitor.waitOn timeout) family (served, .ok outcome) last) :
    pipe ∈ outcome.woken := by
  obtain ⟨asked, answer, answered, changes, answers, further⟩ := Surroundings.leads_ask.mp leads
  have stable : surroundings.Stable (Filled · pipe) := fun _ _ => Changes.filled
  have readable := readiness_of_filled (stable.along changes filled)
  cases answer with
  | ok readiness =>
    obtain ⟨_, ready, rfl, pipes, _⟩ := answers
    exact Monitor.mem_woken_of_serveReady waits ((pipes pipe).trans readable) further.yields
  | error cause =>
    obtain ⟨_, prompt, idle⟩ := answers
    have uninterrupted : cause ≠ .interrupted := fun interrupted => by
      rw [idle interrupted pipe (Monitor.mem_descriptors_of_wakes waits)] at readable
      cases readable
    have settles : (monitor.settle (.error cause)).Yields (served, .ok outcome) := further.yields
    rw [Monitor.settle, if_neg (not_or.mpr ⟨uninterrupted, prompt⟩)] at settles
    cases settles

/-! ## A host with one input and one command -/

/-- A host that has room for one command and an input on which a key goes down whenever it is
read. A wait in which nothing gets ready is interrupted. -/
def answer : (request : Request) → Family → request.Answer × Family
  | .openDevice _, family => (.ok ⟨⟨0⟩, none, true⟩, family)
  | .readDevice _, family => (.ok [⟨default, Event.keyKind, 30, 1⟩], family)
  | .openSignalPipe signals, family =>
    (.ok ⟨family.pipes.length⟩, { family with pipes := family.pipes ++ [⟨signals, false, false⟩] })
  | .drain pipe, family => ((), family.drained pipe)
  | .spawn _, family =>
    if ⟨1⟩ ∈ family.running ∨ ⟨1⟩ ∈ family.ended then (.error .wouldBlock, family)
    else (.ok ⟨1⟩, { family with running := ⟨1⟩ :: family.running })
  | .check process, family =>
    if process ∈ family.ended then
      (.ok (some (.exited 0)), { family with ended := family.ended.erase process })
    else (.ok none, family)
  | .runToEnd _, family => (.ok (.exited 0), family.send childSignal)
  | .poll descriptors _, family =>
    if ∃ descriptor ∈ descriptors, family.readinessOf descriptor ≠ .idle then
      (.ok (descriptors.map family.readinessOf), family)
    else (.error .interrupted, family)
  | _, family => (default, family)

/-- Such a host answers as the surroundings allow. -/
theorem answers_answer (request : Request) (family : Family) :
    surroundings.Answers request family (answer request family).1 (answer request family).2 := by
  cases request with
  | openSignalPipe signals => exact ⟨rfl, rfl⟩
  | spawn command =>
    rw [answer]
    split
    · rfl
    · rename_i fresh
      exact ⟨fun runs => fresh (.inl runs), fun ended => fresh (.inr ended), rfl⟩
  | check process =>
    rw [answer]
    split
    · rename_i ended
      exact ⟨ended, rfl⟩
    · rename_i runs
      exact ⟨runs, rfl⟩
  | poll descriptors timeout =>
    rw [answer]
    split
    · rename_i ready
      exact ⟨rfl, _, rfl, fun _ => rfl, fun _ => ready⟩
    · rename_i idle
      exact ⟨rfl, nofun, fun _ pipe waits =>
        Decidable.byContradiction fun ready => idle ⟨.wake pipe, waits, ready⟩⟩
  | _ => rfl

end Family

namespace Daemon

variable {σ : Type} {surroundings : Surroundings σ} {daemon next : Daemon} {ending : Option Ending}

/-- What a daemon does before it waits: it looks up how long it may wait, and the missing inputs
whose turn has come are tried. -/
def prepare (daemon : Daemon) : Routine (Monitor × Int) := do
  let now ← Routine.request .clock
  let wait := daemon.panel.nextWait? now
  Routine.reportAll (Panel.waitMessages wait)
  let monitor ← daemon.monitor.prepare
  pure (monitor, Panel.pollTimeout wait)

/-- A daemon prepares, and then it waits. -/
theorem wait_eq (daemon : Daemon) :
    daemon.wait = daemon.prepare >>= fun prepared =>
      prepared.1.waitOn prepared.2 >>= fun polled =>
        pure ({ daemon with monitor := polled.1 }, polled.2) := by
  simp only [wait, prepare, Monitor.poll_eq, Routine.bind_assoc, Routine.pure_eq, Routine.bind_done]

/-- A daemon that was started in surroundings and has taken turns, and the state that these have
come to. -/
inductive Goes (surroundings : Surroundings σ) : Daemon → σ → Prop where
  /-- The daemon is started. -/
  | start {required waited : List Path} {bindings : Bindings} {window : Span} {mode : CommandMode}
      {testMode : Bool} {daemon : Daemon} {first last : σ}
      (starts : surroundings.Leads (Daemon.start required waited bindings window mode testMode)
        first (.ok daemon) last) : Goes surroundings daemon last
  /-- It takes a turn that is not its last. -/
  | turn {daemon next : Daemon} {state last : σ} (before : Goes surroundings daemon state)
      (turns : surroundings.Leads daemon.turn state (next, none) last) :
      Goes surroundings next last

/-- A daemon waits for the pipe that hears of the end of commands. -/
theorem Goes.waits {state : σ} (goes : Goes surroundings daemon state) :
    daemon.childPipe ∈ daemon.monitor.wakes := by
  induction goes with
  | start starts => exact (wakes_of_start starts.yields).2
  | turn _ turns ih =>
    obtain ⟨_, pipe, wakes⟩ := wakes_of_turn turns.yields
    rwa [pipe, wakes]

/-- Between turns a command that has ended and is still listed is heard of. -/
theorem Goes.heard {state : Family} (goes : Goes Family.surroundings daemon state) :
    state.Heard daemon.childPipe daemon.commands.children := by
  induction goes with
  | start starts => exact Family.ensures_start _ _ _ _ _ _ trivial starts _ rfl
  | turn _ turns ih =>
    rw [(wakes_of_turn turns.yields).2.1]
    exact Family.ensures_turn _ ih.hears turns rfl

/-- Preparing a wait does not change which pipes are waited for. -/
theorem wakes_of_prepare {ready : Monitor} {timeout : Int}
    (prepares : daemon.prepare.Yields (ready, timeout)) : ready.wakes = daemon.monitor.wakes := by
  obtain ⟨_, _, further⟩ := Routine.yields_bind.mp prepares
  obtain ⟨_, _, further⟩ := Routine.yields_bind.mp further
  obtain ⟨monitor, front, done⟩ := Routine.yields_bind.mp further
  cases done
  exact (Monitor.setup_of_prepare front).2.2

/-- Preparing to wait does not empty pipes. -/
theorem asks_prepare (daemon : Daemon) (pipe : WakeId) : daemon.prepare.Asks (· ≠ .drain pipe) := by
  have sought (request : Request) (sought : Source.isSought request = true) :
      request ≠ .drain pipe := by
    rintro rfl
    cases sought
  refine Routine.asks_bind (Routine.asks_request nofun) fun now => ?_
  refine Routine.asks_bind (Family.asks_reportAll _ pipe) fun _ => ?_
  exact Routine.asks_bind ((Monitor.asks_prepare daemon.monitor).mono sought) fun _ => trivial

/-- In some surroundings a turn prepares, then it waits, and then it concludes with what came of the
wait. -/
theorem leads_turn {state last : σ} {turned : Daemon × Option Ending} :
    surroundings.Leads daemon.turn state turned last ↔
      ∃ ready timeout waiting, surroundings.Leads daemon.prepare state (ready, timeout) waiting ∧
        ∃ served result between,
          surroundings.Leads (ready.waitOn timeout) waiting (served, result) between ∧
          surroundings.Leads ({ daemon with monitor := served }.conclude result) between turned
            last := by
  have parts : daemon.turn = daemon.prepare >>= fun prepared =>
      prepared.1.waitOn prepared.2 >>= fun polled =>
        { daemon with monitor := polled.1 }.conclude polled.2 := by
    rw [turn_eq, wait_eq]
    simp only [Routine.bind_assoc, Routine.pure_eq, Routine.bind_done]
  rw [parts, Surroundings.leads_bind]
  constructor
  · rintro ⟨⟨ready, timeout⟩, waiting, prepares, further⟩
    obtain ⟨⟨served, result⟩, between, waits, concludes⟩ := Surroundings.leads_bind.mp further
    exact ⟨ready, timeout, waiting, prepares, served, result, between, waits, concludes⟩
  · rintro ⟨ready, timeout, waiting, prepares, served, result, between, waits, concludes⟩
    exact ⟨(ready, timeout), waiting, prepares,
      Surroundings.leads_bind.mpr ⟨(served, result), between, waits, concludes⟩⟩

/-- Every turn prepares, waits and concludes. Whenever a daemon begins to wait, a command that has
ended and is still listed has left its signal in the pipe. The wait then ends at once, however long
it may last, and unless the round fails it tells of the pipe. -/
theorem child_exit_never_missed {earlier : Family}
    (goes : Goes Family.surroundings daemon earlier) :
    (∀ turned last, Family.surroundings.Leads daemon.turn earlier turned last ↔
      ∃ ready timeout state,
        Family.surroundings.Leads daemon.prepare earlier (ready, timeout) state ∧
        ∃ served result between,
          Family.surroundings.Leads (ready.waitOn timeout) state (served, result) between ∧
          Family.surroundings.Leads ({ daemon with monitor := served }.conclude result) between
            turned last) ∧
    ∀ ready timeout state child,
      Family.surroundings.Leads daemon.prepare earlier (ready, timeout) state →
      child ∈ daemon.commands.children → child ∈ state.ended →
      state.Filled daemon.childPipe ∧
        Family.surroundings.Wakes state ready.descriptors (.wake daemon.childPipe) ∧
        ∀ next outcome last,
          Family.surroundings.Leads (ready.waitOn timeout) state (next, .ok outcome) last →
            daemon.childPipe ∈ outcome.woken := by
  refine ⟨fun _ _ => leads_turn, fun ready timeout state child prepares listed ended => ?_⟩
  have heard := Family.ensures_heard (asks_prepare daemon daemon.childPipe) _ goes.heard prepares
  have filled := heard.filled child listed ended
  have waits : daemon.childPipe ∈ ready.wakes := by
    rw [wakes_of_prepare prepares.yields]
    exact goes.waits
  exact ⟨filled, Family.wakes_of_filled filled (Monitor.mem_descriptors_of_wakes waits),
    fun _ _ _ leads => Family.woken_of_filled filled waits leads⟩

/-- What a daemon listens to that has one input and waits for its two pipes. -/
def listening : Monitor :=
  ⟨[⟨⟨"/dev/input/event0"⟩, false, some ⟨0⟩, some ⟨0⟩, none⟩], [⟨0⟩, ⟨1⟩], false⟩

/-- The tracker of a key whose command runs as soon as it is down. -/
def resting : Tracker := .start ⟨30, none, [⟨.long, 0, "true", false⟩]⟩ ⟨0⟩

/-- A daemon in detached mode with one tracker and some commands. -/
def detached (tracker : Tracker) (children : List ProcessId) : Daemon :=
  ⟨listening, ⟨[tracker]⟩, ⟨.detached, children⟩, ⟨0⟩, ⟨1⟩, false⟩

/-- The tracker once the key is down. -/
def pressed : Tracker :=
  { resting with phase := .pressed, pressedAt := some ⟨0⟩, deadline := some ⟨0⟩ }

/-- The tracker once its command has been decided on. -/
def handled : Tracker :=
  { pressed with phase := .handled, releasedAt := some ⟨0⟩, deadline := none }

/-- The surroundings of that daemon while some commands run. -/
def hosting (running : List ProcessId) : Family :=
  ⟨running, [], [⟨stopSignals, false, false⟩, ⟨[childSignal], false, false⟩]⟩

/-- A command is started in the second turn. -/
theorem goes_detached : Goes Family.surroundings (detached handled [⟨1⟩]) (hosting [⟨1⟩]) := by
  have starts := Surroundings.leads_run Family.answers_answer
    (Daemon.start [⟨"/dev/input/event0"⟩] [] [resting.binding] ⟨0⟩ .detached false) ⟨[], [], []⟩
  have turns := Surroundings.leads_run Family.answers_answer (detached resting []).turn
    (hosting [])
  have fires := Surroundings.leads_run Family.answers_answer (detached pressed []).turn
    (hosting [])
  exact .turn (.turn (.start starts) turns) fires

/-- The surroundings once that command has ended. -/
def exited : Family := ⟨[], [⟨1⟩], [⟨stopSignals, false, false⟩, ⟨[childSignal], true, false⟩]⟩

/-- While the daemon prepares to wait, the command ends. -/
theorem leads_exited :
    Family.surroundings.Leads (detached handled [⟨1⟩]).prepare (hosting [⟨1⟩]) (listening, -1)
      exited := by
  have prepares := Surroundings.leads_run Family.answers_answer (detached handled [⟨1⟩]).prepare
    (hosting [⟨1⟩])
  have runs : ⟨1⟩ ∈ (hosting [⟨1⟩]).running := List.mem_singleton_self _
  have ends : Family.Changes (hosting [⟨1⟩]) exited := Family.Changes.ends runs
  exact prepares.further (.single ends)

/-- A command that ends just before the daemon waits without a limit ends the wait, and the turn
goes on. -/
theorem exit_of_detached :
    ⟨1⟩ ∈ (detached handled [⟨1⟩]).commands.children ∧ ⟨1⟩ ∈ exited.ended ∧
      (exited.Filled ⟨1⟩ ∧ Family.surroundings.Wakes exited listening.descriptors (.wake ⟨1⟩) ∧
        ∀ next outcome last,
          Family.surroundings.Leads (listening.waitOn (-1)) exited (next, .ok outcome) last →
            ⟨1⟩ ∈ outcome.woken) ∧
      ∃ turned last, Family.surroundings.Leads (detached handled [⟨1⟩]).turn (hosting [⟨1⟩]) turned
        last := by
  obtain ⟨parts, missed⟩ := child_exit_never_missed goes_detached
  have waits := Surroundings.leads_run Family.answers_answer (listening.waitOn (-1)) exited
  have concludes := Surroundings.leads_run Family.answers_answer
    ({ detached handled [⟨1⟩] with
      monitor := ((listening.waitOn (-1)).run Family.answer exited).1.1 }.conclude
        ((listening.waitOn (-1)).run Family.answer exited).1.2)
    ((listening.waitOn (-1)).run Family.answer exited).2
  have goesOn := (parts _ _).mpr ⟨_, _, _, leads_exited, _, _, _, waits, concludes⟩
  exact ⟨List.mem_cons_self, List.mem_cons_self,
    missed _ _ _ _ leads_exited List.mem_cons_self List.mem_cons_self, _, _, goesOn⟩

end Daemon

end Keyhold
