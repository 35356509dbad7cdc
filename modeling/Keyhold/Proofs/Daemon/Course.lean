import Keyhold.Application
import Keyhold.Proofs.Daemon.Commands

/-!
# Runs in their turns

The log of a run is that of its start, then those of its turns, and then that of its end (`Ran`).
The log of a turn consists of those of its stages: it waits, collects commands, reads the clock,
runs what has become due, and hands its records on (`Turn.Passes`). Every exchange with the system
has its place there, so what a turn is said to have read or found is what the answers in its log
made of it.
-/

namespace Keyhold

open Keyhold.System

namespace Daemon

/-! ## Turns -/

/-- A turn that did not fail while it waited, with the logs of its stages. -/
structure Turn where
  before : Daemon
  waits : List Exchange
  /-- What the wait brought. -/
  outcome : Outcome
  collects : List Exchange
  /-- When deadlines are retired. -/
  now : Instant
  fires : List Exchange
  hands : List Exchange
  after : Daemon
  ending : Option Ending

namespace Turn

/-- The logs of the stages one after another. -/
def log (turn : Turn) : List Exchange :=
  turn.waits ++ (turn.collects ++ (⟨.clock, turn.now⟩ :: turn.fires ++ turn.hands))

/-- Whether a turn goes through its stages, each with its log. -/
def Passes (turn : Turn) : Prop :=
  ∃ waited collected retired fired,
    turn.before.wait.Shows Exchange.view turn.waits (waited, .ok turn.outcome) ∧
    (waited.collect turn.outcome).Shows Exchange.view turn.collects collected ∧
    (collected.fireAt turn.now).Shows Exchange.view turn.fires (retired, fired) ∧
    (retired.handOn fired turn.outcome).Shows Exchange.view turn.hands (turn.after, turn.ending)

end Turn

variable {daemon next last : Daemon} {ending : Option Ending} {log : List Exchange} {limit : Nat}

/-- The stages make a turn of the daemon. -/
theorem Turn.Passes.shows {turn : Turn} (passes : turn.Passes) :
    turn.before.turn.Shows Exchange.view turn.log (turn.after, turn.ending) := by
  obtain ⟨waited, collected, retired, fired, waits, collects, fires, hands⟩ := passes
  have reads : collected.fire.Shows Exchange.view (⟨.clock, turn.now⟩ :: turn.fires)
      (retired, fired) := ⟨turn.now, turn.fires, rfl, fires⟩
  have concludes : (waited.conclude (.ok turn.outcome)).Shows Exchange.view
      (turn.collects ++ (⟨.clock, turn.now⟩ :: turn.fires ++ turn.hands))
      (turn.after, turn.ending) :=
    Routine.shows_bind.mpr ⟨collected, _, _, rfl, collects,
      Routine.shows_bind.mpr ⟨(retired, fired), _, _, rfl, reads, hands⟩⟩
  rw [turn_eq]
  exact Routine.shows_bind.mpr ⟨(waited, .ok turn.outcome), _, _, rfl, waits, concludes⟩

/-- A turn of the daemon fails while it waits, or it goes through its stages. -/
theorem Turn.passes_of_shows (shows : daemon.turn.Shows Exchange.view log (next, ending)) :
    (∃ error, daemon.wait.Shows Exchange.view log (next, .error error) ∧
      ending = some (endingOf next.testMode error)) ∨
    ∃ turn : Turn, turn.before = daemon ∧ turn.after = next ∧ turn.ending = ending ∧
      turn.log = log ∧ turn.Passes := by
  rw [turn_eq] at shows
  obtain ⟨⟨waited, result⟩, waits, _, rfl, front, concludes⟩ := Routine.shows_bind.mp shows
  cases result with
  | error error =>
    obtain ⟨rfl, done⟩ := concludes
    cases done
    rw [List.append_nil]
    exact .inl ⟨error, front, rfl⟩
  | ok outcome =>
    obtain ⟨collected, collects, _, rfl, gathers, further⟩ := Routine.shows_bind.mp concludes
    obtain ⟨⟨retired, fired⟩, _, hands, rfl, reads, handsOn⟩ := Routine.shows_bind.mp further
    obtain ⟨now, fires, rfl, retires⟩ := reads
    exact .inr ⟨⟨daemon, waits, outcome, collects, now, fires, hands, next, ending⟩, rfl, rfl, rfl,
      rfl, waited, collected, retired, fired, front, gathers, retires, handsOn⟩

/-! ## Turns one after another -/

/-- Whether a daemon goes through turns within a limit, with a log, up to an ending. There is no
ending where the limit is reached. -/
inductive Went : Nat → Daemon → List Turn → Option Ending → List Exchange → Daemon → Prop where
  /-- No further turn is taken. -/
  | limit {daemon : Daemon} : Went 0 daemon [] none [] daemon
  /-- The wait of a turn failed. -/
  | failed {limit : Nat} {daemon next : Daemon} {log : List Exchange} {error : InputError}
      (waits : daemon.wait.Shows Exchange.view log (next, .error error)) :
      Went (limit + 1) daemon [] (some (endingOf next.testMode error)) log next
  /-- A turn was the last. -/
  | last {limit : Nat} {turn : Turn} {ending : Ending} (passes : turn.Passes)
      (ends : turn.ending = some ending) :
      Went (limit + 1) turn.before [turn] (some ending) turn.log turn.after
  /-- A turn was followed by others. -/
  | onward {limit : Nat} {turn : Turn} {rest : List Turn} {ending : Option Ending}
      {log : List Exchange} {last : Daemon} (passes : turn.Passes) (goesOn : turn.ending = none)
      (further : Went limit turn.after rest ending log last) :
      Went (limit + 1) turn.before (turn :: rest) ending (turn.log ++ log) last

/-- What a daemon goes through is what it does. -/
theorem Went.shows {turns : List Turn} (went : Went limit daemon turns ending log last) :
    (daemon.turns limit).Shows Exchange.view log (last, ending) := by
  induction went with
  | limit => exact ⟨rfl, rfl⟩
  | @failed limit daemon next log error waits =>
    have turns : daemon.turn.Shows Exchange.view log
        (next, some (endingOf next.testMode error)) := by
      rw [turn_eq]
      exact Routine.shows_bind.mpr ⟨_, _, [], (List.append_nil _).symm, waits, rfl, rfl⟩
    exact Routine.shows_bind.mpr ⟨_, _, [], (List.append_nil _).symm, turns, rfl, rfl⟩
  | last passes ends =>
    have turns := passes.shows
    rw [ends] at turns
    exact Routine.shows_bind.mpr ⟨_, _, [], (List.append_nil _).symm, turns, rfl, rfl⟩
  | onward passes goesOn _ ih =>
    have turns := passes.shows
    rw [goesOn] at turns
    exact Routine.shows_bind.mpr ⟨_, _, _, rfl, turns, ih⟩

/-- What a daemon does is what it goes through. -/
theorem went_of_shows (shows : (daemon.turns limit).Shows Exchange.view log (last, ending)) :
    ∃ turns, Went limit daemon turns ending log last := by
  induction limit generalizing daemon log with
  | zero =>
    obtain ⟨rfl, done⟩ := shows
    cases done
    exact ⟨[], .limit⟩
  | succ limit ih =>
    obtain ⟨⟨middle, stop⟩, _, _, rfl, front, further⟩ := Routine.shows_bind.mp shows
    rcases Turn.passes_of_shows front with ⟨error, waits, rfl⟩ | ⟨turn, rfl, rfl, rfl, rfl, passes⟩
    · obtain ⟨rfl, done⟩ := further
      cases done
      rw [List.append_nil]
      exact ⟨[], .failed waits⟩
    · cases ends : turn.ending with
      | some cause =>
        rw [ends] at further
        obtain ⟨rfl, done⟩ := further
        cases done
        rw [List.append_nil]
        exact ⟨[turn], .last passes ends⟩
      | none =>
        rw [ends] at further
        obtain ⟨turns, went⟩ := ih further
        exact ⟨turn :: turns, .onward passes ends went⟩

/-- A turn of a run is its last one, or it does not end and the run goes on from what it came to. -/
theorem Went.split {turns earlier later : List Turn} {turn : Turn}
    (went : Went limit daemon turns ending log last) (parts : turns = earlier ++ turn :: later) :
    turn.Passes ∧
      ((turn.ending ≠ none ∧ later = [] ∧ ending = turn.ending) ∨
        turn.ending = none ∧ ∃ left rest, Went left turn.after later ending rest last) := by
  induction earlier generalizing limit daemon turns log with
  | nil =>
    rw [List.nil_append] at parts
    cases went with
    | limit => cases parts
    | failed waits => cases parts
    | last passes ends =>
      cases parts
      exact ⟨passes, .inl ⟨by simp [ends], rfl, ends.symm⟩⟩
    | onward passes goesOn further =>
      cases parts
      exact ⟨passes, .inr ⟨goesOn, _, _, further⟩⟩
  | cons first earlier ih =>
    cases went with
    | limit => cases parts
    | failed waits => cases parts
    | last passes ends => cases earlier <;> cases parts
    | onward passes goesOn further =>
      cases parts
      exact ih further rfl

/-- Each turn begins with what the one before it came to. -/
theorem Went.before_eq {turn : Turn} {rest : List Turn}
    (went : Went limit daemon (turn :: rest) ending log last) : turn.before = daemon := by
  cases went <;> rfl

/-- What every turn keeps holds whenever a turn begins. -/
theorem Went.kept {turns : List Turn} (went : Went limit daemon turns ending log last)
    (holds : Daemon → Prop) (start : holds daemon)
    (keeps : ∀ turn : Turn, turn.Passes → holds turn.before → holds turn.after) :
    ∀ turn ∈ turns, holds turn.before := by
  induction went with
  | limit => exact fun _ member => nomatch member
  | failed _ => exact fun _ member => nomatch member
  | last _ _ => exact List.forall_mem_singleton.mpr start
  | onward passes _ _ ih =>
    exact List.forall_mem_cons.mpr ⟨start, ih (keeps _ passes start)⟩

/-- What a daemon does behind its last turn: it reports how it ended and lets go of the commands. -/
def close (daemon : Daemon) (ending : Option Ending) : Routine Unit := do
  Routine.reportAll ((ending.map Ending.messages).getD [])
  daemon.commands.close

/-- A run is its turns and what is done behind them. -/
theorem run_eq (daemon : Daemon) (limit : Nat) :
    daemon.run limit = daemon.turns limit >>= fun ended =>
      ended.1.close ended.2 >>= fun _ => pure ended.2 := by
  simp only [run, close, Routine.bind_assoc]

/-! ## Hosts -/

section Hosts

variable {σ : Type} (answer : (request : Request) → σ → request.Answer × σ)

/-- The turn that a host leads a daemon through, unless the wait fails. -/
def turnOn? (daemon : Daemon) (host : σ) : Option Turn :=
  let waited := daemon.wait.run answer host
  match waited.1.2 with
  | .error _ => none
  | .ok outcome =>
    let collected := (waited.1.1.collect outcome).run answer waited.2
    let reading := answer .clock collected.2
    let fired := (collected.1.fireAt reading.1).run answer reading.2
    let handed := (fired.1.1.handOn fired.1.2 outcome).run answer fired.2
    some {
      before := daemon
      waits := daemon.wait.trail Exchange.view answer host
      outcome := outcome
      collects := (waited.1.1.collect outcome).trail Exchange.view answer waited.2
      now := reading.1
      fires := (collected.1.fireAt reading.1).trail Exchange.view answer reading.2
      hands := (fired.1.1.handOn fired.1.2 outcome).trail Exchange.view answer fired.2
      after := handed.1.1
      ending := handed.1.2 }

/-- The turns that a host leads a daemon through, within a limit. -/
def turnsOn (daemon : Daemon) (host : σ) : Nat → List Turn
  | 0 => []
  | limit + 1 =>
    match daemon.turnOn? answer host with
    | none => []
    | some turn =>
      turn :: match turn.ending with
        | none => turn.after.turnsOn (daemon.turn.run answer host).2 limit
        | some _ => []

/-- Where the wait does not fail, a host leads a daemon through a turn. -/
theorem passes_of_turnOn? {host : σ} {turn : Turn}
    (leads : daemon.turnOn? answer host = some turn) : turn.before = daemon ∧ turn.Passes := by
  have waits : daemon.wait.Shows Exchange.view _ _ := Routine.shows_run answer daemon.wait host
  unfold turnOn? at leads
  generalize daemon.wait.run answer host = waited at leads waits
  obtain ⟨⟨waited, result⟩, behind⟩ := waited
  cases result with
  | error error => cases leads
  | ok outcome =>
    cases leads
    exact ⟨rfl, waited, _, _, _, waits, Routine.shows_run answer _ _,
      Routine.shows_run answer _ _, Routine.shows_run answer _ _⟩

/-- Where a host leads a daemon through no turn, the wait fails. -/
theorem failed_of_turnOn? {host : σ} (leads : daemon.turnOn? answer host = none) :
    ∃ next error log, daemon.wait.Shows Exchange.view log (next, .error error) := by
  have waits : daemon.wait.Shows Exchange.view _ _ := Routine.shows_run answer daemon.wait host
  unfold turnOn? at leads
  generalize daemon.wait.run answer host = waited at leads waits
  obtain ⟨⟨waited, result⟩, behind⟩ := waited
  cases result with
  | error error => exact ⟨waited, error, _, waits⟩
  | ok outcome => cases leads

/-- A daemon goes through the turns that a host leads it through. -/
theorem went_on (daemon : Daemon) (host : σ) (limit : Nat) :
    ∃ ending log last, Went limit daemon (daemon.turnsOn answer host limit) ending log last := by
  induction limit generalizing daemon host with
  | zero => exact ⟨none, [], daemon, .limit⟩
  | succ limit ih =>
    rw [turnsOn]
    cases leads : daemon.turnOn? answer host with
    | none =>
      obtain ⟨next, error, log, waits⟩ := failed_of_turnOn? answer leads
      exact ⟨_, log, next, .failed waits⟩
    | some turn =>
      obtain ⟨rfl, passes⟩ := passes_of_turnOn? answer leads
      dsimp only
      cases ends : turn.ending with
      | some ending => exact ⟨some ending, turn.log, turn.after, .last passes ends⟩
      | none =>
        obtain ⟨ending, log, last, went⟩ := ih turn.after (turn.before.turn.run answer host).2
        exact ⟨ending, turn.log ++ log, last, .onward passes ends went⟩

end Hosts

end Daemon

namespace Application

open Daemon

variable {application : Application} {limit : Nat} {log : List Exchange}
  {result : Except ApplicationError Unit} {daemon : Daemon} {turns : List Turn}
  {ending : Option Ending}

/-- Gets the daemon of the application ready. -/
def ready (application : Application) : Routine (Except StartError Daemon) :=
  Daemon.start application.inputs application.waited application.bindings application.window
    application.commandMode application.options.testMode

/-- Whether a log is that of a run that gets a daemon ready, goes through turns, and ends. -/
def Ran (application : Application) (limit : Nat) (log : List Exchange) (daemon : Daemon)
    (turns : List Turn) (ending : Option Ending) : Prop :=
  ∃ opening turning closing last, log = opening ++ (turning ++ closing) ∧
    application.ready.Shows Exchange.view opening (.ok daemon) ∧
    Went limit daemon turns ending turning last ∧
    (last.close ending).Shows Exchange.view closing ()

/-- A run of the application comes to what its ending means. -/
theorem Ran.shows (ran : application.Ran limit log daemon turns ending) :
    (application.run limit).Shows Exchange.view log (resultOf ending) := by
  obtain ⟨opening, turning, closing, last, rfl, starts, went, closes⟩ := ran
  have runs : (daemon.run limit).Shows Exchange.view (turning ++ closing) ending := by
    rw [run_eq]
    refine Routine.shows_bind.mpr ⟨(last, ending), turning, closing, rfl, went.shows, ?_⟩
    exact Routine.shows_bind.mpr ⟨(), closing, [], (List.append_nil _).symm, closes, rfl, rfl⟩
  refine Routine.shows_bind.mpr ⟨.ok daemon, opening, turning ++ closing, rfl, starts, ?_⟩
  exact Routine.shows_bind.mpr ⟨ending, _, [], (List.append_nil _).symm, runs, rfl, rfl⟩

/-- The application does not get ready, or it goes through a run. -/
theorem ran_of_shows (shows : (application.run limit).Shows Exchange.view log result) :
    (∃ cause, application.ready.Shows Exchange.view log (.error cause) ∧
      result = .error (.ofStart cause)) ∨
    ∃ daemon turns ending, application.Ran limit log daemon turns ending := by
  obtain ⟨started, opening, _, rfl, starts, further⟩ := Routine.shows_bind.mp shows
  cases started with
  | error cause =>
    obtain ⟨rfl, rfl⟩ := further
    rw [List.append_nil]
    exact .inl ⟨cause, starts, rfl⟩
  | ok daemon =>
    obtain ⟨ending, _, _, rfl, runs, rfl, rfl⟩ := Routine.shows_bind.mp further
    rw [run_eq] at runs
    obtain ⟨⟨last, stop⟩, turning, _, rfl, turns, further⟩ := Routine.shows_bind.mp runs
    obtain ⟨_, closing, _, rfl, closes, rfl, rfl⟩ := Routine.shows_bind.mp further
    obtain ⟨turns, went⟩ := went_of_shows turns
    exact .inr ⟨daemon, turns, stop, opening, turning, closing, last, by simp, starts, went, closes⟩

end Application

end Keyhold
