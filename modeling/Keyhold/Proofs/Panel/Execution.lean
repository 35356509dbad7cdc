import Keyhold.Proofs.Panel.Product
import Mathlib.Data.List.Basic

/-!
# What an executor is handed

An executor may refuse any firing, and what it refuses may depend on everything that it was asked
before. `Executor.recorded` is the same executor with a record of the firings that it was handed
and of its answers. What the record holds does not depend on the answers:
`batch_handed_over_whole` says that it is the batch of the retirement, that the panel ends as after
the retirement, and that this holds along whole runs. The request to stop does not depend on the
answers either, so it is also made for a command that was refused: `exit_requested_unless_refused`
says when it then differs from a request for commands that ran.
-/

namespace Keyhold

variable {σ ε : Type}

/-- A firing as an executor was handed it, with the executor's answer. -/
structure Handed (ε : Type) where
  firing : Firing
  answer : Except ε Unit

/-- Whether the executor ran the command. -/
def Handed.ran (handed : Handed ε) : Bool := handed.answer.isOk

/-- The executor with a record of the firings that it is handed and of its answers, in order. -/
def Executor.recorded (executor : Executor (StateM σ) ε) :
    Executor (StateM (σ × List (Handed ε))) ε where
  execute firing := fun (world, record) =>
    let (answer, after) := (executor.execute firing).run world
    (answer, after, record ++ [⟨firing, answer⟩])
  explain := executor.explain
  report message := fun (world, record) =>
    let (_, after) := (executor.report message).run world
    ((), after, record)

/-- The answer of an executor to a firing, and what becomes of the executor; a refusal is reported
to it. -/
def Executor.hand (executor : Executor (StateM σ) ε) (firing : Firing) (world : σ) :
    Except ε Unit × σ :=
  match (executor.execute firing).run world with
  | (.ok _, after) => (.ok (), after)
  | (.error cause, after) =>
    let message := refusedMessage firing (executor.explain cause)
    (.error cause, ((executor.report message).run after).2)

/-- The record goes on with every firing and changes no answer. -/
theorem Executor.hand_recorded (executor : Executor (StateM σ) ε) (firing : Firing) (world : σ)
    (record : List (Handed ε)) :
    executor.recorded.hand firing (world, record) =
      ((executor.hand firing world).1, (executor.hand firing world).2,
        record ++ [⟨firing, (executor.hand firing world).1⟩]) := by
  have asked : (executor.recorded.execute firing).run (world, record) =
      (((executor.execute firing).run world).1, ((executor.execute firing).run world).2,
        record ++ [⟨firing, ((executor.execute firing).run world).1⟩]) := rfl
  rw [hand, asked, hand]
  rcases (executor.execute firing).run world with ⟨answer, middle⟩
  cases answer with
  | ok _ => rfl
  | error cause => rfl

/-- A key that has fired does not fire again before it gets a record. -/
theorem Tracker.expire_of_fired {tracker : Tracker} {now : Instant} {firing : Firing}
    (fired : (tracker.expire now).2 = some firing) (later : Instant) :
    ((tracker.expire now).1.expire later).2 = none := by
  cases due : tracker.isDue now with
  | false =>
    rw [expire_of_early due] at fired
    contradiction
  | true =>
    have idle : (tracker.expire now).1.isDue later = false := by
      rw [expire, if_pos due]
      rfl
    rw [expire_of_early idle]

namespace Panel

variable {panel : Panel} {now : Instant} {executor : Executor (StateM σ) ε} {world : σ}

/-- What firing what is due comes to. -/
def fireOutcome (panel : Panel) (now : Instant) (executor : Executor (StateM σ) ε) (world : σ) :
    FireOutcome :=
  ((panel.fireDue now executor).run world).1.2

/-- What the executor is handed when what is due is fired. -/
def handed (panel : Panel) (now : Instant) (executor : Executor (StateM σ) ε) (world : σ) :
    List (Handed ε) :=
  ((panel.fireDue now executor.recorded).run (world, [])).2.2

/-- The panel after an input, where an executor is handed what a retirement fires; none if a
deadline cannot be represented. -/
def drive {m : Type → Type} [Monad m] (executor : Executor m ε) (panel : Panel) :
    Input → m (Option Panel)
  | .feed event => pure (panel.feed? event)
  | .retire now => do
    let (next, _) ← panel.fireDue now executor
    pure (some next)

/-- The panel after inputs, where an executor is handed what the retirements fire, up to the first
input after which a deadline cannot be represented. -/
def driveAll {m : Type → Type} [Monad m] (executor : Executor m ε) (panel : Panel) :
    List Input → m (Option Panel)
  | [] => pure (some panel)
  | input :: rest => do
    match ← panel.drive executor input with
    | some next => next.driveAll executor rest
    | none => pure none

/-! ## One batch -/

/-- Messages that an executor writes are no firings. -/
theorem run_reports_recorded (executor : Executor (StateM σ) ε) (messages : List Message)
    (world : σ) (record : List (Handed ε)) :
    ∃ after, (messages.forM executor.recorded.report).run (world, record) = ((), after, record) ∧
      (messages.forM executor.report).run world = ((), after) := by
  induction messages generalizing world with
  | nil => exact ⟨world, rfl, rfl⟩
  | cons message rest ih => exact ih ((executor.report message).run world).2

/-- The first firing is handed over, then the others, whatever the answer is. -/
theorem run_runFirings_cons (executor : Executor (StateM σ) ε) (firing : Firing)
    (rest : List Firing) (world : σ) :
    (runFirings executor (firing :: rest)).run world =
      let (outcome, after) := (runFirings executor rest).run (executor.hand firing world).2
      (⟨outcome.fired + 1, firing.exits || outcome.exitRequested⟩, after) := by
  rw [runFirings, StateT.run_bind, Executor.hand]
  rcases (executor.execute firing).run world with ⟨answer, middle⟩
  cases answer with
  | ok _ => rfl
  | error cause => rfl

/-- An executor is handed every firing of a list, one after the other, whatever it answers, and the
outcome counts them all. -/
theorem run_runFirings_recorded (executor : Executor (StateM σ) ε) (firings : List Firing)
    (world : σ) (record : List (Handed ε)) :
    ∃ handed after,
      (runFirings executor.recorded firings).run (world, record) =
        (⟨handed.length, handed.any (·.firing.exits)⟩, after, record ++ handed) ∧
      (runFirings executor firings).run world =
        (⟨handed.length, handed.any (·.firing.exits)⟩, after) ∧
      handed.map Handed.firing = firings := by
  induction firings generalizing world record with
  | nil => exact ⟨[], world, by rw [List.append_nil]; rfl, rfl, rfl⟩
  | cons firing rest ih =>
    let first : Handed ε := ⟨firing, (executor.hand firing world).1⟩
    obtain ⟨others, after, recorded, plain, same⟩ :=
      ih (executor.hand firing world).2 (record ++ [first])
    refine ⟨first :: others, after, ?_, ?_, congrArg (firing :: ·) same⟩
    · rw [run_runFirings_cons, Executor.hand_recorded, recorded, List.append_assoc]
      rfl
    · rw [run_runFirings_cons, plain]
      rfl

/-- Firing what is due is a report of what is retired, and then the firings are handed over. -/
theorem run_fireDue (panel : Panel) (now : Instant) (executor : Executor (StateM σ) ε) (world : σ) :
    (panel.fireDue now executor).run world =
      let (_, told) := ((panel.retireMessages now).forM executor.report).run world
      let (outcome, after) := (runFirings executor (panel.retire now).2).run told
      (((panel.retire now).1, outcome), after) :=
  rfl

/-- An executor is handed the batch of the retirement, whatever it answers. -/
theorem run_fireDue_recorded (panel : Panel) (now : Instant) (executor : Executor (StateM σ) ε)
    (world : σ) (record : List (Handed ε)) :
    ∃ handed after,
      (panel.fireDue now executor.recorded).run (world, record) =
        (((panel.retire now).1, ⟨handed.length, handed.any (·.firing.exits)⟩),
          after, record ++ handed) ∧
      (panel.fireDue now executor).run world =
        (((panel.retire now).1, ⟨handed.length, handed.any (·.firing.exits)⟩), after) ∧
      handed.map Handed.firing = (panel.retire now).2 := by
  obtain ⟨told, reportsRecorded, reports⟩ :=
    run_reports_recorded executor (panel.retireMessages now) world record
  obtain ⟨handed, after, recorded, plain, same⟩ :=
    run_runFirings_recorded executor (panel.retire now).2 told record
  refine ⟨handed, after, ?_, ?_, same⟩
  · rw [run_fireDue, reportsRecorded]
    simp only [recorded]
  · rw [run_fireDue, reports]
    simp only [plain]

/-- What an executor is handed is the batch, in order. -/
theorem map_firing_handed (panel : Panel) (now : Instant) (executor : Executor (StateM σ) ε)
    (world : σ) : (panel.handed now executor world).map Handed.firing = (panel.retire now).2 := by
  obtain ⟨handed, after, recorded, _, same⟩ := panel.run_fireDue_recorded now executor world []
  rw [Panel.handed, recorded]
  exact same

/-- Neither the panel nor the outcome depends on the answers. -/
theorem run_fireDue_eq (panel : Panel) (now : Instant) (executor : Executor (StateM σ) ε)
    (world : σ) :
    ((panel.fireDue now executor).run world).1 = ((panel.retire now).1,
      ⟨(panel.retire now).2.length, (panel.retire now).2.any (·.exits)⟩) := by
  obtain ⟨handed, after, _, plain, same⟩ := panel.run_fireDue_recorded now executor world []
  rw [plain, ← same, List.length_map, List.any_map]
  rfl

/-! ## Runs -/

/-- In one input an executor is handed what the input fires, whatever it answers, and the panel
takes the input as it does without one. -/
theorem run_drive_recorded (executor : Executor (StateM σ) ε) (panel : Panel) (input : Input)
    (world : σ) (record : List (Handed ε)) :
    ∃ handed after,
      (panel.drive executor.recorded input).run (world, record) =
        ((panel.step input).map (·.1), after, record ++ handed) ∧
      (panel.drive executor input).run world = ((panel.step input).map (·.1), after) ∧
      ∀ next firings, panel.step input = some (next, firings) →
        handed.map Handed.firing = firings := by
  cases input with
  | feed event =>
    have unheard : (panel.step (.feed event)).map (·.1) = panel.feed? event := by
      rw [step, Option.map_map]
      exact Option.map_id'
    refine ⟨[], world, ?_, ?_, fun next firings stepped => ?_⟩
    · rw [unheard, List.append_nil]
      rfl
    · rw [unheard]
      rfl
    · obtain ⟨_, _, same⟩ := Option.map_eq_some_iff.mp stepped
      exact congrArg Prod.snd same
  | retire now =>
    obtain ⟨handed, after, recorded, plain, batch⟩ :=
      panel.run_fireDue_recorded now executor world record
    refine ⟨handed, after, ?_, ?_, fun next firings stepped => ?_⟩
    · rw [drive, StateT.run_bind, recorded]
      rfl
    · rw [drive, StateT.run_bind, plain]
      rfl
    · rw [batch]
      exact congrArg Prod.snd (Option.some.inj stepped)

/-- Along a run an executor is handed what all inputs fire, whatever it answers, and the panel goes
through the run as it does without one. -/
theorem run_driveAll_recorded (executor : Executor (StateM σ) ε) (panel : Panel)
    (inputs : List Input) (world : σ) (record : List (Handed ε)) :
    ∃ handed after,
      (panel.driveAll executor.recorded inputs).run (world, record) =
        ((panel.run? inputs).map (·.2), after, record ++ handed) ∧
      (panel.driveAll executor inputs).run world = ((panel.run? inputs).map (·.2), after) ∧
      ∀ moments last, panel.run? inputs = some (moments, last) →
        handed.map Handed.firing = moments.flatMap Moment.output := by
  induction inputs generalizing panel world record with
  | nil =>
    refine ⟨[], world, by rw [List.append_nil]; rfl, rfl, fun moments last ran => ?_⟩
    cases ran
    rfl
  | cons input rest ih =>
    obtain ⟨own, middle, ownRecorded, ownPlain, ownBatch⟩ :=
      panel.run_drive_recorded executor input world record
    rw [driveAll, driveAll, StateT.run_bind, StateT.run_bind, ownRecorded, ownPlain]
    cases stepped : panel.step input with
    | none =>
      have stopped : panel.run? (input :: rest) = none := run?_of_stuck stepped rest
      rw [stopped]
      exact ⟨own, middle, rfl, rfl, nofun⟩
    | some result =>
      obtain ⟨next, firings⟩ := result
      have goesOn : panel.run? (input :: rest) = (next.run? rest).map fun (moments, last) =>
          (⟨panel, input, next, firings⟩ :: moments, last) := run?_of_step stepped rest
      obtain ⟨others, after, recorded, plain, batches⟩ := ih next middle (record ++ own)
      refine ⟨own ++ others, after, ?_, ?_, fun moments last ran => ?_⟩
      · rw [goesOn, Option.map_map, ← List.append_assoc]
        exact recorded
      · rw [goesOn, Option.map_map]
        exact plain
      · rw [goesOn] at ran
        obtain ⟨⟨later, final⟩, further, same⟩ := Option.map_eq_some_iff.mp ran
        cases same
        rw [List.map_append, List.flatMap_cons, ownBatch next firings stepped,
          batches later last further]

/-- Only keys that are not of the batch fire before there is another record. -/
theorem firings_retire_retire (panel : Panel) (now later : Instant) :
    ((panel.retire now).1.retire later).2 =
      (panel.keys.filter fun tracker => (tracker.expire now).2.isNone).filterMap fun tracker =>
        ((tracker.expire now).1.expire later).2 := by
  rw [retire, retire, List.filterMap_map, List.filterMap_filter]
  refine List.filterMap_congr fun tracker _ => ?_
  cases fired : (tracker.expire now).2 with
  | none => rfl
  | some firing => exact Tracker.expire_of_fired fired later

/-- Whatever an executor answers, it is handed the batch of the retirement: every firing once, in
configuration order. All of them are counted and the panel ends as after the retirement, so that
only other keys fire before there is another record. Along a run the executor is handed the firings
of its retirements, and the panel ends where the run ends without an executor. -/
theorem batch_handed_over_whole (panel : Panel) (now : Instant)
    (executor : Executor (StateM σ) ε) (world : σ) :
    (∃ after,
      (panel.fireDue now executor).run world =
        (((panel.retire now).1, panel.fireOutcome now executor world), after) ∧
      (panel.fireDue now executor.recorded).run (world, []) =
        (((panel.retire now).1, panel.fireOutcome now executor world), after,
          panel.handed now executor world)) ∧
    (panel.handed now executor world).map Handed.firing = (panel.retire now).2 ∧
    ((panel.retire now).2.map Firing.code).Sublist (panel.keys.map Tracker.code) ∧
    (panel.fireOutcome now executor world).fired = (panel.retire now).2.length ∧
    (∀ later, ((panel.retire now).1.retire later).2 =
      (panel.keys.filter fun tracker => (tracker.expire now).2.isNone).filterMap fun tracker =>
        ((tracker.expire now).1.expire later).2) ∧
    ∀ inputs, ∃ handed after,
      (panel.driveAll executor inputs).run world = ((panel.run? inputs).map (·.2), after) ∧
      (panel.driveAll executor.recorded inputs).run (world, []) =
        ((panel.run? inputs).map (·.2), after, handed) ∧
      ∀ moments last, panel.run? inputs = some (moments, last) →
        handed.map Handed.firing = moments.flatMap Moment.output := by
  obtain ⟨handed, after, recorded, plain, batch⟩ :=
    panel.run_fireDue_recorded now executor world []
  have isHanded : panel.handed now executor world = handed := by
    rw [Panel.handed, recorded, List.nil_append]
  have isOutcome : panel.fireOutcome now executor world =
      ⟨handed.length, handed.any (·.firing.exits)⟩ := by
    rw [fireOutcome, plain]
  rw [isHanded, isOutcome]
  refine ⟨⟨after, plain, recorded⟩, batch, codes_retire panel now, ?_,
    panel.firings_retire_retire now, fun inputs => ?_⟩
  · rw [← batch, List.length_map]
  · obtain ⟨all, final, recordedAll, plainAll, batches⟩ :=
      run_driveAll_recorded executor panel inputs world []
    exact ⟨all, final, plainAll, recordedAll, batches⟩

/-- Three keys, two of which stop the daemon when they are held. -/
def stoppingKeys : Bindings :=
  [⟨116, none, [⟨.long, 0, "A", true⟩]⟩, ⟨30, none, [⟨.short, 1000, "C", false⟩]⟩,
    ⟨31, none, [⟨.long, 1, "D", true⟩]⟩]

/-- The panel of the three keys, two of them held and one just released. -/
def stoppingPanel : Panel :=
  (((start stoppingKeys .zero).run? [.feed ⟨⟨0⟩, 1, 30, 1⟩, .feed ⟨⟨5000000⟩, 1, 116, 1⟩,
    .feed ⟨⟨5000000⟩, 1, 30, 0⟩, .feed ⟨⟨5000000⟩, 1, 31, 1⟩]).get (by decide)).2

/-- An executor that refuses the first firing and every other one after it. -/
def fickle : Executor (StateM Nat) String where
  execute _ := fun count =>
    (if count % 2 = 0 then .error "refused" else .ok (), count + 1)
  explain cause := cause
  report _ := pure ()

/-- The statement on batches at three firings, the first of which stops the daemon and is refused:
the others are handed over all the same. -/
theorem batch_of_stoppingPanel :
    (stoppingPanel.handed ⟨6000000⟩ fickle 0).map (fun handed =>
        (handed.firing.command, handed.ran)) = [("A", false), ("C", true), ("D", false)] ∧
    (stoppingPanel.handed ⟨6000000⟩ fickle 0).map Handed.firing =
      (stoppingPanel.retire ⟨6000000⟩).2 ∧
    (stoppingPanel.fireOutcome ⟨6000000⟩ fickle 0).fired = 3 := by
  obtain ⟨_, batch, _, count, _⟩ := batch_handed_over_whole stoppingPanel ⟨6000000⟩ fickle 0
  exact ⟨rfl, batch, count⟩

/-! ## The request to stop -/

/-- The request to stop is made exactly when a firing of the batch stops the daemon, be its command
refused or not. So it tells of a command that ran, unless there are firings in the batch that stop
the daemon and all of them were refused. -/
theorem exit_requested_unless_refused (panel : Panel) (now : Instant)
    (executor : Executor (StateM σ) ε) (world : σ) :
    ((panel.fireOutcome now executor world).exitRequested = true ↔
      ∃ firing ∈ (panel.retire now).2, firing.exits = true) ∧
    (((panel.fireOutcome now executor world).exitRequested = true ↔
        ∃ handed ∈ panel.handed now executor world,
          handed.firing.exits = true ∧ handed.ran = true) ↔
      ((∃ handed ∈ panel.handed now executor world,
          handed.firing.exits = true ∧ handed.ran = false) →
        ∃ handed ∈ panel.handed now executor world,
          handed.firing.exits = true ∧ handed.ran = true)) := by
  have asked : (panel.fireOutcome now executor world).exitRequested = true ↔
      ∃ firing ∈ (panel.retire now).2, firing.exits = true := by
    rw [fireOutcome, run_fireDue_eq, List.any_eq_true]
  have among : (∃ firing ∈ (panel.retire now).2, firing.exits = true) ↔
      ∃ handed ∈ panel.handed now executor world, handed.firing.exits = true := by
    rw [← panel.map_firing_handed now executor world]
    simp only [List.mem_map, exists_exists_and_eq_and]
  refine ⟨asked, ?_⟩
  rw [asked, among]
  constructor
  · rintro whenRan ⟨handed, member, exits, _⟩
    exact whenRan.mp ⟨handed, member, exits⟩
  · intro another
    constructor
    · rintro ⟨handed, member, exits⟩
      cases ran : handed.ran with
      | true => exact ⟨handed, member, exits, ran⟩
      | false => exact another ⟨handed, member, exits, ran⟩
    · rintro ⟨handed, member, exits, _⟩
      exact ⟨handed, member, exits⟩

/-- One key, whose long action stops the daemon. -/
def haltKey : Bindings := [⟨1, none, [⟨.long, 100, "fail:halt", true⟩]⟩]

/-- The panel of the key once it is held. -/
def haltPanel : Panel := ((start haltKey (.ofMillis 10)).feed? ⟨⟨0⟩, 1, 1, 1⟩).get (by decide)

/-- An executor that refuses every firing. -/
def refusing : Executor (StateM Unit) String where
  execute _ := pure (.error "refused")
  explain cause := cause
  report _ := pure ()

/-- A request to stop is made for a command that was refused. -/
theorem exit_requested_for_refused_command :
    ¬ ∀ (σ ε : Type) (panel : Panel) (now : Instant) (executor : Executor (StateM σ) ε)
      (world : σ), (panel.fireOutcome now executor world).exitRequested = true ↔
        ∃ handed ∈ panel.handed now executor world,
          handed.firing.exits = true ∧ handed.ran = true := by
  intro always
  have claimed := always Unit String haltPanel ⟨100000000⟩ refusing ()
  obtain ⟨handed, member, _, ran⟩ := claimed.mp rfl
  have alone : haltPanel.handed ⟨100000000⟩ refusing () =
      [⟨⟨1, none, "fail:halt", true, 100⟩, .error "refused"⟩] := rfl
  rw [alone] at member
  rw [List.mem_singleton.mp member] at ran
  contradiction

end Panel

end Keyhold
