import Keyhold.Application
import Keyhold.Proofs.Daemon.Commands
import Keyhold.Proofs.Input.Polling
import Keyhold.Proofs.System.Marks

/-!
# Lost inputs in test mode

In test mode the daemon is to stop as soon as an input is lost. What it does to its inputs is
seen in marks: its waits, its reads, and the closing and opening of devices. A lost device is
closed and tried again at once. When the wait told of the loss, or when an input that has to be
there does not come back, the turn is the last. But a device that is lost because reading it
failed is not told to the daemon: where its input opens again, or is waited for, the daemon goes
on (`loss_ends_run_unless_read_failed`).
-/

namespace Keyhold

open Keyhold.System

/-- What the daemon does to its inputs. -/
inductive InputMark where
  /-- It waits. -/
  | waited
  /-- It reads a device, which may fail. -/
  | read (device : DeviceHandle) (intact : Bool)
  /-- It closes a device that was lost. -/
  | closed (device : DeviceHandle)
  /-- It tries to open an input. -/
  | tried (path : Path) (opened : Bool)
  deriving DecidableEq, Repr

namespace InputMark

/-- The mark of a request to an input. Finding nothing to read is no failure. -/
def view : View InputMark
  | .poll _ _, _ => some .waited
  | .readDevice device, .ok _ => some (.read device true)
  | .readDevice device, .error cause => some (.read device (cause = .wouldBlock))
  | .closeDevice device, _ => some (.closed device)
  | .openDevice path, answer => some (.tried path answer.isOk)
  | _, _ => none

/-- Whether a device was closed because reading it failed, and its input opened again or is
waited for. -/
def Excuses (waited : Path → Prop) (earlier : List InputMark) (device : DeviceHandle)
    (later : List InputMark) : Prop :=
  ∃ before path opened rest, earlier = before ++ [.read device false] ∧
    later = .tried path opened :: rest ∧ (opened = true ∨ waited path)

/-- Whether every device that is closed is excused. -/
def Excused (waited : Path → Prop) (marks : List InputMark) : Prop :=
  ∀ earlier device later, marks = earlier ++ .closed device :: later →
    Excuses waited earlier device later

/-- Whether it is an attempt to open an input. -/
def IsTry (mark : InputMark) : Prop := ∃ path opened, mark = .tried path opened

variable {waited : Path → Prop} {marks others : List InputMark}

/-- Where nothing is closed, all that is closed is excused. -/
theorem excused_of_unclosed (unclosed : ∀ device, .closed device ∉ marks) :
    Excused waited marks :=
  fun _ device _ split => absurd (split ▸ List.mem_append_right _ List.mem_cons_self)
    (unclosed device)

/-- Tries close nothing. -/
theorem excused_of_tries (tries : ∀ mark ∈ marks, mark.IsTry) : Excused waited marks := by
  refine excused_of_unclosed fun device member => ?_
  obtain ⟨path, opened, same⟩ := tries _ member
  cases same

/-- A mark of two lists in sequence is in the one or in the other. -/
theorem append_eq_append_cons {first second earlier later : List InputMark} {mark : InputMark}
    (split : first ++ second = earlier ++ mark :: later) :
    (∃ rest, first = earlier ++ mark :: rest ∧ later = rest ++ second) ∨
      ∃ rest, earlier = first ++ rest ∧ second = rest ++ mark :: later := by
  rcases List.append_eq_append_iff.mp split with ⟨middle, rfl, rest⟩ | ⟨middle, front, rest⟩
  · exact .inr ⟨middle, rfl, rest⟩
  · cases middle with
    | nil =>
      rw [List.append_nil] at front
      exact .inr ⟨[], by rw [front, List.append_nil], rest.symm⟩
    | cons head tail =>
      obtain ⟨rfl, rfl⟩ := List.cons_eq_cons.mp rest
      exact .inl ⟨tail, front, rfl⟩

/-- Whatever comes before and after, an excuse is an excuse. -/
theorem Excuses.extend {earlier later : List InputMark} {device : DeviceHandle}
    (excuses : Excuses waited earlier device later) (front back : List InputMark) :
    Excuses waited (front ++ earlier) device (later ++ back) := by
  obtain ⟨before, path, opened, rest, rfl, rfl, excuse⟩ := excuses
  exact ⟨front ++ before, path, opened, rest ++ back, (List.append_assoc _ _ _).symm, rfl, excuse⟩

/-- Excused parts make an excused whole. -/
theorem Excused.append (first : Excused waited marks) (second : Excused waited others) :
    Excused waited (marks ++ others) := by
  intro earlier device later split
  rcases append_eq_append_cons split with ⟨rest, front, rfl⟩ | ⟨rest, rfl, back⟩
  · exact (first earlier device rest front).extend [] others
  · have excuses := (second rest device later back).extend marks []
    rwa [List.append_nil] at excuses

/-- A device that is closed because reading it failed is excused if its input opened again or is
waited for. -/
theorem excused_of_failedRead {device : DeviceHandle} {path : Path} {opened : Bool}
    (excuse : opened = true ∨ waited path) :
    Excused waited [.read device false, .closed device, .tried path opened] := by
  intro earlier closing later split
  rcases earlier with _ | ⟨first, _ | ⟨second, _ | ⟨third, others⟩⟩⟩
  · cases split
  · cases split
    exact ⟨[], path, opened, [], rfl, rfl, excuse⟩
  · cases split
  · simp at split

/-- What is closed after the only wait is not followed by a wait. -/
theorem unwaited_of_split {front back earlier later : List InputMark} {device : DeviceHandle}
    (tries : ∀ mark ∈ front, mark.IsTry) (unwaited : .waited ∉ back)
    (split : front ++ .waited :: back = earlier ++ .closed device :: later) :
    .waited ∉ later := by
  rcases append_eq_append_cons split with ⟨rest, rfl, _⟩ | ⟨rest, rfl, after⟩
  · obtain ⟨path, opened, same⟩ := tries (.closed device)
      (List.mem_append_right _ List.mem_cons_self)
    cases same
  · cases rest with
    | nil => cases after
    | cons first rest =>
      obtain ⟨_, rfl⟩ := List.cons_eq_cons.mp after
      exact fun member => unwaited (List.mem_append_right _ (List.mem_cons_of_mem _ member))

/-- A turn closes only what is excused if it does so behind its wait: attempts and waits close
nothing. -/
theorem excused_of_turn {front back : List InputMark} (tries : ∀ mark ∈ front, mark.IsTry)
    (excused : Excused waited back) : Excused waited (front ++ .waited :: back) := by
  have wait : Excused waited [.waited] := excused_of_unclosed fun device member => by
    cases List.mem_singleton.mp member
  exact (excused_of_tries tries).append (wait.append excused)

/-- Only a wait leaves the mark of one. -/
theorem isPoll_of_waited {request : Request} {answer : request.Answer}
    (seen : .waited ∈ view request answer) :
    ∃ descriptors timeout, request = .poll descriptors timeout := by
  cases request with
  | poll descriptors timeout => exact ⟨descriptors, timeout, rfl⟩
  | readDevice device => cases answer <;> cases seen
  | _ => cases seen

/-- The search for sources only tries to open them. -/
theorem tries_of_asks {α : Type} {routine : Routine α} {result : α}
    (asks : routine.Asks (Source.isSought ·)) (shows : routine.Shows view marks result) :
    ∀ mark ∈ marks, mark.IsTry := by
  refine Routine.forall_marks_of_asks asks ?_ shows
  intro request sought answer mark seen
  cases request with
  | openDevice path => exact ⟨path, answer.isOk, (Option.some.inj seen).symm⟩
  | readDevice device => cases sought
  | poll descriptors timeout => cases sought
  | closeDevice device => cases sought
  | _ => cases seen

/-- Chores of a turn leave no marks. -/
theorem marks_of_chores {α : Type} {routine : Routine α} {result : α}
    (asks : routine.Asks (Daemon.isChore ·)) (shows : routine.Shows view marks result) :
    marks = [] :=
  Routine.marks_of_asks asks (fun request chore answer => by cases request <;> trivial) shows

end InputMark

namespace Source

variable {source opened : Source} {failure : Option InputError} {marks : List InputMark}

/-- An attempt to open a source leaves one mark, with whether it went well. -/
theorem marks_of_tryOpen (shows : source.tryOpen.Shows InputMark.view marks (opened, failure)) :
    marks = [.tried source.path failure.isNone] := by
  obtain ⟨now, _, rfl, answer, _, rfl, further⟩ := shows
  cases answer with
  | ok device =>
    obtain ⟨_, _, rfl, rfl, done⟩ := further
    cases done
    rfl
  | error cause =>
    obtain ⟨rfl, done⟩ := further
    cases done
    rfl

/-- A lost device is closed, and its input tried. Without a failure the input opened again or is
waited for. -/
theorem marks_of_reopenLost {device : DeviceHandle} (held : source.device = some device)
    (shows : source.reopenLost.Shows InputMark.view marks (opened, failure)) :
    ∃ success, marks = [.closed device, .tried source.path success] ∧
      (failure = none → success = true ∨ source.waits = true) := by
  rw [reopenLost_eq, letGo, held] at shows
  obtain ⟨_, _, _, rfl, ⟨_, _, rfl, rfl, _⟩, further⟩ := Routine.shows_bind.mp shows
  obtain ⟨_, _, _, rfl, ⟨_, _, rfl, rfl, _⟩, attempts⟩ := Routine.shows_bind.mp further
  obtain ⟨⟨attempt, refusal⟩, _, _, rfl, tries, settles⟩ := Routine.shows_bind.mp attempts
  have waits : attempt.waits = source.waits :=
    (congrArg (·.2.1) (setup_of_tryOpen tries.yields)).trans rfl
  rw [marks_of_tryOpen tries]
  have silent : (attempt.settleLost refusal).Asks (Daemon.isChore ·) := by
    cases refusal with
    | none => trivial
    | some error =>
      rw [settleLost]
      split <;> exact ⟨rfl, fun _ => trivial⟩
  rw [InputMark.marks_of_chores silent settles]
  refine ⟨refusal.isNone, rfl, fun none => ?_⟩
  cases refusal with
  | none => exact .inl rfl
  | some error =>
    rw [settleLost, waits] at settles
    split at settles
    · rename_i isWaited
      exact .inr isWaited
    · obtain ⟨_, _, _, _, _, _, done⟩ := Routine.shows_bind.mp settles
      cases none
      cases done

/-- Reading closes nothing, and it fails only at a device. -/
theorem marks_of_read {reading : Reading} (shows : source.read.Shows InputMark.view marks reading) :
    (∀ device, .closed device ∉ marks) ∧
      (reading = .broken → ∃ device, source.device = some device ∧
        marks = [.read device false]) := by
  have unclosed {device : DeviceHandle} {intact : Bool} :
      ∀ other, InputMark.closed other ∉ [InputMark.read device intact] := by
    intro other member
    cases List.mem_singleton.mp member
  cases held : source.device with
  | none =>
    rw [read, held] at shows
    obtain ⟨rfl, rfl⟩ := shows
    exact ⟨fun _ => List.not_mem_nil, fun broken => by cases broken⟩
  | some device =>
    rw [read, held] at shows
    obtain ⟨answer, _, rfl, further⟩ := shows
    cases answer with
    | ok reports =>
      obtain ⟨_, _, rfl, _, _, rfl, rfl, rfl⟩ := further
      exact ⟨unclosed, fun broken => by cases broken⟩
    | error cause =>
      simp only [Routine.bind] at further
      split at further
      · obtain ⟨rfl, rfl⟩ := further
        exact ⟨unclosed, fun broken => by cases broken⟩
      · rename_i failed
        obtain ⟨_, _, rfl, rfl, rfl⟩ := further
        refine ⟨unclosed, fun _ => ⟨device, rfl, ?_⟩⟩
        change [InputMark.read device (decide (cause = .wouldBlock))] = _
        rw [decide_eq_false failed]

end Source

namespace Monitor

variable {monitor next : Monitor} {sources others : List Source} {source visited : Source}
  {progress after : Progress} {failure : Option InputError} {marks : List InputMark}
  {waited : Path → Prop}

/-! ## Rounds in marks -/

/-- Serving a slot without a failure either notes a hang-up, or every device that it closes is
excused. -/
theorem excused_of_serveSlot {slot : Slot} {readiness : Readiness}
    (waits : ∀ source ∈ progress.sources, source.waits = true → waited source.path)
    (shows : (serveSlot progress slot readiness).Shows InputMark.view marks (after, none)) :
    (∃ path, after.outcome.hungUp = progress.outcome.hungUp ++ [path]) ∨
      (after.outcome.hungUp = progress.outcome.hungUp ∧ InputMark.Excused waited marks) := by
  have nothing (same : after.outcome.hungUp = progress.outcome.hungUp) (silent : marks = []) :
      after.outcome.hungUp = progress.outcome.hungUp ∧ InputMark.Excused waited marks :=
    ⟨same, InputMark.excused_of_unclosed fun _ member => by rw [silent] at member; cases member⟩
  simp only [serveSlot] at shows
  split at shows
  · obtain ⟨silent, same⟩ := shows
    cases same
    exact .inr (nothing rfl silent)
  · cases slot with
    | wake pipe =>
      obtain ⟨silent, same⟩ := shows
      cases same
      exact .inr (nothing rfl silent)
    | notices =>
      obtain ⟨silent, same⟩ := shows
      cases same
      exact .inr (nothing rfl silent)
    | source position =>
      simp only [serveSource] at shows
      cases found : progress.sources[position]? with
      | none =>
        rw [found] at shows
        obtain ⟨silent, same⟩ := shows
        cases same
        exact .inr (nothing rfl silent)
      | some source =>
        rw [found] at shows
        simp only at shows
        split at shows
        · obtain ⟨⟨reopened, refusal⟩, _, _, _, _, _, same⟩ := Routine.shows_bind.mp shows
          cases same
          exact .inl ⟨source.path, rfl⟩
        · obtain ⟨reading, _, _, rfl, reads, further⟩ := Routine.shows_bind.mp shows
          obtain ⟨unclosed, broken⟩ := Source.marks_of_read reads
          cases reading with
          | events events =>
            obtain ⟨rfl, same⟩ := further
            cases same
            rw [List.append_nil]
            exact .inr ⟨rfl, InputMark.excused_of_unclosed unclosed⟩
          | broken =>
            obtain ⟨device, held, rfl⟩ := broken rfl
            obtain ⟨⟨reopened, refusal⟩, _, _, rfl, reopens, rfl, same⟩ :=
              Routine.shows_bind.mp further
            obtain ⟨success, rfl, spared⟩ := Source.marks_of_reopenLost held reopens
            cases same
            refine .inr ⟨rfl, InputMark.excused_of_failedRead ?_⟩
            exact (spared rfl).imp_right (waits source (List.mem_of_getElem? found))

/-- Sources that are set up alike are waited for alike. -/
theorem waits_of_setup (same : others.map Source.setup = sources.map Source.setup)
    (waits : ∀ source ∈ sources, source.waits = true → waited source.path) :
    ∀ source ∈ others, source.waits = true → waited source.path := by
  intro source member isWaited
  obtain ⟨before, found, alike⟩ := exists_of_setup same member
  have path : before.path = source.path := congrArg Prod.fst alike
  have flag : before.waits = source.waits := congrArg (·.2.1) alike
  rw [← path]
  exact waits before found (flag.trans isWaited)

/-- Where serving all slots notes no hang-up, every device that it closes is excused. -/
theorem excused_of_serve {ready : List (Slot × Readiness)}
    (waits : ∀ source ∈ progress.sources, source.waits = true → waited source.path)
    (shows : (serve progress ready).Shows InputMark.view marks (after, none)) :
    progress.outcome.hungUp <+: after.outcome.hungUp ∧
      (after.outcome.hungUp = progress.outcome.hungUp → InputMark.Excused waited marks) := by
  induction ready generalizing progress marks with
  | nil =>
    obtain ⟨rfl, same⟩ := shows
    cases same
    exact ⟨List.prefix_refl _, fun _ => InputMark.excused_of_unclosed fun _ => List.not_mem_nil⟩
  | cons first rest ih =>
    obtain ⟨⟨middle, refusal⟩, earlier, later, rfl, front, further⟩ := Routine.shows_bind.mp shows
    cases refusal with
    | some error =>
      obtain ⟨_, same⟩ := further
      cases same
    | none =>
      obtain ⟨grows, spared⟩ := ih (waits_of_setup (setup_of_serveSlot front.yields) waits) further
      rcases excused_of_serveSlot waits front with ⟨path, noted⟩ | ⟨kept, excused⟩
      · rw [noted] at grows
        refine ⟨(List.prefix_append _ _).trans grows, fun same => ?_⟩
        have longer := grows.length_le
        rw [same, List.length_append] at longer
        exact absurd longer (by simp)
      · rw [kept] at grows spared
        exact ⟨grows, fun same => excused.append (spared same)⟩

/-- Starting only tries inputs. -/
theorem tries_of_start {required missing : List Path} {started : Except InputError Monitor}
    (shows : (start required missing).Shows InputMark.view marks started) :
    ∀ mark ∈ marks, mark.IsTry := by
  rw [start_eq] at shows
  split at shows
  · rw [shows.1]
    exact fun _ member => absurd member List.not_mem_nil
  · obtain ⟨watching, _, _, rfl, prepares, further⟩ := Routine.shows_bind.mp shows
    obtain ⟨opened, _, _, rfl, opens, rfl, _⟩ := Routine.shows_bind.mp further
    have silent : ((if missing.isEmpty then pure false else startWatching) : Routine Bool).Asks
        fun request => ∀ answer, InputMark.view request answer = none :=
      asks_prelude (fun _ => rfl) (fun _ _ => rfl) missing
    rw [Routine.marks_of_asks silent (fun _ ignored => ignored) prepares, List.append_nil]
    exact InputMark.tries_of_asks (asks_openSources watching _) opens

/-- Serving notices only makes attempts and leaves the outcome of the round as it is. -/
theorem tries_of_serveNotices (shows : (serveNotices progress).Shows InputMark.view marks
    (after, failure)) :
    (∀ mark ∈ marks, mark.IsTry) ∧ after.outcome = progress.outcome := by
  obtain ⟨answer, _, _, rfl, takes, further⟩ := Routine.shows_bind.mp shows
  obtain rfl := marks_of_takeNotices (fun _ => rfl) takes
  cases answer with
  | error error =>
    obtain ⟨rfl, same⟩ := further
    cases same
    exact ⟨fun _ member => absurd member List.not_mem_nil, rfl⟩
  | ok notices =>
    obtain ⟨sources, _, _, rfl, visits, rfl, same⟩ := Routine.shows_bind.mp further
    rw [reopenNoticed_eq] at visits
    cases same
    refine ⟨?_, rfl⟩
    rw [List.append_nil]
    exact InputMark.tries_of_asks (asks_visit (asks_answerNotices notices) _) visits

/-- Serving what is ready closes only what is excused, if no input hung up. -/
theorem excused_of_serveAll {ready : List (Slot × Readiness)}
    (waits : ∀ source ∈ sources, source.waits = true → waited source.path)
    (shows : (serveAll sources ready).Shows InputMark.view marks (after, none))
    (unnoted : after.outcome.hungUp = []) : InputMark.Excused waited marks := by
  obtain ⟨⟨middle, refusal⟩, earlier, later, rfl, front, further⟩ := Routine.shows_bind.mp shows
  cases refusal with
  | some error =>
    obtain ⟨_, same⟩ := further
    cases same
  | none =>
    obtain ⟨_, spared⟩ := excused_of_serve waits front
    simp only at further
    split at further
    · obtain ⟨tries, same⟩ := tries_of_serveNotices further
      exact (spared (same ▸ unnoted)).append (InputMark.excused_of_tries tries)
    · obtain ⟨rfl, same⟩ := further
      cases same
      rw [List.append_nil]
      exact spared unnoted

/-- A round tries inputs, waits, and serves what is ready without another wait. Where it ends well
and notes no hang-up, every device that it closes is excused. -/
theorem marks_of_poll {timeout : Int} {result : Except InputError Outcome}
    (waits : ∀ source ∈ monitor.sources, source.waits = true → waited source.path)
    (shows : (monitor.poll timeout).Shows InputMark.view marks (next, result)) :
    ∃ earlier later, marks = earlier ++ .waited :: later ∧ (∀ mark ∈ earlier, mark.IsTry) ∧
      .waited ∉ later ∧
      ∀ outcome, result = .ok outcome → outcome.hungUp = [] → InputMark.Excused waited later := by
  rw [poll_eq] at shows
  obtain ⟨ready, earlier, _, rfl, prepares, waitsOn⟩ := Routine.shows_bind.mp shows
  obtain ⟨answer, later, rfl, settles⟩ := waitsOn
  have unwaited : ∀ mark ∈ later, mark ≠ .waited := by
    refine Routine.forall_marks_of_asks (asks_settle ready answer) ?_ settles
    rintro request serving answer _ seen rfl
    obtain ⟨descriptors, timeout, rfl⟩ := InputMark.isPoll_of_waited seen
    cases serving
  refine ⟨earlier, later, rfl, InputMark.tries_of_asks (asks_prepare monitor) prepares,
    fun member => unwaited _ member rfl, ?_⟩
  rintro outcome rfl unnoted
  cases answer with
  | error cause =>
    have silent : later = [] := by
      change (ready.settle (.error cause)).Shows _ _ _ at settles
      rw [settle] at settles
      split at settles <;> exact settles.1
    rw [silent]
    exact InputMark.excused_of_unclosed fun _ => List.not_mem_nil
  | ok readiness =>
    change (ready.serveReady readiness).Shows _ _ _ at settles
    obtain ⟨⟨progress, refusal⟩, _, _, rfl, serves, further⟩ := Routine.shows_bind.mp settles
    cases refusal with
    | some error =>
      obtain ⟨_, same⟩ := further
      cases same
    | none =>
      obtain ⟨rfl, same⟩ := further
      cases same
      rw [List.append_nil]
      exact excused_of_serveAll (waits_of_setup (setup_of_prepare prepares.yields).1 waits) serves
        unnoted

end Monitor

namespace Daemon

variable {daemon next : Daemon} {ending : Option Ending} {marks : List InputMark}
  {waited : Path → Prop}

/-! ## Turns in marks -/

/-- In test mode a turn goes on only if no input hung up. -/
theorem unnoted_of_hangUp? {outcome : Outcome} (unnoted : hangUp? true outcome = none) :
    outcome.hungUp = [] := by
  rw [hangUp?, if_pos rfl] at unnoted
  exact List.head?_eq_none_iff.mp unnoted

/-- The marks of the wait of a turn are those of the poll. -/
theorem marks_of_wait {afterwards : Daemon} {result : Except InputError Outcome}
    (shows : daemon.wait.Shows InputMark.view marks (afterwards, result)) :
    ∃ timeout monitor, afterwards = { daemon with monitor := monitor } ∧
      (daemon.monitor.poll timeout).Shows InputMark.view marks (monitor, result) := by
  obtain ⟨now, _, _, rfl, ⟨_, _, rfl, rfl, _⟩, further⟩ := Routine.shows_bind.mp shows
  obtain ⟨_, _, _, rfl, reports, rest⟩ := Routine.shows_bind.mp further
  obtain ⟨⟨monitor, _⟩, _, _, rfl, polls, rfl, same⟩ := Routine.shows_bind.mp rest
  rw [InputMark.marks_of_chores (Routine.asks_reportAll (fun _ => rfl) _) reports]
  cases same
  exact ⟨_, monitor, rfl, by simpa using polls⟩

/-- A turn waits once. In test mode it goes on only if every device that it closes is excused. -/
theorem marks_of_turn
    (waits : ∀ source ∈ daemon.monitor.sources, source.waits = true → waited source.path)
    (shows : daemon.turn.Shows InputMark.view marks (next, ending)) :
    next.testMode = daemon.testMode ∧
      (∀ source ∈ next.monitor.sources, source.waits = true → waited source.path) ∧
      ∃ earlier later, marks = earlier ++ .waited :: later ∧ (∀ mark ∈ earlier, mark.IsTry) ∧
        .waited ∉ later ∧
        (daemon.testMode = true → ending = none → InputMark.Excused waited later) := by
  rw [turn_eq] at shows
  obtain ⟨⟨afterwards, result⟩, _, _, rfl, front, concludes⟩ := Routine.shows_bind.mp shows
  rw [InputMark.marks_of_chores (asks_conclude _ _) concludes, List.append_nil]
  obtain ⟨timeout, monitor, rfl, polls⟩ := marks_of_wait front
  obtain ⟨⟨panel, commands, rfl⟩, goesOn⟩ := of_conclude concludes.yields
  obtain ⟨earlier, later, rfl, tries, unwaited, spared⟩ := Monitor.marks_of_poll waits polls
  refine ⟨rfl, Monitor.waits_of_setup (Monitor.setup_of_poll polls.yields).1 waits, earlier, later,
    rfl, tries, unwaited, fun test none => ?_⟩
  obtain ⟨outcome, rfl, unnoted⟩ := goesOn none
  rw [show daemon.testMode = true from test] at unnoted
  exact spared outcome rfl (unnoted_of_hangUp? unnoted)

/-- In test mode a device that is closed before another wait is excused. -/
theorem excuses_of_turns {limit : Nat} {earlier later : List InputMark} {device : DeviceHandle}
    (test : daemon.testMode = true)
    (waits : ∀ source ∈ daemon.monitor.sources, source.waits = true → waited source.path)
    (shows : (daemon.turns limit).Shows InputMark.view marks (next, ending))
    (split : marks = earlier ++ .closed device :: later) (goesOn : .waited ∈ later) :
    InputMark.Excuses waited earlier device later := by
  induction limit generalizing daemon marks earlier with
  | zero =>
    rw [shows.1] at split
    cases earlier <;> cases split
  | succ limit ih =>
    obtain ⟨⟨middle, stop⟩, _, others, rfl, turn, further⟩ := Routine.shows_bind.mp shows
    obtain ⟨kept, waitsOn, front, back, rfl, tries, unwaited, spared⟩ := marks_of_turn waits turn
    cases stop with
    | some stop =>
      obtain ⟨rfl, _⟩ := further
      rw [List.append_nil] at split
      exact absurd goesOn (InputMark.unwaited_of_split tries unwaited split)
    | none =>
      rcases InputMark.append_eq_append_cons split with ⟨rest, inTurn, rfl⟩ | ⟨rest, rfl, after⟩
      · have excused := InputMark.excused_of_turn tries (spared test rfl)
        exact (excused earlier device rest inTurn).extend [] others
      · have excuses := ih (kept.trans test) waitsOn further after
        rw [← List.append_nil later]
        exact excuses.extend _ []

/-- What a run does to its inputs is what its turns do to them. -/
theorem turns_of_run {limit : Nat} (shows : (daemon.run limit).Shows InputMark.view marks ending) :
    ∃ next, (daemon.turns limit).Shows InputMark.view marks (next, ending) := by
  obtain ⟨⟨next, stop⟩, _, _, rfl, turns, further⟩ := Routine.shows_bind.mp shows
  obtain ⟨_, _, _, rfl, reports, rest⟩ := Routine.shows_bind.mp further
  obtain ⟨_, _, _, rfl, closes, rfl, rfl⟩ := Routine.shows_bind.mp rest
  rw [InputMark.marks_of_chores (Routine.asks_reportAll (fun _ => rfl) _) reports,
    InputMark.marks_of_chores ((Commands.asks_close _).mono isChore_of_isAsked) closes]
  exact ⟨next, by simpa using turns⟩

/-- Starting only tries inputs, and the monitor waits for those that may be missing. -/
theorem tries_of_start {required missing : List Path} {bindings : Bindings} {window : Span}
    {mode : CommandMode} {testMode : Bool} {result : Except StartError Daemon}
    (shows : (start required missing bindings window mode testMode).Shows InputMark.view marks
      result) :
    (∀ mark ∈ marks, mark.IsTry) ∧ ∀ daemon, result = .ok daemon → daemon.testMode = testMode ∧
      ∀ source ∈ daemon.monitor.sources, source.waits = true → source.path ∈ missing := by
  obtain ⟨opened, starts, ready⟩ := opened_of_start (fun _ _ => rfl) (fun _ _ => rfl) shows
  refine ⟨Monitor.tries_of_start starts, fun daemon started => ?_⟩
  obtain ⟨monitor, stopPipe, childPipe, rfl, rfl⟩ := ready daemon started
  exact ⟨rfl, fun source member => Monitor.waited_of_start starts.yields member⟩

end Daemon

namespace Application

variable {application : Application} {limit : Nat} {result : Except ApplicationError Unit}
  {marks earlier later : List InputMark} {device : DeviceHandle}

/-- In test mode no wait follows the loss of a device, unless the device was lost because reading
it failed and its input opened again or is waited for. -/
theorem loss_ends_run_unless_read_failed (test : application.options.testMode = true)
    (shows : (application.run limit).Shows InputMark.view marks result)
    (closed : marks = earlier ++ .closed device :: later) :
    .waited ∉ later ∨ InputMark.Excuses (· ∈ application.waited) earlier device later := by
  obtain ⟨started, atStart, afterwards, rfl, starts, further⟩ := Routine.shows_bind.mp shows
  obtain ⟨tries, ready⟩ := Daemon.tries_of_start starts
  rcases InputMark.append_eq_append_cons closed with ⟨rest, front, _⟩ | ⟨rest, rfl, back⟩
  · obtain ⟨path, opened, same⟩ := tries (.closed device)
      (front ▸ List.mem_append_right _ List.mem_cons_self)
    cases same
  · cases started with
    | error cause =>
      rw [further.1] at back
      cases rest <;> cases back
    | ok daemon =>
      obtain ⟨mode, waits⟩ := ready daemon rfl
      obtain ⟨ending, _, _, rfl, runs, rfl, _⟩ := Routine.shows_bind.mp further
      rw [List.append_nil] at back
      obtain ⟨next, turns⟩ := Daemon.turns_of_run runs
      by_cases goesOn : .waited ∈ later
      · have excuses := Daemon.excuses_of_turns (mode.trans test) waits turns back goesOn
        rw [← List.append_nil later]
        exact .inr (excuses.extend atStart [])
      · exact .inl goesOn

/-- An application with one input that is waited for, in test mode. -/
def watcher : Application :=
  ⟨{ CommandLine.Options.empty with testMode := true }, [], [], [⟨"/dev/input/event0"⟩], ⟨10000000⟩⟩

/-- A host on which every device opens, is ready at once, and cannot be read. -/
def unreadable : (request : Request) → Unit → request.Answer × Unit
  | .openDevice _, _ => (.ok ⟨⟨0⟩, none, true⟩, ())
  | .poll descriptors _, _ => (.ok (descriptors.map fun descriptor =>
      match descriptor with
      | .device _ => .readable
      | _ => .idle), ())
  | .readDevice _, _ => (.error .noDevice, ())
  | .startNotices, _ => (.error .notImplemented, ())
  | .openSignalPipe signals, _ => (.ok ⟨signals.length⟩, ())
  | _, _ => (default, ())

/-- The marks of two turns on that host. -/
def lossMarks : List InputMark :=
  [.tried ⟨"/dev/input/event0"⟩ true, .waited, .read ⟨0⟩ false, .closed ⟨0⟩,
    .tried ⟨"/dev/input/event0"⟩ true, .waited, .read ⟨0⟩ false, .closed ⟨0⟩,
    .tried ⟨"/dev/input/event0"⟩ true]

/-- The marks of two turns on that host are those of a run. -/
theorem shows_lossMarks : ∃ result, (watcher.run 2).Shows InputMark.view lossMarks result := by
  have trail : (watcher.run 2).trail InputMark.view unreadable () = lossMarks := by decide +kernel
  exact ⟨_, trail ▸ Routine.shows_run unreadable (watcher.run 2) ()⟩

/-- A device that is lost in test mode may be followed by another wait. -/
theorem loss_outlived :
    ¬ ∀ (application : Application) (limit : Nat) (result : Except ApplicationError Unit)
      (marks earlier later : List InputMark) (device : DeviceHandle),
      application.options.testMode = true →
      (application.run limit).Shows InputMark.view marks result →
      marks = earlier ++ .closed device :: later → .waited ∉ later := by
  intro claimed
  obtain ⟨result, shows⟩ := shows_lossMarks
  have ended := claimed watcher 2 result lossMarks
    [.tried ⟨"/dev/input/event0"⟩ true, .waited, .read ⟨0⟩ false] _ ⟨0⟩ rfl shows rfl
  exact ended (List.mem_cons_of_mem _ List.mem_cons_self)

/-- The loss of a device that cannot be read is excused where its input opens again. -/
theorem loss_excused :
    watcher.options.testMode = true ∧ (.waited ∉ lossMarks.drop 4 ∨
      InputMark.Excuses (· ∈ watcher.waited) (lossMarks.take 3) ⟨0⟩ (lossMarks.drop 4)) := by
  obtain ⟨result, shows⟩ := shows_lossMarks
  exact ⟨rfl, loss_ends_run_unless_read_failed rfl shows rfl⟩

end Application

end Keyhold
