import Keyhold.Commands
import Keyhold.Proofs.Run
import Keyhold.Proofs.System.Marks

/-!
# The started commands of an executor

An executor runs commands and collects those that it has started, and between its calls commands
end, or are collected by someone else, as they please: the answers to its requests are left open.
What is seen of it are its requests about commands with their answers, and its messages. A ledger
is kept of that alone. It has one entry for each start that went well, in order, with every
inquiry made about that command since. An entry is listed as long as all inquiries found its
command running, so the system may give the number of a collected process out again and the two
commands stay apart. What a single call does is `Tells`; that the list of the executor is the
listed part of the ledger, and what was reported of each entry, is `Balanced`, and every course
of calls keeps it (`balanced_of_course`).
-/

namespace Keyhold

open Keyhold.System

/-- What is seen of an executor at work. -/
inductive ChildMark where
  /-- A command is started, with the answer. -/
  | started (command : String) (answer : Except OsError ProcessId)
  /-- A command is run to its end, with the answer. -/
  | ran (command : String) (answer : Except OsError ExitStatus)
  /-- A started command is asked after, with the answer. -/
  | checked (process : ProcessId) (answer : Except OsError (Option ExitStatus))
  /-- A message is written. -/
  | said (message : Message)
  deriving Repr

/-- The mark of a request about commands, and of a message. -/
def ChildMark.view : View ChildMark
  | .spawn command, answer => some (.started command answer)
  | .runToEnd command, answer => some (.ran command answer)
  | .check process, answer => some (.checked process answer)
  | .log message, _ => some (.said message)
  | _, _ => none

namespace Commands

/-! ## Inquiries -/

/-- An inquiry about a started command: what was found and the messages that followed. -/
structure Inquiry where
  process : ProcessId
  /-- How the command ended, or nothing if it runs; an error if it cannot be waited for. -/
  found : Except OsError (Option ExitStatus)
  said : List Message
  deriving Repr

namespace Inquiry

/-- Whether the command was found running. -/
def isRunning (inquiry : Inquiry) : Bool :=
  match inquiry.found with
  | .ok none => true
  | _ => false

/-- The warnings that are due: one for a command that ended badly, and one for a command that
cannot be waited for. -/
def warnings (inquiry : Inquiry) : List Message :=
  match inquiry.found with
  | .ok none => []
  | .ok (some status) =>
    if status.isSuccess then []
    else [.warning ("command " ++ processText inquiry.process ++ " exited with " ++ status.text)]
  | .error cause =>
    [.warning ("failed to check command " ++ processText inquiry.process ++ ": " ++ cause.message)]

/-- The marks of an inquiry. -/
def marks (inquiry : Inquiry) : List ChildMark :=
  .checked inquiry.process inquiry.found :: inquiry.said.map .said

/-- No warning is due for a command that still runs. -/
theorem warnings_of_isRunning {inquiry : Inquiry} (running : inquiry.isRunning = true) :
    inquiry.warnings = [] := by
  rw [isRunning] at running
  split at running
  · rename_i runs
    rw [warnings, runs]
  · cases running

end Inquiry

/-- The messages in front of the next other mark. -/
def sayings : List ChildMark → List Message
  | .said message :: rest => message :: sayings rest
  | _ => []

/-- The inquiries among marks, each with the messages that follow it. -/
def inquiries : List ChildMark → List Inquiry
  | [] => []
  | .checked process found :: rest => ⟨process, found, sayings rest⟩ :: inquiries rest
  | _ :: rest => inquiries rest

/-- Messages in front of marks are read off first. -/
theorem sayings_said (said : List Message) (rest : List ChildMark) :
    sayings (said.map .said ++ rest) = said ++ sayings rest := by
  induction said with
  | nil => rfl
  | cons message others ih => exact congrArg (message :: ·) ih

/-- Messages in front of marks are no inquiries. -/
theorem inquiries_said (said : List Message) (rest : List ChildMark) :
    inquiries (said.map .said ++ rest) = inquiries rest := by
  induction said with
  | nil => rfl
  | cons message others ih => exact ih

/-- Inquiries are read off their own marks. -/
theorem inquiries_marks (made : List Inquiry) : inquiries (made.flatMap Inquiry.marks) = made := by
  induction made with
  | nil => rfl
  | cons inquiry rest ih =>
    have others : sayings (rest.flatMap Inquiry.marks) = [] := by cases rest <;> rfl
    rw [List.flatMap_cons, Inquiry.marks, List.cons_append, inquiries, sayings_said, inquiries_said,
      ih, others, List.append_nil]

/-! ## The ledger -/

/-- An entry of the ledger: a command that was started, and the inquiries about it. -/
structure Child where
  command : String
  process : ProcessId
  inquiries : List Inquiry
  deriving Repr

namespace Child

/-- What was started. -/
def birth (child : Child) : String × ProcessId := (child.command, child.process)

/-- Whether no inquiry found the command finished or no longer to be waited for. -/
def isListed (child : Child) : Bool := child.inquiries.all Inquiry.isRunning

/-- All that was reported when the command was asked after. -/
def said (child : Child) : List Message := child.inquiries.flatMap Inquiry.said

/-- The entry after one more inquiry. -/
def asked (child : Child) (inquiry : Inquiry) : Child :=
  { child with inquiries := child.inquiries ++ [inquiry] }

/-- What holds of every entry. -/
structure Kept (child : Child) : Prop where
  /-- All inquiries are about the process of the entry. -/
  own : ∀ inquiry ∈ child.inquiries, inquiry.process = child.process
  /-- Nothing is reported of a command as long as it runs. -/
  silent : child.isListed = true → child.said = []
  /-- All that is ever reported of a command are the warnings that are due when it is not found
  running. -/
  warned : ∀ inquiry ∈ child.inquiries, inquiry.isRunning = false → child.said = inquiry.warnings

/-- An entry stays listed exactly if one more inquiry finds its command running. -/
theorem isListed_asked (child : Child) (inquiry : Inquiry) :
    (child.asked inquiry).isListed = (child.isListed && inquiry.isRunning) := by
  simp [isListed, asked]

/-- An inquiry adds what it reports. -/
theorem said_asked (child : Child) (inquiry : Inquiry) :
    (child.asked inquiry).said = child.said ++ inquiry.said := by
  simp [said, asked]

/-- A new entry is well kept. -/
theorem kept_of_new (command : String) (process : ProcessId) : Kept ⟨command, process, []⟩ :=
  ⟨fun _ member => absurd member List.not_mem_nil, fun _ => rfl,
    fun _ member => absurd member List.not_mem_nil⟩

/-- An inquiry about a listed entry that reports what is due keeps the entry. -/
theorem Kept.asked {child : Child} {inquiry : Inquiry} (kept : child.Kept)
    (listed : child.isListed = true) (same : inquiry.process = child.process)
    (due : inquiry.said = inquiry.warnings) : (child.asked inquiry).Kept := by
  have all : (child.asked inquiry).said = inquiry.warnings := by
    rw [said_asked, kept.silent listed, due, List.nil_append]
  refine ⟨fun other member => ?_, fun still => ?_, fun other member ended => ?_⟩
  · rcases List.mem_append.mp member with before | now
    · exact kept.own other before
    · rw [List.mem_singleton.mp now]
      exact same
  · rw [isListed_asked, Bool.and_eq_true] at still
    rw [all, Inquiry.warnings_of_isRunning still.2]
  · rcases List.mem_append.mp member with before | now
    · have running : other.isRunning = true := List.all_eq_true.mp listed other before
      rw [running] at ended
      cases ended
    · rw [all, List.mem_singleton.mp now]

end Child

/-- The processes of the listed entries. -/
def listed (book : List Child) : List ProcessId := (book.filter Child.isListed).map Child.process

/-- New entries for the starts among marks that went well. -/
def births (marks : List ChildMark) : List Child :=
  marks.filterMap fun mark =>
    match mark with
    | .started command (.ok process) => some ⟨command, process, []⟩
    | _ => none

/-- Enters inquiries, one for each listed entry in order. -/
def inquire : List Child → List Inquiry → List Child
  | [], _ => []
  | book, [] => book
  | child :: rest, inquiry :: others =>
    if child.isListed then child.asked inquiry :: inquire rest others
    else child :: inquire rest (inquiry :: others)

/-- The first entry is listed in front of the others, if it is. -/
theorem listed_cons (child : Child) (rest : List Child) :
    listed (child :: rest) =
      if child.isListed then child.process :: listed rest else listed rest := by
  rw [listed, List.filter_cons]
  split <;> rfl

/-- Messages enter nothing. -/
theorem births_said (said : List Message) : births (said.map .said) = [] := by
  induction said with
  | nil => rfl
  | cons message others ih => exact ih

/-- Inquiries enter nothing. -/
theorem births_inquiries (made : List Inquiry) : births (made.flatMap Inquiry.marks) = [] := by
  simp only [births, List.filterMap_eq_nil_iff]
  intro mark member
  obtain ⟨inquiry, _, within⟩ := List.mem_flatMap.mp member
  rcases List.mem_cons.mp within with rfl | later
  · rfl
  · obtain ⟨_, _, rfl⟩ := List.mem_map.mp later
    rfl

/-- Inquiries leave what was started as it is. -/
theorem birth_inquire (book : List Child) (made : List Inquiry) :
    (inquire book made).map Child.birth = book.map Child.birth := by
  induction book generalizing made with
  | nil => rfl
  | cons child rest ih =>
    cases made with
    | nil => rfl
    | cons inquiry others =>
      rw [inquire]
      split
      · exact congrArg (child.birth :: ·) (ih others)
      · exact congrArg (child.birth :: ·) (ih (inquiry :: others))

/-- Of the entries that were asked after, those found running stay listed. A listed entry takes the
first inquiry, and any other leaves them all to the rest. -/
theorem listed_inquire {book : List Child} {made : List Inquiry}
    (asked : made.map Inquiry.process = listed book) :
    listed (inquire book made) = (made.filter Inquiry.isRunning).map Inquiry.process := by
  induction book generalizing made with
  | nil =>
    rw [List.map_eq_nil_iff.mp asked]
    rfl
  | cons child rest ih =>
    rw [listed_cons] at asked
    cases made with
    | nil =>
      rw [inquire, listed_cons, ← asked]
      · rfl
      · exact List.cons_ne_nil _ _
    | cons inquiry others =>
      rw [inquire]
      split
      · rename_i isListed
        rw [if_pos isListed, List.map_cons, List.cons.injEq] at asked
        rw [listed_cons, Child.isListed_asked, isListed, Bool.true_and, ih asked.2,
          List.filter_cons]
        split
        · exact congrArg (· :: _) asked.1.symm
        · rfl
      · rename_i unlisted
        rw [if_neg unlisted] at asked
        rw [listed_cons, if_neg unlisted, ih asked]

/-- Inquiries about the listed entries that report what is due keep all entries. -/
theorem kept_inquire {book : List Child} {made : List Inquiry}
    (asked : made.map Inquiry.process = listed book)
    (due : ∀ inquiry ∈ made, inquiry.said = inquiry.warnings)
    (kept : ∀ child ∈ book, child.Kept) : ∀ child ∈ inquire book made, child.Kept := by
  induction book generalizing made with
  | nil => exact fun _ member => absurd member List.not_mem_nil
  | cons child rest ih =>
    obtain ⟨first, others⟩ := List.forall_mem_cons.mp kept
    cases made with
    | nil => exact kept
    | cons inquiry further =>
      rw [listed_cons] at asked
      rw [inquire]
      split
      · rename_i isListed
        rw [if_pos isListed, List.map_cons, List.cons.injEq] at asked
        obtain ⟨now, later⟩ := List.forall_mem_cons.mp due
        exact List.forall_mem_cons.mpr
          ⟨first.asked isListed asked.1 now, ih asked.2 later others⟩
      · rename_i unlisted
        rw [if_neg unlisted] at asked
        exact List.forall_mem_cons.mpr ⟨first, ih asked due others⟩

/-! ## Calls -/

/-- What a caller asks of an executor. -/
inductive Call where
  /-- The command of a firing is run. -/
  | execute (firing : Firing)
  /-- Finished commands are collected. -/
  | reap
  deriving DecidableEq, Repr

/-- What comes of a call: its result, and all that is seen of it. -/
structure Reply where
  result : Except OsError Unit
  marks : List ChildMark
  deriving Repr

/-- What the executor does on a call. Collecting cannot fail. -/
def call (commands : Commands) : Call → Routine (Except OsError Unit × Commands)
  | .execute firing => commands.execute firing
  | .reap => do
    let commands ← commands.reap
    pure (.ok (), commands)

/-- Whether a call may go like this. -/
def Goes (commands : Commands) (call : Call) (next : Commands) (reply : Reply) : Prop :=
  (commands.call call).Shows ChildMark.view reply.marks (reply.result, next)

/-- A call with the executor before and after it. -/
abbrev Moment := Keyhold.Moment Commands Call Reply

/-- What is said when a command has been started. -/
def startMessage (command : String) (process : ProcessId) : Message :=
  .debug ("spawned '" ++ command ++ "' as pid " ++ toString process.number)

/-- What is said of a command that has been run to its end: a warning if it ended badly. -/
def endMessages (command : String) : Except OsError ExitStatus → List Message
  | .ok status =>
    if status.isSuccess then []
    else [.warning ("command '" ++ command ++ "' exited with " ++ status.text)]
  | .error _ => []

/-- Whether a firing is executed by starting a command that is added to the list, and by nothing
else. All that is said is that it was started. -/
def Starts (moment : Moment) (firing : Firing) : Prop :=
  moment.before.mode = .detached ∧ firing.exits = false ∧ moment.output.result = .ok () ∧
    ∃ process, moment.output.marks = [.started firing.command (.ok process),
        .said (startMessage firing.command process)] ∧
      births moment.output.marks = [⟨firing.command, process, []⟩] ∧
      moment.after.children = moment.before.children ++ [process]

/-- Whether a firing is executed by running its command to its end, in blocking mode or for an exit.
All that is said is how it ended. -/
def Waits (moment : Moment) (firing : Firing) : Prop :=
  (moment.before.mode = .blocking ∨ firing.exits = true) ∧
    ∃ answer, moment.output.result = answer.map (fun _ => ()) ∧
      moment.output.marks =
        .ran firing.command answer :: (endMessages firing.command answer).map .said

/-- Whether the command of a firing could not be started. Nothing is said. -/
def Fails (moment : Moment) (firing : Firing) : Prop :=
  moment.before.mode = .detached ∧ firing.exits = false ∧
    ∃ cause, moment.output.result = .error cause ∧
      moment.output.marks = [.started firing.command (.error cause)]

/-- Whether a firing is executed without a change of the list: its command is run to its end, or it
could not be started. -/
def Leaves (moment : Moment) (firing : Firing) : Prop :=
  (Waits moment firing ∨ Fails moment firing) ∧
    births moment.output.marks = [] ∧ moment.after.children = moment.before.children

/-- Whether all commands of the list are asked after, each once and in order, with the warnings
that are due, and those found running stay. -/
def Collects (moment : Moment) : Prop :=
  (inquiries moment.output.marks).map Inquiry.process = moment.before.children ∧
    moment.output.marks = (inquiries moment.output.marks).flatMap Inquiry.marks ∧
    (∀ inquiry ∈ inquiries moment.output.marks, inquiry.said = inquiry.warnings) ∧
    moment.after.children =
      ((inquiries moment.output.marks).filter Inquiry.isRunning).map Inquiry.process

/-- What a call does. -/
structure Tells (moment : Moment) : Prop where
  mode : moment.after.mode = moment.before.mode
  execute : ∀ firing, moment.input = .execute firing →
    inquiries moment.output.marks = [] ∧ (Starts moment firing ∨ Leaves moment firing)
  reap : moment.input = .reap → births moment.output.marks = [] ∧ Collects moment

variable {commands next last : Commands} {marks : List ChildMark} {moments : List Moment}

/-! ## What is seen of a call -/

/-- A command run to its end is said to have ended badly if it has. -/
theorem shows_runWaiting {command : String} {result : Except OsError Unit}
    (shows : (runWaiting command).Shows ChildMark.view marks result) :
    ∃ answer, result = answer.map (fun _ => ()) ∧
      marks = .ran command answer :: (endMessages command answer).map .said := by
  obtain ⟨answer, _, rfl, further⟩ := shows
  refine ⟨answer, ?_⟩
  cases answer with
  | error cause =>
    obtain ⟨rfl, rfl⟩ := further
    exact ⟨rfl, rfl⟩
  | ok status =>
    rw [endMessages]
    dsimp only [Routine.bind] at further
    split at further
    · rename_i badly
      obtain ⟨_, _, rfl, rfl, rfl⟩ := further
      rw [if_neg (by simpa using badly)]
      exact ⟨rfl, rfl⟩
    · rename_i well
      obtain ⟨rfl, rfl⟩ := further
      rw [if_pos (by simpa using well)]
      exact ⟨rfl, rfl⟩

/-- An inquiry tells whether a command runs, and reports what is due. -/
theorem shows_isRunning {process : ProcessId} {running : Bool}
    (shows : (isRunning process).Shows ChildMark.view marks running) :
    ∃ inquiry : Inquiry, inquiry.process = process ∧ inquiry.said = inquiry.warnings ∧
      running = inquiry.isRunning ∧ marks = inquiry.marks := by
  obtain ⟨answer, _, rfl, further⟩ := shows
  refine ⟨⟨process, answer, Inquiry.warnings ⟨process, answer, []⟩⟩, rfl, rfl, ?_⟩
  rcases answer with cause | _ | status
  · obtain ⟨_, _, rfl, rfl, done⟩ := further
    exact ⟨done.symm, rfl⟩
  · obtain ⟨rfl, done⟩ := further
    exact ⟨done.symm, rfl⟩
  · dsimp only [Routine.bind] at further
    cases success : status.isSuccess with
    | true =>
      rw [success] at further
      obtain ⟨rfl, done⟩ := further
      exact ⟨done.symm, by simp [Inquiry.marks, Inquiry.warnings, success, ChildMark.view]⟩
    | false =>
      rw [success] at further
      obtain ⟨_, _, rfl, rfl, done⟩ := further
      exact ⟨done.symm, by simp [Inquiry.marks, Inquiry.warnings, success, ChildMark.view]⟩

/-- All commands of a list are asked after in order, and those found running stay. -/
theorem shows_stillRunning {processes running : List ProcessId}
    (shows : (stillRunning processes).Shows ChildMark.view marks running) :
    ∃ made : List Inquiry, made.map Inquiry.process = processes ∧
      (∀ inquiry ∈ made, inquiry.said = inquiry.warnings) ∧
      running = (made.filter Inquiry.isRunning).map Inquiry.process ∧
      marks = made.flatMap Inquiry.marks := by
  induction processes generalizing marks running with
  | nil =>
    obtain ⟨rfl, rfl⟩ := shows
    exact ⟨[], rfl, fun _ member => absurd member List.not_mem_nil, rfl, rfl⟩
  | cons process rest ih =>
    obtain ⟨runs, _, _, rfl, first, further⟩ := Routine.shows_bind.mp shows
    obtain ⟨others, _, _, rfl, later, rfl, done⟩ := Routine.shows_bind.mp further
    obtain ⟨inquiry, rfl, due, rfl, rfl⟩ := shows_isRunning first
    obtain ⟨made, rfl, all, rfl, rfl⟩ := ih later
    refine ⟨inquiry :: made, rfl, List.forall_mem_cons.mpr ⟨due, all⟩, ?_, by simp⟩
    rw [← done, List.filter_cons]
    split <;> rfl

/-- To execute a firing is to start a command or to leave the list as it is. -/
theorem starts_or_leaves {firing : Firing} {reply : Reply}
    (shows : (commands.execute firing).Shows ChildMark.view reply.marks (reply.result, next)) :
    next.mode = commands.mode ∧ inquiries reply.marks = [] ∧
      (Starts ⟨commands, .execute firing, next, reply⟩ firing ∨
        Leaves ⟨commands, .execute firing, next, reply⟩ firing) := by
  obtain ⟨result, marks⟩ := reply
  rw [execute] at shows
  split at shows
  · rename_i waits
    obtain ⟨_, _, _, rfl, runs, rfl, done⟩ := Routine.shows_bind.mp shows
    obtain ⟨answer, rfl, rfl⟩ := shows_runWaiting runs
    cases done
    rw [waitsFor, Bool.or_eq_true, beq_iff_eq] at waits
    rw [List.append_nil]
    have unborn := births_said (endMessages firing.command answer)
    have unasked := inquiries_said (endMessages firing.command answer) []
    rw [List.append_nil] at unasked
    exact ⟨rfl, unasked, .inr ⟨.inl ⟨waits, answer, rfl, rfl⟩, unborn, rfl⟩⟩
  · rename_i beside
    rw [waitsFor, Bool.or_eq_true, beq_iff_eq, not_or, Bool.not_eq_true] at beside
    have detached : commands.mode = .detached := by
      cases mode : commands.mode with
      | blocking => exact absurd mode beside.1
      | detached => rfl
    obtain ⟨answer, _, rfl, further⟩ := shows
    cases answer with
    | error cause =>
      obtain ⟨rfl, done⟩ := further
      cases done
      exact ⟨rfl, rfl, .inr ⟨.inr ⟨detached, beside.2, cause, rfl, rfl⟩, rfl, rfl⟩⟩
    | ok process =>
      obtain ⟨_, _, rfl, rfl, done⟩ := further
      cases done
      exact ⟨rfl, rfl, .inl ⟨detached, beside.2, rfl, process, rfl, rfl, rfl⟩⟩

/-- To collect finished commands is to ask after all commands of the list. -/
theorem collects_of_reap {reply : Reply}
    (shows : (commands.call .reap).Shows ChildMark.view reply.marks (reply.result, next)) :
    next.mode = commands.mode ∧ births reply.marks = [] ∧
      Collects ⟨commands, .reap, next, reply⟩ := by
  obtain ⟨result, marks⟩ := reply
  obtain ⟨reaped, _, _, rfl, reaps, rfl, done⟩ := Routine.shows_bind.mp shows
  obtain ⟨running, _, _, rfl, asks, rfl, same⟩ := Routine.shows_bind.mp reaps
  obtain ⟨made, processes, due, rfl, rfl⟩ := shows_stillRunning asks
  cases same
  cases done
  simp only [List.append_nil, Collects, inquiries_marks]
  exact ⟨trivial, births_inquiries made, processes, trivial, due, trivial⟩

/-- What a call may come to is what it is said to do. -/
theorem Goes.tells {call : Call} {reply : Reply} (goes : Goes commands call next reply) :
    Tells ⟨commands, call, next, reply⟩ := by
  cases call with
  | execute firing =>
    obtain ⟨mode, executes⟩ := starts_or_leaves goes
    refine ⟨mode, fun other same => ?_, nofun⟩
    cases same
    exact executes
  | reap =>
    obtain ⟨mode, collects⟩ := collects_of_reap goes
    exact ⟨mode, nofun, fun _ => collects⟩

/-! ## Courses of calls -/

/-- The ledger after one more call. -/
def enter (book : List Child) (moment : Moment) : List Child :=
  match moment.input with
  | .execute _ => book ++ births moment.output.marks
  | .reap => inquire book (inquiries moment.output.marks)

/-- The ledger of calls. -/
def ledger (moments : List Moment) : List Child := moments.foldl enter []

/-- Everything that was started by calls, in order. -/
def allBirths (moments : List Moment) : List (String × ProcessId) :=
  moments.flatMap fun moment => (births moment.output.marks).map Child.birth

/-- Whether a ledger goes with an executor. -/
structure Balanced (commands : Commands) (book : List Child) : Prop where
  /-- The executor lists the listed entries, in order. -/
  children : commands.children = listed book
  /-- Every entry is well kept. -/
  kept : ∀ child ∈ book, child.Kept

/-- An empty ledger goes with an executor that has run nothing. -/
theorem balanced_start (mode : CommandMode) : Balanced (start mode) [] :=
  ⟨rfl, fun _ member => absurd member List.not_mem_nil⟩

/-- A new entry is listed behind all others. -/
theorem Balanced.born {book : List Child} {process : ProcessId} (balanced : Balanced commands book)
    (command : String) (grown : next.children = commands.children ++ [process]) :
    Balanced next (book ++ [⟨command, process, []⟩]) := by
  refine ⟨?_, fun child member => ?_⟩
  · rw [grown, balanced.children]
    simp [listed, show Child.isListed ⟨command, process, []⟩ = true from rfl]
  · rcases List.mem_append.mp member with before | now
    · exact balanced.kept child before
    · rw [List.mem_singleton.mp now]
      exact Child.kept_of_new command process

/-- A call keeps the balance of the ledger, and enters what it starts. -/
theorem Tells.balanced {moment : Moment} {book : List Child} (tells : Tells moment)
    (balanced : Balanced moment.before book) :
    Balanced moment.after (enter book moment) ∧
      (enter book moment).map Child.birth =
        book.map Child.birth ++ (births moment.output.marks).map Child.birth := by
  cases input : moment.input with
  | execute firing =>
    have entered : enter book moment = book ++ births moment.output.marks := by rw [enter, input]
    rw [entered, List.map_append]
    refine ⟨?_, rfl⟩
    rcases (tells.execute firing input).2 with ⟨_, _, _, process, _, born, grown⟩ |
      ⟨_, unborn, same⟩
    · rw [born]
      exact balanced.born firing.command grown
    · rw [unborn, List.append_nil]
      exact ⟨same.trans balanced.children, balanced.kept⟩
  | reap =>
    have entered : enter book moment = inquire book (inquiries moment.output.marks) := by
      rw [enter, input]
    obtain ⟨unborn, processes, _, due, left⟩ := tells.reap input
    rw [balanced.children] at processes
    rw [entered, birth_inquire, unborn, List.map_nil, List.append_nil]
    refine ⟨⟨?_, kept_inquire processes due balanced.kept⟩, rfl⟩
    rw [left, listed_inquire processes]

/-- Every call of a course does what it is said to do, all in the same mode. -/
theorem tells_of_course (course : Course Goes commands moments last) :
    ∀ moment ∈ moments, moment.before.mode = commands.mode ∧ Tells moment := by
  induction moments generalizing commands with
  | nil => exact fun _ member => absurd member List.not_mem_nil
  | cons moment rest ih =>
    obtain ⟨rfl, goes, further⟩ := course
    have tells : Tells moment := goes.tells
    refine List.forall_mem_cons.mpr ⟨⟨rfl, tells⟩, fun later member => ?_⟩
    obtain ⟨mode, others⟩ := ih further later member
    exact ⟨mode.trans tells.mode, others⟩

/-- Every course of calls keeps the balance of the ledger. -/
theorem balanced_of_course {book : List Child} (course : Course Goes commands moments last)
    (balanced : Balanced commands book) :
    Balanced last (moments.foldl enter book) ∧
      (moments.foldl enter book).map Child.birth = book.map Child.birth ++ allBirths moments := by
  induction moments generalizing commands book with
  | nil =>
    cases course
    exact ⟨balanced, (List.append_nil _).symm⟩
  | cons moment rest ih =>
    obtain ⟨rfl, goes, further⟩ := course
    obtain ⟨kept, entered⟩ := goes.tells.balanced balanced
    obtain ⟨atEnd, all⟩ := ih further kept
    refine ⟨atEnd, ?_⟩
    rw [List.foldl_cons, all, entered, List.append_assoc]
    rfl

/-- In blocking mode nothing is started. -/
theorem births_of_blocking {moment : Moment} (blocking : moment.before.mode = .blocking)
    (tells : Tells moment) : births moment.output.marks = [] := by
  cases input : moment.input with
  | execute firing =>
    rcases (tells.execute firing input).2 with ⟨detached, _⟩ | ⟨_, unborn, _⟩
    · rw [blocking] at detached
      cases detached
    · exact unborn
  | reap => exact (tells.reap input).1

/-- The list of an executor is exact. Whatever is answered to its requests, each call adds or
removes what it is said to; the list is made of the commands that were started, in order, less
those that an inquiry did not find running; and of each of them is reported what is due when it
is not found running, once, and nothing before. In blocking mode the list stays empty. -/
theorem children_are_accounted {mode : CommandMode}
    (course : Course Goes (start mode) moments last) :
    (∀ moment ∈ moments, moment.before.mode = mode ∧ Tells moment) ∧
      last.children = listed (ledger moments) ∧
      (ledger moments).map Child.birth = allBirths moments ∧
      (∀ child ∈ ledger moments, child.Kept) ∧
      (mode = .blocking → last.children = []) := by
  have tells := tells_of_course course
  obtain ⟨balanced, entered⟩ := balanced_of_course course (balanced_start mode)
  refine ⟨tells, balanced.children, entered, balanced.kept, fun blocking => ?_⟩
  have unborn : allBirths moments = [] := by
    refine List.flatMap_eq_nil_iff.mpr fun moment member => ?_
    obtain ⟨same, does⟩ := tells moment member
    rw [births_of_blocking (same.trans blocking) does, List.map_nil]
  have empty : moments.foldl enter [] = [] := by
    rw [← List.map_eq_nil_iff, entered, unborn]
    rfl
  rw [balanced.children, empty]
  rfl

/-! ## Calls on a host -/

/-- The calls of an executor on a host, and the executor at their end. -/
def callsOn {σ : Type} (answer : (request : Request) → σ → request.Answer × σ)
    (commands : Commands) (host : σ) : List Call → List Moment × Commands
  | [] => ([], commands)
  | call :: rest =>
    let ((result, next), after) := (commands.call call).run answer host
    let (moments, last) := callsOn answer next after rest
    (⟨commands, call, next, result, (commands.call call).trail ChildMark.view answer host⟩ ::
      moments, last)

/-- On every host, calls take a course. -/
theorem course_callsOn {σ : Type} (answer : (request : Request) → σ → request.Answer × σ)
    (commands : Commands) (host : σ) (calls : List Call) :
    Course Goes commands (callsOn answer commands host calls).1
        (callsOn answer commands host calls).2 ∧
      (callsOn answer commands host calls).1.map Moment.input = calls := by
  induction calls generalizing commands host with
  | nil => exact ⟨rfl, rfl⟩
  | cons call rest ih =>
    obtain ⟨course, same⟩ := ih ((commands.call call).run answer host).1.2
      ((commands.call call).run answer host).2
    exact ⟨⟨rfl, Routine.shows_run answer (commands.call call) host, course⟩,
      congrArg (call :: ·) same⟩

/-- A host that answers starts and inquiries from two lists, and lets other commands exit with
status 3. -/
def scripted : (request : Request) →
    List (Except OsError ProcessId) × List (Except OsError (Option ExitStatus)) →
    request.Answer × List (Except OsError ProcessId) × List (Except OsError (Option ExitStatus))
  | .spawn _, (started, found) => (started.headD default, started.tail, found)
  | .check _, (started, found) => (found.headD default, started, found.tail)
  | .runToEnd _, host => (.ok (.exited 3), host)
  | _, host => (default, host)

/-- Two commands are started, a third is refused and a fourth is waited for. One of the two ends
badly, and its number is given out again before the other one is found to be collected by someone
else. -/
def reusedCalls : List Call :=
  [.execute ⟨1, none, "first", false, 0⟩, .execute ⟨1, none, "second", false, 0⟩,
    .execute ⟨1, none, "third", false, 0⟩, .execute ⟨1, none, "fourth", true, 0⟩, .reap,
    .execute ⟨1, none, "fifth", false, 0⟩, .reap]

/-- The answers to those calls. -/
def reusedAnswers : List (Except OsError ProcessId) × List (Except OsError (Option ExitStatus)) :=
  ([.ok ⟨7⟩, .ok ⟨8⟩, .error .tooManyArguments, .ok ⟨8⟩],
    [.ok none, .ok (some (.exited 1)), .error .noChild, .ok none])

/-- Those calls of a detached executor. -/
def reused : List Moment × Commands :=
  callsOn scripted (start .detached) reusedAnswers reusedCalls

/-- Two commands with one number stay apart: the earlier one is off the list and was warned about
once, the later one is on the list and nothing was said about it. -/
theorem children_of_reused :
    reused.2.children = [⟨8⟩] ∧
      (ledger reused.1).map Child.birth = [("first", ⟨7⟩), ("second", ⟨8⟩), ("fifth", ⟨8⟩)] ∧
      (ledger reused.1).map Child.said =
        [[.warning "failed to check command (pid 7): No child processes (os error 10)"],
          [.warning "command (pid 8) exited with exit status: 1"], []] := by
  have course : Course Goes (start .detached) reused.1 reused.2 :=
    (course_callsOn scripted (start .detached) reusedAnswers reusedCalls).1
  obtain ⟨_, children, entered, _⟩ := children_are_accounted course
  rw [children, entered]
  decide +kernel

end Commands

end Keyhold
