import Keyhold.Host.Machine
import Keyhold.Proofs.Input.Polling

/-!
# Watched directories

The surroundings of a monitor, as far as watches go: the directory that a path names now, the
watches that have been set, and the notices that nobody has read. Between any two requests
entries may be created, moved in or changed in mode, and directories removed, renamed and made
anew. A live watch puts every touch of its directory into the queue, in order and without loss,
until the directory is gone; then it never reports again. Devices are left entirely open: an
attempt to open one and a read of one may come out in any way at any time, so hang-ups are
covered wherever they happen.

The history keeps what touches and attempts there were, so that statements can speak of their
order.
-/

namespace Keyhold

open Keyhold.System

/-- Something that matters to watched directories. -/
inductive Happening where
  /-- A place of the file tree was touched. -/
  | touched (touch : Host.Touch)
  /-- The clock was read. -/
  | clock (now : Instant)
  /-- Opening an input was tried. -/
  | tried (path : Path)
  deriving DecidableEq, Repr

namespace Happening

/-- Whether it came from outside. -/
def isTouch : Happening → Bool
  | touched _ => true
  | _ => false

end Happening

/-- The surroundings of a monitor as far as watches go. -/
structure Directories where
  /-- The directory that a path names. -/
  named : Path → Option Nat
  /-- The watches that have been set, by their numbers. -/
  watches : List Host.Watch
  /-- Notices that have not been read. -/
  notices : List Notice
  history : List Happening

namespace Directories

/-- Surroundings without watches. -/
def start (named : Path → Option Nat) : Directories := ⟨named, [], [], []⟩

/-- The surroundings with one more happening. -/
def record (directories : Directories) (happening : Happening) : Directories :=
  { directories with history := directories.history ++ [happening] }

/-- The surroundings after a touch: live watches report it, the one on a directory that is gone
for the last time. -/
def touch (directories : Directories) (touch : Host.Touch) : Directories :=
  { directories with
    watches := Host.Machine.watchesAfter directories.watches touch
    notices := directories.notices ++ Host.Machine.noticesOf directories.watches touch
    history := directories.history ++ [.touched touch] }

/-- Whether a directory has been removed. -/
def Gone (directories : Directories) (node : Nat) : Prop :=
  .touched (.gone node) ∈ directories.history

/-- Whether paths name only directories that are there. -/
def NamesPresent (directories : Directories) : Prop :=
  ∀ path node, directories.named path = some node → ¬ directories.Gone node

/-- What may change from outside. -/
inductive Changes : Directories → Directories → Prop where
  /-- A place is touched; with it paths may come to name other directories. -/
  | touched {directories next : Directories} (touch : Host.Touch) (named : Path → Option Nat)
      (same : next = { directories.touch touch with named := named })
      (present : next.NamesPresent) : Changes directories next
  /-- Paths come to name other directories. -/
  | renamed {directories next : Directories} (named : Path → Option Nat)
      (same : next = { directories with named := named })
      (present : next.NamesPresent) : Changes directories next

/-- Whether a watch is set on a directory. -/
def IsOn (directories : Directories) (watch : WatchId) (node : Nat) : Prop :=
  ∃ live, directories.watches[watch.id]? = some ⟨node, live⟩

/-- Whether a watch on a directory still reports. -/
def IsLive (directories : Directories) (watch : WatchId) (node : Nat) : Prop :=
  directories.watches[watch.id]? = some ⟨node, true⟩

/-- How a request may be answered. Watching a directory that has a live watch gives that watch.
A read hands out notices from the front of the queue, at least one while some are queued; a read
that fails leaves the queue as it is, and would block only if it is empty. A wait finds notices
ready exactly when some are queued, and ends without anything ready only by its timeout. -/
def Answers : (request : Request) → Directories → request.Answer → Directories → Prop
  | .clock, directories, now, next => next = directories.record (.clock now)
  | .openDevice path, directories, _, next => next = directories.record (.tried path)
  | .watch path, directories, .ok watch, next =>
    ∃ node, directories.named path = some node ∧
      (directories.IsLive watch node ∧ next = directories ∨
        ⟨node, true⟩ ∉ directories.watches ∧ watch.id = directories.watches.length ∧
          next = { directories with watches := directories.watches ++ [⟨node, true⟩] })
  | .readNotices, directories, .ok batch, next =>
    ∃ rest, directories.notices = batch ++ rest ∧ (batch = [] → rest = []) ∧
      next = { directories with notices := rest }
  | .readNotices, directories, .error cause, next =>
    next = directories ∧ (cause = .wouldBlock → directories.notices = [])
  | .poll descriptors timeout, directories, .ok readiness, next =>
    next = directories ∧ ∃ ready : Descriptor → Readiness,
      readiness = descriptors.map ready ∧
      ready .notices = (if directories.notices.isEmpty then .idle else .readable) ∧
      (timeout < 0 → ∃ descriptor ∈ descriptors, ready descriptor ≠ .idle)
  | _, directories, _, next => next = directories

/-- The surroundings in which a monitor watches directories. -/
def surroundings : Surroundings Directories := ⟨Answers, Changes⟩

variable {directories next last : Directories} {watch : WatchId} {node : Nat}
  {named : Path → Option Nat}

/-- The requests that leave the queue of notices alone. -/
def isQuiet : Request → Bool
  | .readNotices => false
  | _ => true

/-- What an answered request may do, reads of notices apart: nothing, or it is put down in the
history, or a watch is set on a directory that a path names. -/
theorem Answers.cases {request : Request} {answer : request.Answer}
    (quiet : isQuiet request = true) (answers : Answers request directories answer next) :
    next = directories ∨
      (∃ happening, happening.isTouch = false ∧ next = directories.record happening) ∨
      ∃ path node, directories.named path = some node ∧
        next = { directories with watches := directories.watches ++ [⟨node, true⟩] } := by
  cases request with
  | clock => exact .inr (.inl ⟨_, rfl, answers⟩)
  | openDevice path => exact .inr (.inl ⟨_, rfl, answers⟩)
  | watch path =>
    cases answer with
    | error cause => exact .inl answers
    | ok watch =>
      obtain ⟨node, names, ⟨_, same⟩ | ⟨_, _, same⟩⟩ := answers
      · exact .inl same
      · exact .inr (.inr ⟨path, node, names, same⟩)
  | poll descriptors timeout =>
    cases answer with
    | error cause => exact .inl answers
    | ok readiness => exact .inl answers.1
  | readNotices => cases quiet
  | _ => exact .inl answers

/-- A read takes what it hands out from the front of the queue. -/
theorem Answers.read {answer : Except OsError (List Notice)}
    (answers : Answers .readNotices directories answer next) :
    ∃ rest, directories.notices = answer.toOption.getD [] ++ rest ∧
      next = { directories with notices := rest } := by
  cases answer with
  | ok batch =>
    obtain ⟨rest, front, _, same⟩ := answers
    exact ⟨rest, front, same⟩
  | error cause => exact ⟨directories.notices, rfl, answers.1⟩

/-- How descriptors come back from a wait when no more than notices is ready. -/
def readiness (directories : Directories) : Descriptor → Readiness
  | .notices => if directories.notices.isEmpty then .idle else .readable
  | _ => .idle

/-- A wait for notices ends at once while one is queued. -/
theorem wakes_of_notice {descriptors : List Descriptor} (queued : directories.notices ≠ [])
    (waited : .notices ∈ descriptors) :
    surroundings.Wakes directories descriptors .notices := by
  have unread : directories.notices.isEmpty = false := List.isEmpty_eq_false_iff.mpr queued
  intro timeout
  constructor
  · refine ⟨descriptors.map directories.readiness, directories, rfl, _, rfl, rfl, fun _ =>
      ⟨.notices, waited, ?_⟩⟩
    rw [readiness, unread]
    exact Readiness.noConfusion
  · rintro readiness next ⟨_, ready, rfl, notices, _⟩
    rw [unread] at notices
    rw [← List.map_prod_left_eq_zip]
    exact List.mem_map.mpr ⟨.notices, waited, congrArg (Prod.mk _) notices⟩

/-! ## Watches live as long as their directories -/

/-- Paths name only directories that are there, and a watch is live exactly as long as its
directory is there. -/
structure Sound (directories : Directories) : Prop where
  present : directories.NamesPresent
  lives : ∀ watch ∈ directories.watches, watch.live = true ↔ ¬ directories.Gone watch.node

/-- Before anything is watched or removed, all is in order. -/
theorem sound_start (named : Path → Option Nat) : (start named).Sound :=
  ⟨fun _ _ _ gone => List.not_mem_nil gone, fun _ member => absurd member List.not_mem_nil⟩

/-- A touch makes a directory gone exactly if it says so. -/
theorem gone_touch {touch : Host.Touch} :
    (directories.touch touch).Gone node ↔ directories.Gone node ∨ touch = .gone node := by
  simp [Gone, Directories.touch, eq_comm]

/-- What the program does removes no directory. -/
theorem gone_record {happening : Happening} (inside : happening.isTouch = false) :
    (directories.record happening).Gone node ↔ directories.Gone node := by
  cases happening <;> simp_all [Gone, record, Happening.isTouch]

/-- A touch ends exactly the watches on the directory that it removes. -/
theorem Sound.lives_touch (sound : directories.Sound) (touch : Host.Touch) :
    ∀ watch ∈ (directories.touch touch).watches,
      watch.live = true ↔ ¬ (directories.touch touch).Gone watch.node := by
  intro watch member
  rw [gone_touch]
  cases touch with
  | entry directory name => simpa using sound.lives watch member
  | mode changed => simpa using sound.lives watch member
  | gone removed =>
    obtain ⟨before, found, rfl⟩ := List.mem_map.mp member
    have lives := sound.lives before found
    split
    · rename_i same
      simp [same]
    · rename_i other
      have distinct : Host.Touch.gone removed ≠ .gone before.node :=
        fun same => other (Host.Touch.gone.inj same).symm
      simpa [distinct] using lives

/-- No change from outside leaves a live watch on a directory that is gone, or ends another. -/
theorem Changes.sound (changes : Changes directories next) (sound : directories.Sound) :
    next.Sound := by
  cases changes with
  | touched touch named same present =>
    subst same
    exact ⟨present, sound.lives_touch touch⟩
  | renamed named same present =>
    subst same
    exact ⟨present, sound.lives⟩

/-- No answered request breaks this order, since a watch is set on a directory that is there. -/
theorem Answers.sound {request : Request} {answer : request.Answer}
    (answers : Answers request directories answer next) (sound : directories.Sound) :
    next.Sound := by
  cases quiet : isQuiet request with
  | true =>
    obtain rfl | ⟨happening, inside, rfl⟩ | ⟨path, node, names, rfl⟩ := answers.cases quiet
    · exact sound
    · exact ⟨fun path node names => by rw [gone_record inside]; exact sound.present path node names,
        fun watch member => by rw [gone_record inside]; exact sound.lives watch member⟩
    · refine ⟨sound.present, fun watch member => ?_⟩
      rcases List.mem_append.mp member with before | new
      · exact sound.lives watch before
      · rw [List.mem_singleton.mp new]
        exact iff_of_true rfl (sound.present path node names)
  | false =>
    cases request with
    | readNotices =>
      obtain ⟨rest, _, rfl⟩ := answers.read
      exact ⟨sound.present, sound.lives⟩
    | _ => cases quiet

/-- Whatever a routine does, watches live as long as their directories. -/
theorem ensures_sound {α : Type} (routine : Routine α) :
    surroundings.Ensures Sound routine fun _ => Sound :=
  Surroundings.ensures_of_kept (fun _ _ => Changes.sound) (fun _ _ _ _ => Answers.sound) routine

/-- The watch on a directory is live exactly as long as the directory is there. -/
theorem Sound.isLive_iff (sound : directories.Sound) :
    directories.IsLive watch node ↔ directories.IsOn watch node ∧ ¬ directories.Gone node := by
  constructor
  · intro live
    have member := List.mem_of_getElem? live
    exact ⟨⟨true, live⟩, (sound.lives _ member).mp rfl⟩
  · rintro ⟨⟨live, set⟩, present⟩
    have lives := (sound.lives _ (List.mem_of_getElem? set)).mpr present
    rw [IsLive, set, show live = true from lives]

/-! ## A host with directories only -/

/-- The watch on a directory, set now if there is none. -/
def watchOn (directories : Directories) (node : Nat) : WatchId × Directories :=
  match directories.watches.findIdx? (· = ⟨node, true⟩) with
  | some position => (⟨position⟩, directories)
  | none => (⟨directories.watches.length⟩,
      { directories with watches := directories.watches ++ [⟨node, true⟩] })

/-- A directory that a path names may be watched by the watch that it has, or by a new one. -/
theorem answers_watchOn {path : Path} (names : directories.named path = some node) :
    Answers (.watch path) directories (.ok (directories.watchOn node).1)
      (directories.watchOn node).2 := by
  refine ⟨node, names, ?_⟩
  rw [watchOn]
  split
  · rename_i position found
    obtain ⟨inside, same, _⟩ := List.findIdx?_eq_some_iff_getElem.mp found
    exact .inl ⟨List.getElem?_eq_some_iff.mpr ⟨inside, of_decide_eq_true same⟩, rfl⟩
  · rename_i none
    have unset : ⟨node, true⟩ ∉ directories.watches := fun member => by
      simpa using List.findIdx?_eq_none_iff.mp none _ member
    exact .inr ⟨unset, rfl, rfl⟩

/-- A host that has directories to watch and nothing else: no input opens, and a wait in which
nothing gets ready is interrupted. -/
def answer : (request : Request) → Directories → request.Answer × Directories
  | .clock, directories => (⟨0⟩, directories.record (.clock ⟨0⟩))
  | .openDevice path, directories => (.error .noEntry, directories.record (.tried path))
  | .startNotices, directories => (.ok (), directories)
  | .watch path, directories =>
    match directories.named path with
    | none => (.error .noEntry, directories)
    | some node => (.ok (directories.watchOn node).1, (directories.watchOn node).2)
  | .readNotices, directories => (.ok directories.notices, { directories with notices := [] })
  | .poll descriptors _, directories =>
    if ∃ descriptor ∈ descriptors, directories.readiness descriptor ≠ .idle then
      (.ok (descriptors.map directories.readiness), directories)
    else (.error .interrupted, directories)
  | _, directories => (default, directories)

/-- Such a host answers as the surroundings allow. -/
theorem answers_answer (request : Request) (directories : Directories) :
    surroundings.Answers request directories (answer request directories).1
      (answer request directories).2 := by
  cases request with
  | watch path =>
    rw [answer]
    split
    · rfl
    · rename_i node names
      exact answers_watchOn names
  | readNotices => exact ⟨[], (List.append_nil _).symm, fun _ => rfl, rfl⟩
  | poll descriptors timeout =>
    rw [answer]
    split
    · rename_i ready
      exact ⟨rfl, _, rfl, rfl, fun _ => ready⟩
    · rfl
  | _ => rfl

end Directories

end Keyhold
