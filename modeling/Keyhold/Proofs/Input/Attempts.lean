import Keyhold.Proofs.Input.Polling
import Keyhold.Proofs.System.Marks

/-!
# Attempts to open inputs

What a monitor does to devices is seen in marks that carry the answers: its attempts to open
them, its waits, reads and closings. Starting tries the inputs in order, the required ones
first, and ends at the first required one that does not open; the others may be absent
(`outcome_of_start`).
-/

namespace Keyhold

open Keyhold.System

/-- What a monitor does to devices, and what came of it. -/
inductive DeviceMark where
  /-- It tries to open an input. -/
  | tried (path : Path) (answer : Except OsError OpenedDevice)
  /-- It waits. -/
  | waited (answer : Except OsError (List Readiness))
  /-- It reads a device. -/
  | read (device : DeviceHandle) (answer : Except OsError (List Report))
  /-- It closes a device. -/
  | closed (device : DeviceHandle)

/-- The mark of a request about devices. -/
def DeviceMark.view : View DeviceMark
  | .openDevice path, answer => some (.tried path answer)
  | .poll _ _, answer => some (.waited answer)
  | .readDevice device, answer => some (.read device answer)
  | .closeDevice device, _ => some (.closed device)
  | _, _ => none

/-- Whether it is an attempt to open an input. -/
def DeviceMark.IsTry (mark : DeviceMark) : Prop := ∃ path answer, mark = .tried path answer

/-- Why an input does not open. -/
def refusal? (path : Path) : Except OsError OpenedDevice → Option InputError
  | .ok _ => none
  | .error cause => some (.unopened path cause)

variable {marks : List DeviceMark}

/-- What single sources are searched with are attempts. -/
theorem DeviceMark.tries_of_asks {α : Type} {routine : Routine α} {result : α}
    (asks : routine.Asks (Source.isSought ·)) (shows : routine.Shows view marks result) :
    ∀ mark ∈ marks, mark.IsTry := by
  refine Routine.forall_marks_of_asks asks ?_ shows
  intro request sought answer mark seen
  cases request with
  | openDevice path => exact ⟨path, answer, (Option.some.inj seen).symm⟩
  | readDevice device => cases sought
  | poll descriptors timeout => cases sought
  | closeDevice device => cases sought
  | _ => cases seen

namespace Source

variable {source opened : Source} {failure : Option InputError}

/-- An attempt to open a source leaves the source with a device exactly when it succeeds. -/
theorem tried_of_tryOpen (shows : source.tryOpen.Shows DeviceMark.view marks (opened, failure)) :
    ∃ answer, marks = [.tried source.path answer] ∧ failure = refusal? source.path answer ∧
      opened.isMissing = failure.isSome := by
  obtain ⟨now, _, rfl, answer, _, rfl, further⟩ := shows
  refine ⟨answer, ?_⟩
  cases answer with
  | ok device =>
    obtain ⟨_, _, rfl, rfl, done⟩ := further
    cases done
    exact ⟨rfl, rfl, rfl⟩
  | error cause =>
    obtain ⟨rfl, done⟩ := further
    cases done
    exact ⟨rfl, rfl, rfl⟩

end Source

namespace Monitor

variable {sources : List Source} {source tried : Source} {failure : Option InputError}
  {required waited : List Path} {watching : Bool}

/-- Opening a source is one attempt. -/
theorem tried_of_openSource
    (shows : (openSource watching source).Shows DeviceMark.view marks (tried, failure)) :
    ∃ answer, marks = [.tried source.path answer] ∧ failure = refusal? source.path answer ∧
      tried.waits = source.waits ∧ tried.isMissing = failure.isSome := by
  obtain ⟨path, waits⟩ := Prod.mk.inj (place_of_openSource shows.yields)
  obtain ⟨prepared, _, _, rfl, prepares, tries⟩ := Routine.shows_bind.mp shows
  have silent : ((if watching && source.waits then source.watchDirectory else pure source) :
      Routine Source).Asks fun request => ∀ answer, DeviceMark.view request answer = none := by
    split
    · refine ⟨fun _ => rfl, fun answer => ?_⟩
      cases answer with
      | ok watch => trivial
      | error cause => exact ⟨fun _ => rfl, fun _ => trivial⟩
    · trivial
  obtain ⟨answer, marked, refused, missing⟩ := Source.tried_of_tryOpen tries
  have same : tried.path = prepared.path := congrArg Prod.fst (Source.setup_of_tryOpen tries.yields)
  rw [← same, path] at marked refused
  refine ⟨answer, ?_, refused, waits, missing⟩
  rw [Routine.marks_of_asks silent (fun _ ignored => ignored) prepares, List.nil_append, marked]

/-- Why the first required source that does not open does not. -/
def firstRefusal? (sources : List Source) (answers : List (Except OsError OpenedDevice)) :
    Option InputError :=
  (sources.zip answers).findSome? fun tried =>
    if tried.1.waits then none else refusal? tried.1.path tried.2

/-- The first source refuses before the others, unless it is waited for or opens. -/
theorem firstRefusal?_cons (source : Source) (sources : List Source)
    (answer : Except OsError OpenedDevice) (answers : List (Except OsError OpenedDevice)) :
    firstRefusal? (source :: sources) (answer :: answers) =
      (if source.waits then none else refusal? source.path answer).or
        (firstRefusal? sources answers) := by
  rw [firstRefusal?, List.zip_cons_cons, List.findSome?_cons]
  dsimp only
  cases (if source.waits then none else refusal? source.path answer) <;> rfl

/-- Whether only sources that are waited for are missing. -/
def HoldsRequired (sources : List Source) : Prop :=
  ∀ source ∈ sources, source.isMissing = true → source.waits = true

/-- Whether sources were tried in order, up to the first required one that does not open: with it
opening them fails, and else no required one is missing. -/
structure AreTried (sources : List Source) (answers : List (Except OsError OpenedDevice))
    (marks : List DeviceMark) (result : Except InputError (List Source)) : Prop where
  marks : marks = List.zipWith .tried (sources.map Source.path) answers
  fails : ∀ error, result = .error error ↔ firstRefusal? sources answers = some error
  complete : ∀ opened, result = .ok opened →
    answers.length = sources.length ∧ HoldsRequired opened

namespace AreTried

variable {answers : List (Except OsError OpenedDevice)} {answer : Except OsError OpenedDevice}
  {result : Except InputError (List Source)} {error : InputError}

/-- Without sources nothing is tried, and all are open. -/
theorem nil : AreTried [] [] [] (.ok []) := by
  refine ⟨rfl, by simp [firstRefusal?], ?_⟩
  rintro opened ⟨⟩
  exact ⟨rfl, fun _ member => absurd member List.not_mem_nil⟩

/-- An attempt that is not fatal comes before those at the others. -/
theorem cons (harmless : (if source.waits then none else refusal? source.path answer) = none)
    (fine : tried.isMissing = true → tried.waits = true)
    (others : AreTried sources answers marks result) :
    AreTried (source :: sources) (answer :: answers) (.tried source.path answer :: marks)
      (result.map (tried :: ·)) := by
  refine ⟨?_, fun error => ?_, ?_⟩
  · rw [List.map_cons, List.zipWith_cons_cons, ← others.marks]
  · rw [firstRefusal?_cons, harmless, Option.none_or, ← others.fails]
    cases result <;> simp [Except.map]
  · rintro opened ok
    cases result with
    | error cause => cases ok
    | ok rest =>
      cases ok
      obtain ⟨count, present⟩ := others.complete rest rfl
      exact ⟨congrArg (· + 1) count, List.forall_mem_cons.mpr ⟨fine, present⟩⟩

/-- A required source that does not open is the last one tried. -/
theorem last (unwaited : ¬source.waits = true)
    (refused : refusal? source.path answer = some error) :
    AreTried (source :: sources) [answer] [.tried source.path answer] (.error error) := by
  refine ⟨by simp, fun other => ?_, fun _ ok => by cases ok⟩
  rw [firstRefusal?_cons, if_neg unwaited, refused, Option.some_or, Except.error.injEq,
    Option.some.injEq]

end AreTried

/-- Opening sources tries them in order up to the first fatal attempt: behind any other one the
rest follow. -/
theorem tried_of_openSources {result : Except InputError (List Source)}
    (shows : (openSources watching sources).Shows DeviceMark.view marks result) :
    ∃ answers, AreTried sources answers marks result := by
  induction sources generalizing marks result with
  | nil =>
    obtain ⟨rfl, rfl⟩ := shows
    exact ⟨[], .nil⟩
  | cons source rest ih =>
    rw [openSources_cons] at shows
    obtain ⟨⟨tried, failure⟩, _, _, rfl, tries, further⟩ := Routine.shows_bind.mp shows
    obtain ⟨answer, rfl, refused, waits, missing⟩ := tried_of_openSource tries
    have settled (later : List DeviceMark)
        (harmless : (if source.waits then none else refusal? source.path answer) = none)
        (fine : tried.isMissing = true → tried.waits = true)
        (shows : (openSources watching rest >>= openSources.settle tried).Shows DeviceMark.view
          later result) :
        ∃ answers, AreTried (source :: rest) answers (.tried source.path answer :: later)
          result := by
      obtain ⟨_, _, _, rfl, opens, rfl, rfl⟩ := Routine.shows_bind.mp shows
      obtain ⟨answers, others⟩ := ih opens
      rw [List.append_nil]
      exact ⟨answer :: answers, others.cons harmless fine⟩
    rw [goOn.eq_def] at further
    cases failure with
    | none =>
      refine settled _ ?_ ?_ further
      · rw [← refused, ite_self]
      · intro absent
        rw [missing] at absent
        cases absent
    | some error =>
      dsimp only at further
      split at further
      · rename_i isWaited
        obtain ⟨_, _, _, rfl, ⟨_, _, rfl, rfl, _⟩, opens⟩ := Routine.shows_bind.mp further
        refine settled _ ?_ (fun _ => isWaited) opens
        rw [if_pos (waits ▸ isWaited)]
      · rename_i unwaited
        obtain ⟨rfl, rfl⟩ := further
        exact ⟨[answer], .last (waits ▸ unwaited) refused.symm⟩

/-- Only required paths are counted. -/
theorem firstRefusal?_sourcesOf (required waited : List Path)
    (answers : List (Except OsError OpenedDevice)) :
    firstRefusal? (sourcesOf required waited) answers =
      (required.zip answers).findSome? fun tried => refusal? tried.1 tried.2 := by
  induction required generalizing answers with
  | nil =>
    rw [List.zip_nil_left, List.findSome?_nil, firstRefusal?, List.findSome?_eq_none_iff]
    intro tried member
    have waits : tried.1.waits = true := by
      obtain ⟨_, _, same⟩ := List.mem_map.mp (List.of_mem_zip member).1
      rw [← same]
      rfl
    rw [if_pos waits]
  | cons path rest ih =>
    cases answers with
    | nil => simp [firstRefusal?]
    | cons answer answers =>
      have step : firstRefusal? (sourcesOf (path :: rest) waited) (answer :: answers) =
          (refusal? path answer).or (firstRefusal? (sourcesOf rest waited) answers) := by
        rw [sourcesOf, List.map_cons, List.cons_append, firstRefusal?_cons]
        rfl
      rw [step, ih, List.zip_cons_cons, List.findSome?_cons]
      cases answer <;> rfl

/-- With any inputs, starting tries them in order and comes to what that comes to. -/
theorem tried_of_start {result : Except InputError Monitor}
    (inputs : ¬(required = [] ∧ waited = []))
    (shows : (start required waited).Shows DeviceMark.view marks result) :
    ∃ watching opened answers, AreTried (sourcesOf required waited) answers marks opened ∧
      result = opened.map fun sources => ⟨sources, [], watching⟩ := by
  rw [start_eq, if_neg (by simpa using inputs)] at shows
  obtain ⟨watching, _, _, rfl, prepares, opensAll⟩ := Routine.shows_bind.mp shows
  have silent : ((if waited.isEmpty then pure false else startWatching) : Routine Bool).Asks
      fun request => ∀ answer, DeviceMark.view request answer = none :=
    asks_prelude (fun _ => rfl) (fun _ _ => rfl) waited
  rw [Routine.marks_of_asks silent (fun _ ignored => ignored) prepares, List.nil_append]
  obtain ⟨opened, _, _, rfl, opens, rfl, rfl⟩ := Routine.shows_bind.mp opensAll
  obtain ⟨answers, tried⟩ := tried_of_openSources opens
  rw [List.append_nil]
  exact ⟨watching, opened, answers, tried, rfl⟩

/-- Starting fails without inputs, and else exactly when a required input does not open: with the
error of the first such one. -/
theorem outcome_of_start {result : Except InputError Monitor}
    (shows : (start required waited).Shows DeviceMark.view marks result) :
    (result = .error .noInputs ↔ required = [] ∧ waited = []) ∧
    (¬(required = [] ∧ waited = []) →
      ∃ answers, marks = List.zipWith .tried (required ++ waited) answers ∧
        (∀ error, result = .error error ↔
          ((required.zip answers).findSome? fun tried => refusal? tried.1 tried.2) =
            some error) ∧
        ∀ monitor, result = .ok monitor → answers.length = (required ++ waited).length) ∧
    ∀ monitor, result = .ok monitor → HoldsRequired monitor.sources := by
  by_cases empty : required = [] ∧ waited = []
  · obtain ⟨rfl, rfl⟩ := empty
    rw [start_eq] at shows
    obtain ⟨rfl, rfl⟩ := shows
    simp
  · obtain ⟨watching, opened, answers, tried, rfl⟩ := tried_of_start empty shows
    have paths : (sourcesOf required waited).map Source.path = required ++ waited := by
      simp [sourcesOf, Source.unopened, Function.comp_def]
    have fails (error : InputError) : opened.map (fun sources =>
        (⟨sources, [], watching⟩ : Monitor)) = .error error ↔
          ((required.zip answers).findSome? fun tried => refusal? tried.1 tried.2) =
            some error := by
      rw [← firstRefusal?_sourcesOf required waited, ← tried.fails]
      cases opened <;> simp [Except.map]
    have complete (monitor : Monitor) (ok : opened.map (fun sources =>
        (⟨sources, [], watching⟩ : Monitor)) = .ok monitor) :
        answers.length = (sourcesOf required waited).length ∧ HoldsRequired monitor.sources := by
      cases opened with
      | error error => cases ok
      | ok sources =>
        cases ok
        exact tried.complete sources rfl
    refine ⟨iff_of_false ?_ empty, fun _ => ⟨answers, ?_, fails, ?_⟩, ?_⟩
    · rw [fails]
      intro found
      obtain ⟨⟨path, answer⟩, _, refused⟩ := List.exists_of_findSome?_eq_some found
      cases answer <;> cases refused
    · rw [tried.marks, paths]
    · intro monitor ok
      rw [(complete monitor ok).1, ← paths, List.length_map]
    · exact fun monitor ok => (complete monitor ok).2

end Monitor

end Keyhold
