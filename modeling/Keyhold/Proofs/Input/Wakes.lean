import Keyhold.Proofs.Input.Polling

/-!
# Pipes that a round tells of

Besides its sources a monitor waits for pipes whose only use is to end the wait. A round that ends
well tells of exactly those that the wait has found ready, in the order in which they were added
(`woken_of_serveReady`).
-/

namespace Keyhold

open Keyhold.System

namespace Monitor

variable {monitor next : Monitor} {progress after : Progress} {failure : Option InputError}
  {outcome : Outcome}

/-- The pipes that are found woken at one place. -/
def wokenAt : Slot × Readiness → List WakeId
  | (_, .idle) => []
  | (.wake pipe, _) => [pipe]
  | _ => []

/-- A lost source wakes no pipe. -/
theorem outcome_of_serveLost {position : Nat} {source : Source}
    (serves : (serveLost progress position source).Yields (after, failure)) :
    after.outcome = progress.outcome := by
  obtain ⟨_, _, done⟩ := Routine.yields_bind.mp serves
  cases done
  rfl

/-- Serving a source adds no pipe to those that woke the daemon. -/
theorem woken_of_serveSource {position : Nat} {readiness : Readiness}
    (serves : (serveSource progress position readiness).Yields (after, failure)) :
    after.outcome.woken = progress.outcome.woken := by
  rw [serveSource] at serves
  split at serves
  · cases serves
    rfl
  · split at serves
    · rw [outcome_of_serveLost serves]
    · obtain ⟨reading, _, further⟩ := Routine.yields_bind.mp serves
      cases reading with
      | events events =>
        cases further
        rfl
      | broken => rw [outcome_of_serveLost further]

/-- Serving one descriptor adds its pipe, if it is a pipe that is ready. -/
theorem woken_of_serveSlot {slot : Slot} {readiness : Readiness}
    (serves : (serveSlot progress slot readiness).Yields (after, failure)) :
    after.outcome.woken = progress.outcome.woken ++ wokenAt (slot, readiness) := by
  cases readiness with
  | idle =>
    cases serves
    exact (List.append_nil _).symm
  | _ =>
    cases slot with
    | wake pipe =>
      cases serves
      rfl
    | notices =>
      cases serves
      exact (List.append_nil _).symm
    | source position => exact (woken_of_serveSource serves).trans (List.append_nil _).symm

/-- Serving finds exactly the pipes woken that are ready, in their order. -/
theorem woken_of_serve {ready : List (Slot × Readiness)}
    (serves : (serve progress ready).Yields (after, none)) :
    after.outcome.woken = progress.outcome.woken ++ ready.flatMap wokenAt := by
  induction ready generalizing progress with
  | nil =>
    cases serves
    exact (List.append_nil _).symm
  | cons first rest ih =>
    obtain ⟨⟨served, refusal⟩, front, further⟩ := Routine.yields_bind.mp serves
    cases refusal with
    | none => rw [ih further, woken_of_serveSlot front, List.flatMap_cons, List.append_assoc]
    | some error => cases further

/-- Notices wake no pipe. -/
theorem outcome_of_serveNotices (serves : (serveNotices progress).Yields (after, failure)) :
    after.outcome = progress.outcome := by
  obtain ⟨answer, _, further⟩ := Routine.yields_bind.mp serves
  cases answer with
  | error cause =>
    cases further
    rfl
  | ok notices =>
    obtain ⟨sources, _, done⟩ := Routine.yields_bind.mp further
    cases done
    rfl

/-- A round tells of every pipe that its wait found ready. -/
theorem woken_of_serveReady {readiness : List Readiness}
    (serves : (monitor.serveReady readiness).Yields (next, .ok outcome)) :
    outcome.woken = ((monitor.slots.map (·.1)).zip readiness).flatMap wokenAt := by
  obtain ⟨⟨served, refusal⟩, servesAll, done⟩ := Routine.yields_bind.mp serves
  cases refusal with
  | some error => cases done
  | none =>
    cases done
    obtain ⟨⟨progress, refusal⟩, front, further⟩ := Routine.yields_bind.mp servesAll
    cases refusal with
    | some error => cases further
    | none =>
      have slots := woken_of_serve front
      simp only at further
      split at further
      · rw [outcome_of_serveNotices further]
        exact slots
      · cases further
        exact slots

/-- A pipe that is waited for has a slot. -/
theorem mem_slots_of_wakes {pipe : WakeId} (waits : pipe ∈ monitor.wakes) :
    (.wake pipe, .wake pipe) ∈ monitor.slots :=
  List.mem_append_right _ (List.mem_map_of_mem waits)

/-- A pipe that is waited for is one of the descriptors of the wait. -/
theorem mem_descriptors_of_wakes {pipe : WakeId} (waits : pipe ∈ monitor.wakes) :
    .wake pipe ∈ monitor.descriptors :=
  List.mem_map_of_mem (f := Prod.snd) (mem_slots_of_wakes waits)

/-- A round tells of every pipe that is waited for and comes back ready. -/
theorem mem_woken_of_serveReady {pipe : WakeId} {ready : Descriptor → Readiness}
    (waits : pipe ∈ monitor.wakes) (isReady : ready (.wake pipe) = .readable)
    (serves : (monitor.serveReady (monitor.descriptors.map ready)).Yields (next, .ok outcome)) :
    pipe ∈ outcome.woken := by
  have found : (.wake pipe, .readable) ∈
      (monitor.slots.map (·.1)).zip (monitor.descriptors.map ready) := by
    rw [descriptors, List.map_map, List.zip_map']
    exact List.mem_map.mpr ⟨_, mem_slots_of_wakes waits, congrArg (Prod.mk _) isReady⟩
  have tells : pipe ∈ wokenAt (.wake pipe, .readable) := List.mem_singleton_self pipe
  rw [woken_of_serveReady serves]
  exact List.mem_flatMap.mpr ⟨_, found, tells⟩

end Monitor

end Keyhold
