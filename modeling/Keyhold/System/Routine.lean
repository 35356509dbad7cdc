import Keyhold.System.Request

/-!
# Routines

A routine is a computation that may put requests to the operating system: it is finished with
a result, or it asks something and goes on with the answer. Routines are data. `Routine.run`
lets a host that answers every request in turn carry one out; `Routine.Yields` says which
results some answers lead to, whatever the system is like. `yields_bind` and `run_bind` take
either reading through the sequence of two routines.
-/

namespace Keyhold.System

/-- A computation that may ask the operating system. -/
inductive Routine (α : Type) where
  | done (result : α)
  | ask (request : Request) (next : request.Answer → Routine α)

namespace Routine

variable {α β γ : Type}

/-- One routine after another. -/
def bind (routine : Routine α) (next : α → Routine β) : Routine β :=
  match routine with
  | .done result => next result
  | .ask request rest => .ask request fun answer => (rest answer).bind next

instance : Monad Routine where
  pure := .done
  bind := bind

/-- Asks one request and returns its answer. -/
def request (request : Request) : Routine request.Answer := .ask request .done

/-- Writes one log message. -/
def report (message : Message) : Routine Unit := request (.log message)

/-- Writes log messages in order. -/
def reportAll : List Message → Routine Unit
  | [] => .done ()
  | message :: rest => .ask (.log message) fun _ => reportAll rest

/-- A result alone is a finished routine. -/
@[simp] theorem pure_eq (result : α) : (pure result : Routine α) = .done result := rfl

/-- Behind a finished routine the next one goes on with its result. -/
@[simp] theorem bind_done (result : α) (next : α → Routine β) :
    (.done result : Routine α) >>= next = next result := rfl

/-- A sequence asks what its first part asks, and goes on behind the answer. -/
@[simp] theorem bind_ask (request : Request) (rest : request.Answer → Routine α)
    (next : α → Routine β) :
    (.ask request rest : Routine α) >>= next = .ask request fun answer => rest answer >>= next :=
  rfl

/-- Sequences of three may be grouped either way. -/
theorem bind_assoc (routine : Routine α) (first : α → Routine β) (second : β → Routine γ) :
    (routine >>= first) >>= second = routine >>= fun result => first result >>= second := by
  induction routine with
  | done result => rfl
  | ask request rest ih =>
    simp only [bind_ask]
    congr 1
    funext answer
    exact ih answer

/-- A result that some answers of the system lead to. -/
def Yields : Routine α → α → Prop
  | .done result, expected => result = expected
  | .ask _ next, expected => ∃ answer, (next answer).Yields expected

/-- A result of two routines in sequence comes from a result of the first. -/
theorem yields_bind {routine : Routine α} {next : α → Routine β} {result : β} :
    (routine >>= next).Yields result ↔
      ∃ middle, routine.Yields middle ∧ (next middle).Yields result := by
  induction routine with
  | done first => simp [Yields]
  | ask request rest ih =>
    simp only [bind_ask, Yields, ih]
    constructor
    · rintro ⟨answer, middle, first, second⟩
      exact ⟨middle, ⟨answer, first⟩, second⟩
    · rintro ⟨middle, ⟨answer, first⟩, second⟩
      exact ⟨answer, middle, first, second⟩

/-- Carries a routine out on a host that answers each request and changes with it. -/
def run {σ : Type} (answer : (request : Request) → σ → request.Answer × σ) :
    Routine α → σ → α × σ
  | .done result, host => (result, host)
  | .ask request next, host =>
    (next (answer request host).1).run answer (answer request host).2

/-- Two routines in sequence are carried out one after the other. -/
theorem run_bind {σ : Type} (answer : (request : Request) → σ → request.Answer × σ)
    (routine : Routine α) (next : α → Routine β) (host : σ) :
    (routine >>= next).run answer host =
      (next (routine.run answer host).1).run answer (routine.run answer host).2 := by
  induction routine generalizing host with
  | done result => rfl
  | ask request rest ih => exact ih _ _

/-- What a host leads a routine to is one of its results. -/
theorem yields_run {σ : Type} (answer : (request : Request) → σ → request.Answer × σ)
    (routine : Routine α) (host : σ) : routine.Yields (routine.run answer host).1 := by
  induction routine generalizing host with
  | done result => rfl
  | ask request rest ih => exact ⟨_, ih _ _⟩

end Routine

end Keyhold.System
