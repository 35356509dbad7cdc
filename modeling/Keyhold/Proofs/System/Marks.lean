import Keyhold.Proofs.System.Surroundings

/-!
# What a routine is seen to do

A view reads a mark off the requests of interest and their answers. `Shows` says which marks a
routine may leave, in order, on its way to a result, whatever is answered. Marks of routines in
sequence follow one another (`shows_bind`), and requests that the view ignores leave none
(`marks_of_asks`).
-/

namespace Keyhold.System

/-- What is read off a request and its answer, where that is of interest. -/
abbrev View (μ : Type) := (request : Request) → request.Answer → Option μ

namespace Routine

variable {α β μ : Type} {view : View μ} {marks : List μ}

/-- Whether a routine may come to a result and leave these marks on the way. -/
def Shows (view : View μ) : Routine α → List μ → α → Prop
  | .done result, marks, expected => marks = [] ∧ result = expected
  | .ask request next, marks, expected =>
    ∃ answer later, marks = (view request answer).toList ++ later ∧
      (next answer).Shows view later expected

/-- The marks of two routines in sequence are those of the first and then those of the second. -/
theorem shows_bind {routine : Routine α} {next : α → Routine β} {result : β} :
    (routine >>= next).Shows view marks result ↔
      ∃ middle earlier later, marks = earlier ++ later ∧ routine.Shows view earlier middle ∧
        (next middle).Shows view later result := by
  induction routine generalizing marks with
  | done first =>
    rw [bind_done]
    constructor
    · intro shows
      exact ⟨first, [], marks, rfl, ⟨rfl, rfl⟩, shows⟩
    · rintro ⟨middle, earlier, later, rfl, ⟨rfl, rfl⟩, shows⟩
      exact shows
  | ask request rest ih =>
    rw [bind_ask]
    constructor
    · rintro ⟨answer, further, rfl, shows⟩
      obtain ⟨middle, earlier, later, rfl, front, back⟩ := (ih answer).mp shows
      exact ⟨middle, _, later, (List.append_assoc _ _ _).symm, ⟨answer, earlier, rfl, front⟩, back⟩
    · rintro ⟨middle, earlier, later, rfl, ⟨answer, inner, rfl, front⟩, back⟩
      exact ⟨answer, inner ++ later, List.append_assoc _ _ _,
        (ih answer).mpr ⟨middle, inner, later, rfl, front, back⟩⟩

/-- What a routine is seen to come to is one of its results. -/
theorem Shows.yields {routine : Routine α} {result : α} (shows : routine.Shows view marks result) :
    routine.Yields result := by
  induction routine generalizing marks with
  | done first => exact shows.2
  | ask request rest ih =>
    obtain ⟨answer, _, _, further⟩ := shows
    exact ⟨answer, ih answer further⟩

/-- On the way to each of its results a routine leaves some marks. -/
theorem exists_shows_of_yields {routine : Routine α} {result : α} (view : View μ)
    (yields : routine.Yields result) : ∃ marks, routine.Shows view marks result := by
  induction routine with
  | done first => exact ⟨[], rfl, yields⟩
  | ask request rest ih =>
    obtain ⟨answer, further⟩ := yields
    obtain ⟨later, shows⟩ := ih answer further
    exact ⟨_, answer, later, rfl, shows⟩

/-- Requests of one kind leave marks of one kind. -/
theorem forall_marks_of_asks {allowed : Request → Prop} {routine : Routine α} {result : α}
    {kind : μ → Prop} (asks : routine.Asks allowed)
    (each : ∀ request, allowed request → ∀ answer, ∀ mark ∈ view request answer, kind mark)
    (shows : routine.Shows view marks result) : ∀ mark ∈ marks, kind mark := by
  induction routine generalizing marks with
  | done first =>
    rw [shows.1]
    exact fun _ member => absurd member List.not_mem_nil
  | ask request rest ih =>
    obtain ⟨answer, later, rfl, further⟩ := shows
    intro mark member
    rcases List.mem_append.mp member with now | afterwards
    · exact each request asks.1 answer mark (Option.mem_toList.mp now)
    · exact ih answer (asks.2 answer) further mark afterwards

/-- Requests that the view ignores leave no marks. -/
theorem marks_of_asks {allowed : Request → Prop} {routine : Routine α} {result : α}
    (asks : routine.Asks allowed)
    (ignored : ∀ request, allowed request → ∀ answer, view request answer = none)
    (shows : routine.Shows view marks result) : marks = [] := by
  refine List.eq_nil_iff_forall_not_mem.mpr (forall_marks_of_asks asks ?_ shows)
  intro request isAllowed answer mark seen
  rw [ignored request isAllowed answer] at seen
  cases seen

/-- The marks that a routine leaves on a host. -/
def trail {σ : Type} (view : View μ) (answer : (request : Request) → σ → request.Answer × σ) :
    Routine α → σ → List μ
  | .done _, _ => []
  | .ask request next, host =>
    (view request (answer request host).1).toList ++
      (next (answer request host).1).trail view answer (answer request host).2

/-- A host shows the marks that a routine leaves on it. -/
theorem shows_run {σ : Type} (answer : (request : Request) → σ → request.Answer × σ)
    (routine : Routine α) (host : σ) :
    routine.Shows view (routine.trail view answer host) (routine.run answer host).1 := by
  induction routine generalizing host with
  | done result => exact ⟨rfl, rfl⟩
  | ask request rest ih => exact ⟨_, _, rfl, ih _ _⟩

end Routine

/-! ## Whole logs -/

/-- A request with its answer. -/
abbrev Exchange : Type := (request : Request) × request.Answer

/-- The view that leaves nothing out. -/
def Exchange.view : View Exchange := fun request answer => some ⟨request, answer⟩

/-- What a view reads off a log. -/
def View.marks {μ : Type} (view : View μ) (log : List Exchange) : List μ :=
  log.filterMap fun exchange => view exchange.1 exchange.2

namespace View

variable {μ : Type} (view : View μ)

/-- Nothing is read off an empty log. -/
@[simp] theorem marks_nil : view.marks [] = [] := rfl

/-- Logs one after another are read off one after another. -/
@[simp] theorem marks_append (log more : List Exchange) :
    view.marks (log ++ more) = view.marks log ++ view.marks more :=
  List.filterMap_append

/-- The first exchange of a log is read off first. -/
@[simp] theorem marks_cons (exchange : Exchange) (log : List Exchange) :
    view.marks (exchange :: log) = (view exchange.1 exchange.2).toList ++ view.marks log := by
  rw [marks, List.filterMap_cons]
  cases view exchange.1 exchange.2 <;> rfl

/-- A log in parts is read off part by part. -/
@[simp] theorem marks_flatMap {α : Type} (parts : List α) (log : α → List Exchange) :
    view.marks (parts.flatMap log) = parts.flatMap fun part => view.marks (log part) := by
  induction parts with
  | nil => rfl
  | cons part rest ih => rw [List.flatMap_cons, List.flatMap_cons, marks_append, ih]

end View

namespace Routine

variable {α μ : Type} {routine : Routine α} {result other : α} {log : List Exchange}

/-- A whole log shows what any view reads off it. -/
theorem Shows.marks (shows : routine.Shows Exchange.view log result) (view : View μ) :
    routine.Shows view (view.marks log) result := by
  induction routine generalizing log with
  | done first =>
    obtain ⟨rfl, same⟩ := shows
    exact ⟨rfl, same⟩
  | ask request rest ih =>
    obtain ⟨answer, later, rfl, further⟩ := shows
    exact ⟨answer, view.marks later, view.marks_cons ⟨request, answer⟩ later, ih answer further⟩

/-- A whole log leaves one result. -/
theorem Shows.unique (one : routine.Shows Exchange.view log result)
    (another : routine.Shows Exchange.view log other) : result = other := by
  induction routine generalizing log with
  | done first => exact one.2.symm.trans another.2
  | ask request rest ih =>
    obtain ⟨answer, later, rfl, further⟩ := one
    obtain ⟨_, _, same, alike⟩ := another
    cases same
    exact ih answer further alike

end Routine

end Keyhold.System
