import Keyhold.System.Routine
import Mathlib.Logic.Relation

/-!
# Routines in changing surroundings

Between two requests of a routine anything else may happen. `Surroundings` says what answers a
state of the world allows and how the world may change of itself; a `Step` is either such a
change or one answered request, and `Leads` is a run of steps to a result. `leads_done` and
`leads_ask` open a run at its front, `leads_bind` where one routine follows another.

`Ensures` is what holds after a routine in whatever order changes and answers come. Its rules
ask of a condition only that no change of the world breaks it (`Stable`) and, where a routine
puts requests of one kind only (`Asks`), that their answers keep it.
-/

namespace Keyhold.System

/-- Every request has an answer. -/
instance (request : Request) : Inhabited request.Answer := by cases request <;> exact inferInstance

namespace Routine

variable {α β : Type} {allowed : Request → Prop}

/-- Whether all requests of a routine are of a kind, whatever is answered. -/
def Asks (allowed : Request → Prop) : Routine α → Prop
  | .done _ => True
  | .ask request next => allowed request ∧ ∀ answer, (next answer).Asks allowed

/-- A sequence puts only such requests as its parts put. -/
theorem asks_bind {routine : Routine α} {next : α → Routine β} (first : routine.Asks allowed)
    (second : ∀ result, (next result).Asks allowed) : (routine >>= next).Asks allowed := by
  induction routine with
  | done result => exact second result
  | ask request rest ih => exact ⟨first.1, fun answer => ih answer (first.2 answer)⟩

/-- A single request asks for no more than itself. -/
theorem asks_request {request : Request} (isAllowed : allowed request) :
    (Routine.request request).Asks allowed :=
  ⟨isAllowed, fun _ => trivial⟩

/-- Requests of a kind are of every wider kind. -/
theorem Asks.mono {wider : Request → Prop} {routine : Routine α} (asks : routine.Asks allowed)
    (implies : ∀ request, allowed request → wider request) : routine.Asks wider := by
  induction routine with
  | done result => trivial
  | ask request rest ih => exact ⟨implies request asks.1, fun answer => ih answer (asks.2 answer)⟩

/-- Every routine asks only for requests of some kind. -/
theorem asks_any (routine : Routine α) : routine.Asks fun _ => True := by
  induction routine with
  | done result => trivial
  | ask request rest ih => exact ⟨trivial, ih⟩

/-- Reporting messages only logs them. -/
theorem asks_reportAll (logs : ∀ message, allowed (.log message)) (messages : List Message) :
    (reportAll messages).Asks allowed := by
  induction messages with
  | nil => trivial
  | cons message rest ih => exact ⟨logs message, fun _ => ih⟩

end Routine

/-- The world in which a routine runs: how a request may be answered and what that changes, and
what may change without any request. -/
structure Surroundings (σ : Type) where
  Answers : (request : Request) → σ → request.Answer → σ → Prop
  Changes : σ → σ → Prop

namespace Surroundings

variable {σ : Type} {surroundings : Surroundings σ} {α β : Type} {state last : σ} {result : α}

/-- One step of a routine in its surroundings. -/
inductive Step (surroundings : Surroundings σ) : Routine α × σ → Routine α × σ → Prop where
  /-- Something changes that the routine has not asked for. -/
  | change {routine : Routine α} {state next : σ} (changes : surroundings.Changes state next) :
      Step surroundings (routine, state) (routine, next)
  /-- The request of the routine is answered. -/
  | answer {request : Request} {rest : request.Answer → Routine α} {state next : σ}
      {answer : request.Answer} (answers : surroundings.Answers request state answer next) :
      Step surroundings (.ask request rest, state) (rest answer, next)

/-- Whether a routine may come to a result, and the world to a state by then. -/
def Leads (surroundings : Surroundings σ) (routine : Routine α) (state : σ) (result : α)
    (last : σ) : Prop :=
  Relation.ReflTransGen surroundings.Step (routine, state) (.done result, last)

/-- Changes of the world do not stop a routine. -/
theorem steps_of_changes {routine : Routine α}
    (changes : Relation.ReflTransGen surroundings.Changes state last) :
    Relation.ReflTransGen surroundings.Step (routine, state) (routine, last) :=
  changes.lift (fun state => (routine, state)) fun _ _ => .change

/-- A routine that is finished comes to its result, and only the world may change. -/
theorem leads_done {expected : α} :
    surroundings.Leads (.done expected) state result last ↔
      expected = result ∧ Relation.ReflTransGen surroundings.Changes state last := by
  constructor
  · intro leads
    rw [Leads] at leads
    generalize front : (Routine.done expected, state) = configuration at leads
    induction leads using Relation.ReflTransGen.head_induction_on generalizing state with
    | refl =>
      cases front
      exact ⟨rfl, .refl⟩
    | head step _ ih =>
      subst front
      cases step with
      | change changes =>
        obtain ⟨same, further⟩ := ih rfl
        exact ⟨same, further.head changes⟩
  · rintro ⟨rfl, changes⟩
    exact steps_of_changes changes

/-- A run of a request passes through an answer, with changes of the world before it. -/
theorem leads_ask {request : Request} {rest : request.Answer → Routine α} :
    surroundings.Leads (.ask request rest) state result last ↔
      ∃ middle answer next, Relation.ReflTransGen surroundings.Changes state middle ∧
        surroundings.Answers request middle answer next ∧
        surroundings.Leads (rest answer) next result last := by
  constructor
  · intro leads
    rw [Leads] at leads
    generalize front : (Routine.ask request rest, state) = configuration at leads
    induction leads using Relation.ReflTransGen.head_induction_on generalizing state with
    | refl => cases front
    | head step further ih =>
      subst front
      cases step with
      | change changes =>
        obtain ⟨middle, answer, next, before, answers, leads⟩ := ih rfl
        exact ⟨middle, answer, next, before.head changes, answers, leads⟩
      | answer answers => exact ⟨state, _, _, .refl, answers, further⟩
  · rintro ⟨middle, answer, next, changes, answers, leads⟩
    exact (steps_of_changes changes).trans (.head (.answer answers) leads)

/-- A run of two routines in sequence passes through a result of the first. -/
theorem leads_bind {routine : Routine α} {next : α → Routine β} {result : β} :
    surroundings.Leads (routine >>= next) state result last ↔
      ∃ middle between, surroundings.Leads routine state middle between ∧
        surroundings.Leads (next middle) between result last := by
  induction routine generalizing state with
  | done first =>
    rw [Routine.bind_done]
    constructor
    · intro leads
      exact ⟨first, state, leads_done.mpr ⟨rfl, .refl⟩, leads⟩
    · rintro ⟨middle, between, front, leads⟩
      obtain ⟨rfl, changes⟩ := leads_done.mp front
      exact (steps_of_changes changes).trans leads
  | ask request rest ih =>
    rw [Routine.bind_ask, leads_ask]
    constructor
    · rintro ⟨asked, answer, answered, changes, answers, leads⟩
      obtain ⟨middle, between, front, further⟩ := (ih answer).mp leads
      exact ⟨middle, between, leads_ask.mpr ⟨asked, answer, answered, changes, answers, front⟩,
        further⟩
    · rintro ⟨middle, between, front, further⟩
      obtain ⟨asked, answer, answered, changes, answers, leads⟩ := leads_ask.mp front
      exact ⟨asked, answer, answered, changes, answers,
        (ih answer).mpr ⟨middle, between, leads, further⟩⟩

/-- The world may change further when a routine has come to its result. -/
theorem Leads.further {routine : Routine α} {later : σ}
    (leads : surroundings.Leads routine state result last)
    (changes : Relation.ReflTransGen surroundings.Changes last later) :
    surroundings.Leads routine state result later :=
  Relation.ReflTransGen.trans leads (steps_of_changes changes)

/-- What a routine comes to in some surroundings is one of its results. -/
theorem Leads.yields {routine : Routine α}
    (leads : surroundings.Leads routine state result last) : routine.Yields result := by
  induction routine generalizing state with
  | done expected => exact (leads_done.mp leads).1
  | ask request rest ih =>
    obtain ⟨_, answer, _, _, _, further⟩ := leads_ask.mp leads
    exact ⟨answer, ih answer further⟩

/-- A host whose answers the surroundings allow carries a routine out in them. -/
theorem leads_run {answer : (request : Request) → σ → request.Answer × σ}
    (allowed : ∀ request state,
      surroundings.Answers request state (answer request state).1 (answer request state).2)
    (routine : Routine α) (state : σ) :
    surroundings.Leads routine state (routine.run answer state).1
      (routine.run answer state).2 := by
  induction routine generalizing state with
  | done result => exact .refl
  | ask request rest ih => exact .head (.answer (allowed request state)) (ih _ _)

/-! ## What holds after a routine -/

/-- Whether no change of the world breaks a condition. -/
def Stable (surroundings : Surroundings σ) (condition : σ → Prop) : Prop :=
  ∀ ⦃state next⦄, surroundings.Changes state next → condition state → condition next

/-- Whether a condition before a routine leads to one after it on every run. -/
def Ensures (surroundings : Surroundings σ) (before : σ → Prop) (routine : Routine α)
    (after : α → σ → Prop) : Prop :=
  ∀ ⦃state result last⦄, before state → surroundings.Leads routine state result last →
    after result last

variable {before between condition : σ → Prop} {after : α → σ → Prop}

/-- A condition that no change breaks holds however often the world changes. -/
theorem Stable.along (stable : surroundings.Stable condition)
    (changes : Relation.ReflTransGen surroundings.Changes state last)
    (holds : condition state) : condition last := by
  induction changes with
  | refl => exact holds
  | tail _ change ih => exact stable change ih

/-- Conditions that no change breaks are not broken together either. -/
theorem Stable.and {other : σ → Prop} (first : surroundings.Stable condition)
    (second : surroundings.Stable other) :
    surroundings.Stable fun state => condition state ∧ other state :=
  fun _ _ change holds => ⟨first change holds.1, second change holds.2⟩

/-- No change breaks what always holds. -/
theorem stable_true : surroundings.Stable fun _ => True := fun _ _ _ holds => holds

/-- Every routine ensures what always holds. -/
theorem ensures_true (routine : Routine α) :
    surroundings.Ensures before routine fun _ _ => True :=
  fun _ _ _ _ _ => trivial

/-- A routine ensures less of a state of which more is known. -/
theorem Ensures.mono {weaker : α → σ → Prop} {routine : Routine α}
    (ensures : surroundings.Ensures before routine after)
    (front : ∀ state, condition state → before state)
    (back : ∀ result state, after result state → weaker result state) :
    surroundings.Ensures condition routine weaker :=
  fun _ _ _ holds leads => back _ _ (ensures (front _ holds) leads)

/-- What a routine ensures of each of two conditions, it ensures of both. -/
theorem Ensures.and {others : α → σ → Prop} {routine : Routine α}
    (first : surroundings.Ensures before routine after)
    (second : surroundings.Ensures between routine others) :
    surroundings.Ensures (fun state => before state ∧ between state) routine
      fun result state => after result state ∧ others result state :=
  fun _ _ _ holds leads => ⟨first holds.1 leads, second holds.2 leads⟩

/-- What holds after a routine holds of one of its results. -/
theorem Ensures.withResult {routine : Routine α}
    (ensures : surroundings.Ensures before routine after) :
    surroundings.Ensures before routine fun result state =>
      after result state ∧ routine.Yields result :=
  fun _ _ _ holds leads => ⟨ensures holds leads, leads.yields⟩

/-- A finished routine ensures what follows from a condition that no change breaks. -/
theorem ensures_done (stable : surroundings.Stable before)
    (holds : ∀ state, before state → after result state) :
    surroundings.Ensures before (.done result) after := by
  intro state expected last front leads
  obtain ⟨rfl, changes⟩ := leads_done.mp leads
  exact holds last (stable.along changes front)

/-- A request ensures what its rest ensures behind every answer. -/
theorem ensures_ask {request : Request} {rest : request.Answer → Routine α}
    {middle : request.Answer → σ → Prop} (stable : surroundings.Stable before)
    (answered : ∀ state answer next, before state →
      surroundings.Answers request state answer next → middle answer next)
    (further : ∀ answer, surroundings.Ensures (middle answer) (rest answer) after) :
    surroundings.Ensures before (.ask request rest) after := by
  intro state result last front leads
  obtain ⟨asked, answer, next, changes, answers, leads⟩ := leads_ask.mp leads
  exact further answer (answered asked answer next (stable.along changes front) answers) leads

/-- A sequence ensures what its second part ensures behind every result of the first. -/
theorem ensures_bind {routine : Routine α} {next : α → Routine β} {middle : α → σ → Prop}
    {after : β → σ → Prop} (first : surroundings.Ensures before routine middle)
    (second : ∀ result, surroundings.Ensures (middle result) (next result) after) :
    surroundings.Ensures before (routine >>= next) after := by
  intro state result last front leads
  obtain ⟨found, between, leads, further⟩ := leads_bind.mp leads
  exact second found (first front leads) further

/-- A condition that the answers to one kind of request keep outlives a routine that puts only
such requests. -/
theorem ensures_of_asks {allowed : Request → Prop} {routine : Routine α}
    (stable : surroundings.Stable condition)
    (kept : ∀ request state answer next, allowed request →
      surroundings.Answers request state answer next → condition state → condition next)
    (asks : routine.Asks allowed) :
    surroundings.Ensures condition routine fun _ => condition := by
  induction routine with
  | done result => exact ensures_done stable fun _ holds => holds
  | ask request rest ih =>
    have answered : ∀ state answer next, condition state →
        surroundings.Answers request state answer next → condition next :=
      fun state answer next holds answers =>
        kept request state answer next asks.1 answers holds
    exact ensures_ask stable answered fun answer => ih answer (asks.2 answer)

/-- A condition that every answer keeps outlives every routine. -/
theorem ensures_of_kept (stable : surroundings.Stable condition)
    (kept : ∀ request state answer next, surroundings.Answers request state answer next →
      condition state → condition next) (routine : Routine α) :
    surroundings.Ensures condition routine fun _ => condition :=
  ensures_of_asks stable (fun request state answer next _ => kept request state answer next)
    (Routine.asks_any routine)

/-- Whether a wait in a state is over at once, however long it may last, and finds a descriptor
readable. -/
def Wakes (surroundings : Surroundings σ) (state : σ) (descriptors : List Descriptor)
    (descriptor : Descriptor) : Prop :=
  ∀ timeout,
    (∃ readiness next,
      surroundings.Answers (.poll descriptors timeout) state (.ok readiness) next) ∧
    ∀ readiness next,
      surroundings.Answers (.poll descriptors timeout) state (.ok readiness) next →
        (descriptor, .readable) ∈ descriptors.zip readiness

end Surroundings

end Keyhold.System
