/-!
# Runs of a step function

A machine takes inputs one after another; each leads to a next state and an output, or to
nothing, where the run stops. A `Moment` records one input with the state on either side of it.
`run?` computes the moments of a run. A `Course` is the same seen as a relation: every moment
starts where the one before it ended and changes the state in one of the given ways. Facts
about runs are proved of courses, by induction from one change.
-/

namespace Keyhold

/-- One input of a run, with the state on either side of it. -/
structure Moment (σ ι ο : Type) where
  before : σ
  input : ι
  after : σ
  output : ο
  deriving DecidableEq, Repr

/-- The moments of a run over inputs, and the state at its end; none if a step has no result. -/
def run? {σ ι ο : Type} (step : σ → ι → Option (σ × ο)) (state : σ) :
    List ι → Option (List (Moment σ ι ο) × σ)
  | [] => some ([], state)
  | input :: rest =>
    (step state input).bind fun (next, output) =>
      (run? step next rest).map fun (moments, last) =>
        (⟨state, input, next, output⟩ :: moments, last)

/-- Moments that lead from one state to another, each by a change of the given kind. -/
def Course {σ ι ο : Type} (Change : σ → ι → σ → ο → Prop) (state : σ) :
    List (Moment σ ι ο) → σ → Prop
  | [], last => state = last
  | moment :: rest, last => moment.before = state ∧
      Change state moment.input moment.after moment.output ∧
      Course Change moment.after rest last

variable {σ ι ο : Type} {step : σ → ι → Option (σ × ο)} {Change : σ → ι → σ → ο → Prop}
  {state last : σ} {moments : List (Moment σ ι ο)}

/-- The moments of a run are a course over its inputs. -/
theorem course_of_run? (changes : ∀ {state input next output},
      step state input = some (next, output) → Change state input next output)
    {inputs : List ι} (ran : run? step state inputs = some (moments, last)) :
    Course Change state moments last ∧ moments.map Moment.input = inputs := by
  induction inputs generalizing state moments with
  | nil =>
    cases ran
    exact ⟨rfl, rfl⟩
  | cons input rest ih =>
    obtain ⟨⟨next, output⟩, stepped, further⟩ := Option.bind_eq_some_iff.mp ran
    obtain ⟨⟨others, final⟩, continued, same⟩ := Option.map_eq_some_iff.mp further
    cases same
    obtain ⟨course, inputs⟩ := ih continued
    exact ⟨⟨rfl, changes stepped, course⟩, congrArg (input :: ·) inputs⟩

/-- A run goes on from where its first step leads. -/
theorem run?_of_step {input : ι} {next : σ} {output : ο}
    (stepped : step state input = some (next, output)) (rest : List ι) :
    run? step state (input :: rest) = (run? step next rest).map fun (moments, last) =>
      (⟨state, input, next, output⟩ :: moments, last) := by
  rw [run?, stepped, Option.bind_some]

/-- A run has no result if its first input has no step. -/
theorem run?_of_stuck {input : ι} (stuck : step state input = none) (rest : List ι) :
    run? step state (input :: rest) = none := by
  rw [run?, stuck, Option.bind_none]

/-- A step and a run after it are a run. -/
theorem run?_cons {input : ι} {rest : List ι} {next : σ} {output : ο}
    (stepped : step state input = some (next, output))
    (further : run? step next rest = some (moments, last)) :
    run? step state (input :: rest) = some (⟨state, input, next, output⟩ :: moments, last) := by
  rw [run?_of_step stepped, further, Option.map_some]

/-- A course of the step function is a run over its inputs. -/
theorem run?_of_course
    (course : Course (fun state input next output => step state input = some (next, output))
      state moments last) :
    run? step state (moments.map Moment.input) = some (moments, last) := by
  induction moments generalizing state with
  | nil =>
    cases course
    rfl
  | cons moment rest ih =>
    obtain ⟨same, stepped, further⟩ := course
    subst same
    exact run?_cons stepped (ih further)

/-- A run has no result exactly when it comes to an input for which there is no step. -/
theorem run?_eq_none_iff {inputs : List ι} :
    run? step state inputs = none ↔ ∃ earlier input later moments middle,
      inputs = earlier ++ input :: later ∧ run? step state earlier = some (moments, middle) ∧
      step middle input = none := by
  constructor
  · intro stopped
    induction inputs generalizing state with
    | nil => contradiction
    | cons input rest ih =>
      cases stepped : step state input with
      | none => exact ⟨[], input, rest, [], state, rfl, rfl, stepped⟩
      | some result =>
        rw [run?_of_step stepped, Option.map_eq_none_iff] at stopped
        obtain ⟨earlier, other, later, moments, middle, rfl, ran, stuck⟩ := ih stopped
        exact ⟨input :: earlier, other, later, _, middle, rfl, run?_cons stepped ran, stuck⟩
  · rintro ⟨earlier, input, later, moments, middle, rfl, ran, stuck⟩
    induction earlier generalizing state moments with
    | nil =>
      cases ran
      rw [List.nil_append, run?_of_stuck stuck]
    | cons first rest ih =>
      obtain ⟨⟨next, output⟩, stepped, further⟩ := Option.bind_eq_some_iff.mp ran
      obtain ⟨⟨others, final⟩, continued, same⟩ := Option.map_eq_some_iff.mp further
      cases same
      rw [List.cons_append, run?_of_step stepped, ih _ continued, Option.map_none]

/-- Two runs one after the other are one run. -/
theorem run?_append {first second : List ι} {middle : σ} {others : List (Moment σ ι ο)}
    (one : run? step state first = some (moments, middle))
    (two : run? step middle second = some (others, last)) :
    run? step state (first ++ second) = some (moments ++ others, last) := by
  induction first generalizing state moments with
  | nil =>
    cases one
    exact two
  | cons input rest ih =>
    obtain ⟨⟨next, output⟩, stepped, further⟩ := Option.bind_eq_some_iff.mp one
    obtain ⟨⟨inner, final⟩, continued, same⟩ := Option.map_eq_some_iff.mp further
    cases same
    exact run?_cons stepped (ih continued)

/-- A course in two parts passes through a state between them. -/
theorem course_append {first second : List (Moment σ ι ο)} :
    Course Change state (first ++ second) last ↔
      ∃ middle, Course Change state first middle ∧ Course Change middle second last := by
  induction first generalizing state with
  | nil =>
    constructor
    · intro course
      exact ⟨state, rfl, course⟩
    · rintro ⟨middle, rfl, course⟩
      exact course
  | cons moment rest ih =>
    constructor
    · rintro ⟨before, change, course⟩
      obtain ⟨middle, one, two⟩ := ih.mp course
      exact ⟨middle, ⟨before, change, one⟩, two⟩
    · rintro ⟨middle, ⟨before, change, one⟩, two⟩
      exact ⟨before, change, ih.mpr ⟨middle, one, two⟩⟩

/-- What every change keeps holds at the end of a course. -/
theorem Course.keeps {P : σ → Prop}
    (keeps : ∀ {state input next output}, Change state input next output → P state → P next)
    (course : Course Change state moments last) (initially : P state) : P last := by
  induction moments generalizing state with
  | nil =>
    rw [← show state = last from course]
    exact initially
  | cons moment rest ih =>
    obtain ⟨_, change, further⟩ := course
    exact ih further (keeps change initially)

/-- Every moment of a course is one of the given changes. -/
theorem Course.change_of_mem (course : Course Change state moments last)
    {moment : Moment σ ι ο} (member : moment ∈ moments) :
    Change moment.before moment.input moment.after moment.output := by
  obtain ⟨earlier, later, rfl⟩ := List.append_of_mem member
  obtain ⟨middle, _, same, change, _⟩ := course_append.mp course
  rw [same]
  exact change

/-- What every change keeps holds after every moment of a course. -/
theorem Course.keeps_after {P : σ → Prop}
    (keeps : ∀ {state input next output}, Change state input next output → P state → P next)
    (course : Course Change state moments last) (initially : P state) :
    ∀ moment ∈ moments, P moment.after := by
  intro moment member
  obtain ⟨earlier, later, rfl⟩ := List.append_of_mem member
  obtain ⟨middle, before, _, change, _⟩ := course_append.mp course
  exact keeps change (before.keeps keeps initially)

end Keyhold
