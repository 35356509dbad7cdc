import Keyhold.Bindings
import Mathlib.Data.List.Basic

/-!
# The order of a binding

`Action.Arranged` says what the order of a binding is, without the way in which it is made: short
actions first, then long ones by ascending trigger time, and equal ones as they were given.
`arranged_arrange` says that arranging actions brings them into this order and loses none.
-/

namespace Keyhold

namespace Action

/-- Whether actions are in the order of a binding, as compared with the order in which they were
given. -/
structure Arranged (given arranged : List Action) : Prop where
  perm : arranged.Perm given
  shortFirst : arranged.Pairwise fun first second =>
    second.kind = .short → first.kind = .short
  ascending : arranged.Pairwise fun first second =>
    first.kind = .long → second.kind = .long → first.trigger ≤ second.trigger
  shortStable : arranged.filter (·.kind == .short) = given.filter (·.kind == .short)
  longStable : ∀ trigger,
    arranged.filter (fun action => action.kind == .long && action.trigger == trigger) =
      given.filter fun action => action.kind == .long && action.trigger == trigger

variable {first second third : Action} {given : List Action}

/-- An action comes before another or beside it when it is short, or when both are long and its
trigger time is no greater. -/
theorem precedes_iff : first.precedes second = true ↔
    first.kind = .short ∨ second.kind = .long ∧ first.trigger ≤ second.trigger := by
  unfold precedes
  cases first.kind <;> cases second.kind <;> simp

/-- The order of actions is transitive. -/
theorem precedes_trans (first second third : Action) (before : first.precedes second = true)
    (after : second.precedes third = true) : first.precedes third = true := by
  rw [precedes_iff] at before after ⊢
  rcases before with short | ⟨long, less⟩
  · exact .inl short
  · rcases after with short | ⟨last, more⟩
    · rw [long] at short
      contradiction
    · exact .inr ⟨last, UInt64.le_trans less more⟩

/-- Any two actions can be compared. -/
theorem precedes_total (first second : Action) :
    (first.precedes second || second.precedes first) = true := by
  rw [Bool.or_eq_true, precedes_iff, precedes_iff]
  cases first.kind with
  | short => exact .inl (.inl rfl)
  | long =>
    cases second.kind with
    | short => exact .inr (.inl rfl)
    | long =>
      rcases UInt64.le_total first.trigger second.trigger with less | more
      · exact .inl (.inr ⟨rfl, less⟩)
      · exact .inr (.inr ⟨rfl, more⟩)

/-- Arranging keeps the order of actions that are all beside one another. -/
theorem filter_arrange {select : Action → Bool} (given : List Action)
    (beside : ∀ first second, select first = true → select second = true →
      first.precedes second = true) :
    (arrange given).filter select = given.filter select := by
  have sorted : (given.filter select).Pairwise (fun first second => first.precedes second = true) :=
    List.pairwise_of_forall_mem_list fun first member second other =>
      beside first second (List.mem_filter.mp member).2 (List.mem_filter.mp other).2
  have inside : (given.filter select).Sublist (arrange given) :=
    List.sublist_mergeSort precedes_trans precedes_total sorted List.filter_sublist
  have within : (given.filter select).Sublist ((arrange given).filter select) := by
    have selected := inside.filter select
    rwa [List.filter_filter, show (fun action => select action && select action) = select from
      funext fun action => Bool.and_self _] at selected
  have lengths : ((arrange given).filter select).length = (given.filter select).length :=
    ((List.mergeSort_perm given precedes).filter select).length_eq
  exact (within.eq_of_length lengths.symm).symm

/-- Arranging brings actions into the order of a binding. -/
theorem arranged_arrange (given : List Action) : Arranged given (arrange given) := by
  have sorted : (arrange given).Pairwise (fun first second => first.precedes second = true) :=
    List.pairwise_mergeSort precedes_trans precedes_total given
  refine ⟨List.mergeSort_perm given precedes, sorted.imp ?_, sorted.imp ?_, ?_, fun trigger => ?_⟩
  · intro first second before short
    rcases precedes_iff.mp before with first | ⟨long, _⟩
    · exact first
    · rw [long] at short
      contradiction
  · intro first second before long _
    rcases precedes_iff.mp before with short | ⟨_, less⟩
    · rw [long] at short
      contradiction
    · exact less
  · refine filter_arrange given fun first second short _ => precedes_iff.mpr (.inl ?_)
    simpa using short
  · refine filter_arrange given fun first second one other => precedes_iff.mpr (.inr ?_)
    rw [Bool.and_eq_true, beq_iff_eq, beq_iff_eq] at one other
    exact ⟨other.1, UInt64.le_of_eq (one.2.trans other.2.symm)⟩

end Action

end Keyhold
