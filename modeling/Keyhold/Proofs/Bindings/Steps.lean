import Keyhold.Proofs.Bindings.Plan
import Mathlib.Data.List.Basic

/-!
# Steps on plans

What one step does to a plan. A press adds an action at the end; a time or a command changes the
last action, whatever comes before it. `advance_kept` says that a step sees nothing of the actions
before the last, and `advance_noCurrentKey` that it lacks one only in a plan without actions.
-/

namespace Keyhold

/-- The part of the action opened last that a step sets. An empty command sets none. -/
def Step.part? : Step → Option ActionPart
  | .press _ _ => none
  | .time _ => some .time
  | .command text _ => if text.isEmpty then none else some .action

namespace DraftAction

/-- An action that was given whole. -/
def whole (action : Action) : DraftAction :=
  ⟨action.kind, action.trigger, some action.command, action.exits⟩

/-- An action that was given whole is finished as it was given. -/
@[simp] theorem finish?_whole (action : Action) : (whole action).finish? = some action := rfl

end DraftAction

namespace Plan

variable {plan next last : Plan} {error : ConfigError} {part : ActionPart}

/-- A press that is not refused opens an action. -/
theorem eq_of_press {kind : PressKind} {key : Key}
    (advanced : plan.advance (.press kind key) = .ok next) :
    next = plan ++ [⟨key, .fresh kind⟩] := by
  rw [advance] at advanced
  split at advanced
  · cases advanced
  · split at advanced
    · cases advanced
    · cases advanced
      rfl

/-- The last action of a plan is the one that is changed. -/
theorem changeLast_append (init : Plan) (opened : Opened) (update : DraftAction → DraftAction) :
    changeLast update (init ++ [opened]) =
      init ++ [{ opened with action := update opened.action }] := by
  rw [changeLast, List.getLast?_concat]
  simp only [List.dropLast_concat]

/-- A time changes the last action. -/
theorem advance_time (init : Plan) (opened : Opened) (trigger : UInt64) :
    (init ++ [opened]).advance (.time trigger) =
      .ok (init ++ [{ opened with action := { opened.action with trigger := trigger } }]) := by
  rw [advance, changeLast_append]
  simp

/-- A command that is not empty changes the last action. -/
theorem advance_command (init : Plan) (opened : Opened) {text : String} (exits : Bool)
    (nonempty : text.isEmpty = false) :
    (init ++ [opened]).advance (.command text exits) =
      .ok (init ++ [{ opened with
        action := { opened.action with command := some text, exits := exits } }]) := by
  rw [advance, changeLast_append]
  simp [nonempty]

/-- A command that is not refused is not empty. -/
theorem nonempty_of_command {text : String} {exits : Bool}
    (advanced : plan.advance (.command text exits) = .ok next) : text.isEmpty = false := by
  rw [advance] at advanced
  split at advanced
  · cases advanced
  · rename_i nonempty
    simpa using nonempty

/-- A press is taken when no command is missing and no second short action is opened. -/
theorem advance_press {kind : PressKind} {key : Key} (finished : plan.unfinished? = none)
    (single : ¬ (kind = .short ∧ (plan.ofCode key.code).any (·.action.kind == .short) = true)) :
    plan.advance (.press kind key) = .ok (plan ++ [⟨key, .fresh kind⟩]) := by
  simp only [advance, finished, if_neg single]

/-! ## Actions before the last -/

/-- A step that is not refused leaves an action to apply the next step to. -/
theorem nonempty_of_advance {step : Step} (advanced : plan.advance step = .ok next) :
    next ≠ [] := by
  cases step with
  | press kind key => simp [eq_of_press advanced]
  | time trigger =>
    rcases plan.eq_nil_or_concat' with rfl | ⟨init, final, rfl⟩
    · cases advanced
    · rw [advance_time] at advanced
      cases advanced
      simp
  | command text exits =>
    have nonempty := nonempty_of_command advanced
    rcases plan.eq_nil_or_concat' with rfl | ⟨init, final, rfl⟩
    · simp [advance, nonempty] at advanced
    · rw [advance_command _ _ _ nonempty] at advanced
      cases advanced
      simp

/-- A step leaves alone what comes before the action opened last. -/
theorem advance_kept {kept extra : Plan} {step : Step}
    (advanced : (kept ++ extra).advance step = .ok next)
    (ready : extra ≠ [] ∨ ∃ kind key, step = .press kind key) :
    ∃ further, extra.advance step = .ok further ∧ further ≠ [] ∧ next = kept ++ further := by
  cases step with
  | press kind key =>
    have opened := eq_of_press advanced
    rw [advance] at advanced
    split at advanced
    · cases advanced
    · rename_i finished
      split at advanced
      · cases advanced
      · rename_i single
        refine ⟨extra ++ [⟨key, .fresh kind⟩], advance_press ?_ fun double => single ?_, by simp,
          by rw [opened, List.append_assoc]⟩
        · rcases extra.eq_nil_or_concat' with rfl | ⟨init, final, rfl⟩
          · rfl
          · rw [unfinished?, ← List.append_assoc, List.getLast?_concat] at finished
            rw [unfinished?, List.getLast?_concat]
            exact finished
        · refine ⟨double.1, ?_⟩
          rw [ofCode, List.filter_append, List.any_append]
          exact Bool.or_eq_true_iff.mpr (.inr double.2)
  | time trigger =>
    rcases extra.eq_nil_or_concat' with rfl | ⟨init, final, rfl⟩
    · simp at ready
    · rw [← List.append_assoc, advance_time] at advanced
      cases advanced
      exact ⟨_, advance_time init final trigger, by simp, by rw [List.append_assoc]⟩
  | command text exits =>
    have nonempty := nonempty_of_command advanced
    rcases extra.eq_nil_or_concat' with rfl | ⟨init, final, rfl⟩
    · simp at ready
    · rw [← List.append_assoc, advance_command _ _ _ nonempty] at advanced
      cases advanced
      exact ⟨_, advance_command init final exits nonempty, by simp, by rw [List.append_assoc]⟩

/-! ## Steps that find no action -/

/-- A step finds no action exactly when it sets a part and the plan has no actions. -/
theorem advance_noCurrentKey {step : Step} :
    plan.advance step = .error (.noCurrentKey part) ↔ plan = [] ∧ step.part? = some part := by
  cases step with
  | press kind key =>
    rw [advance]
    split
    · simp [Step.part?]
    · split <;> simp [Step.part?]
  | time trigger =>
    rw [advance]
    cases plan <;> simp [Step.part?]
  | command text exits =>
    rw [advance]
    cases blank : text.isEmpty <;> cases plan <;> simp [Step.part?, blank]

/-- Steps find no action exactly when there is none and the first of them sets a part. -/
theorem advanceAll_noCurrentKey {steps : List Step} :
    plan.advanceAll steps = .error (.noCurrentKey part) ↔
      plan = [] ∧ steps.head?.bind Step.part? = some part := by
  induction steps generalizing plan with
  | nil => simp [advanceAll]
  | cons step rest ih =>
    rw [List.head?_cons, Option.bind_some, ← advance_noCurrentKey, advanceAll]
    cases advanced : plan.advance step with
    | ok next =>
      rw [ih]
      simp [nonempty_of_advance advanced]
    | error error => exact Iff.rfl

/-! ## Whole actions -/

/-- The steps of a whole action add it to the plan. -/
theorem eq_of_stepsOf {key : Key} {action : Action}
    (advanced : plan.advanceAll (Draft.stepsOf key action) = .ok last) :
    last = plan ++ [⟨key, .whole action⟩] := by
  rw [Draft.stepsOf, advanceAll] at advanced
  cases pressed : plan.advance (.press action.kind key) with
  | error error =>
    rw [pressed] at advanced
    cases advanced
  | ok next =>
    rw [pressed] at advanced
    obtain rfl := eq_of_press pressed
    simp only [advanceAll, advance_time] at advanced
    cases nonempty : action.command.isEmpty with
    | true => simp [advance, nonempty] at advanced
    | false =>
      rw [advance_command _ _ _ nonempty] at advanced
      cases advanced
      rfl

/-- The steps of whole actions of one key add them to the plan. -/
theorem eq_of_actions {key : Key} {actions : List Action}
    (advanced : plan.advanceAll (actions.flatMap (Draft.stepsOf key)) = .ok last) :
    last = plan ++ actions.map fun action => ⟨key, .whole action⟩ := by
  induction actions generalizing plan with
  | nil =>
    cases advanced
    simp
  | cons action rest ih =>
    rw [List.flatMap_cons, advanceAll_append] at advanced
    obtain ⟨middle, first, further⟩ := bind_eq_ok.mp advanced
    rw [ih further, eq_of_stepsOf first, List.map_cons, List.append_assoc,
      List.singleton_append]

/-! ## Bindings -/

/-- What a plan lists is listed part by part. -/
theorem listed_append (first second : Plan) :
    listed (first ++ second) = first.listed ++ second.listed :=
  List.filterMap_append

/-- Bindings are only refused for a missing command. -/
theorem missingCommand_of_finishAll {entries : List DraftKey}
    (refused : Draft.finishAll entries = .error error) : ∃ code, error = .missingCommand code := by
  induction entries with
  | nil => cases refused
  | cons entry rest ih =>
    rw [Draft.finishAll] at refused
    cases own : entry.finish? with
    | none =>
      rw [own] at refused
      cases refused
      exact ⟨_, rfl⟩
    | some binding =>
      rw [own] at refused
      cases further : Draft.finishAll rest with
      | ok others =>
        rw [further] at refused
        cases refused
      | error error =>
        rw [further] at refused
        cases refused
        exact ih further

end Plan

end Keyhold
