import Keyhold.Application
import Keyhold.Proofs.Bindings.Steps
import Keyhold.Proofs.Panel.Run
import Mathlib.Data.List.TakeWhile

/-!
# Actions from two sources

The actions of a configuration file and the steps of a command line go into one plan, the file
first. So the steps before the first press of the command line have an action to apply to: the
last one of the file. `file_actions_kept_unless_led` says that these steps, and nothing else,
change what the file configures, and when such a step is refused instead.
-/

namespace Keyhold

open Keyhold.CommandLine

namespace CommandLine.StepText

/-- Whether the step opens an action. -/
def opens : StepText → Bool
  | .press _ _ => true
  | _ => false

/-- The part of the action opened last that the step sets. A press sets none. -/
def part? : StepText → Option ActionPart
  | .press _ _ => none
  | .time trigger => (Step.time trigger).part?
  | .command text exits => (Step.command text exits).part?

/-- A step that opens an action is a press once its key is known. -/
theorem press_of_opens {text : StepText} {step : Step} (opens : text.opens = true)
    (given : text.step = .ok step) : ∃ kind key, step = .press kind key := by
  cases text with
  | press kind name =>
    rw [StepText.step] at given
    split at given
    · cases given
      exact ⟨_, _, rfl⟩
    · cases given
  | time trigger => exact absurd opens (by simp [StepText.opens])
  | command text exits => exact absurd opens (by simp [StepText.opens])

/-- A step sets the same part however it is given. -/
theorem part?_of_step {text : StepText} {step : Step} (given : text.step = .ok step) :
    text.part? = step.part? := by
  cases text with
  | press kind name =>
    obtain ⟨_, _, rfl⟩ := press_of_opens rfl given
    rfl
  | time trigger =>
    cases given
    rfl
  | command text exits =>
    cases given
    rfl

/-- The action opened last as the step leaves it. -/
def touch (action : Action) : StepText → Action
  | .press _ _ => action
  | .time trigger => { action with trigger := trigger }
  | .command text exits => { action with command := text, exits := exits }

/-- The steps before the first one that opens an action. -/
def leading (texts : List StepText) : List StepText := texts.takeWhile (!·.opens)

/-- The first step that opens an action and all steps after it. -/
def trailing (texts : List StepText) : List StepText := texts.dropWhile (!·.opens)

/-- Actions with their codes, once steps have changed the last of them. -/
def retouch (texts : List StepText) (entries : List (UInt16 × Action)) :
    List (UInt16 × Action) :=
  match entries.getLast? with
  | some last => entries.dropLast ++ [(last.1, texts.foldl touch last.2)]
  | none => []

/-- Steps change nothing before the last action. -/
theorem retouch_append (texts : List StepText) (init : List (UInt16 × Action))
    (last : UInt16 × Action) :
    retouch texts (init ++ [last]) = init ++ [(last.1, texts.foldl touch last.2)] := by
  rw [retouch, List.getLast?_concat]
  simp only [List.dropLast_concat]

/-- All actions are still there exactly when the last one is: unchanged, or once more elsewhere. -/
theorem forall_mem_retouch (texts : List StepText) (entries others : List (UInt16 × Action)) :
    (∀ entry ∈ entries, entry ∈ retouch texts entries ∨ entry ∈ others) ↔
      ∀ last ∈ entries.getLast?,
        texts.foldl touch last.2 = last.2 ∨ last ∈ entries.dropLast ∨ last ∈ others := by
  rcases entries.eq_nil_or_concat' with rfl | ⟨init, last, rfl⟩
  · simp
  · rw [List.getLast?_concat, List.dropLast_concat, retouch_append]
    constructor
    · intro kept final same
      cases same
      rcases kept last (List.mem_append_right _ (List.mem_singleton_self _)) with own | other
      · rcases List.mem_append.mp own with before | changed
        · exact .inr (.inl before)
        · have same := List.mem_singleton.mp changed
          exact .inl (congrArg Prod.snd same).symm
      · exact .inr (.inr other)
    · intro kept entry member
      rcases List.mem_append.mp member with before | final
      · exact .inl (List.mem_append_left _ before)
      · rw [List.mem_singleton.mp final]
        rcases kept last rfl with same | before | other
        · refine .inl (List.mem_append_right _ (List.mem_singleton.mpr ?_))
          rw [same]
        · exact .inl (List.mem_append_left _ before)
        · exact .inr other

end CommandLine.StepText

namespace Config

/-- The steps that configure what the file configures. -/
def steps (config : Config) : List Step :=
  config.keys.flatMap fun entry => entry.2.flatMap (Draft.stepsOf entry.1)

/-- The actions of the file with their keys, as opened actions. -/
def opened (config : Config) : Plan :=
  config.keys.flatMap fun entry => entry.2.map fun action => ⟨entry.1, .whole action⟩

/-- The actions of the file with the codes of their keys, in the order of the file. -/
def actions (config : Config) : List (UInt16 × Action) :=
  config.keys.flatMap fun entry => entry.2.map fun action => (entry.1.code, action)

end Config

namespace Draft

/-- Steps are applied one list after the other, up to the first that fails. -/
theorem applyAll_append (draft : Draft) (first second : List Step) :
    draft.applyAll (first ++ second) =
      match draft.applyAll first with
      | (next, none) => next.applyAll second
      | (next, some error) => (next, some error) := by
  induction first generalizing draft with
  | nil => rfl
  | cons step rest ih =>
    rw [List.cons_append, applyAll, applyAll]
    rcases draft.apply step with ⟨next, failure⟩
    cases failure with
    | none => exact ih next
    | some error => rfl

end Draft

namespace Config

/-- The actions of one key are added by their steps. -/
theorem addActions_eq (key : Key) (actions : List Action) (draft : Draft) :
    addActions key actions draft = draft.applyAll (actions.flatMap (Draft.stepsOf key)) := by
  induction actions generalizing draft with
  | nil => rfl
  | cons action rest ih =>
    rw [List.flatMap_cons, Draft.applyAll_append, addActions, Draft.addAction]
    rcases draft.applyAll (Draft.stepsOf key action) with ⟨next, failure⟩
    cases failure with
    | none => exact ih next
    | some error => rfl

/-- A configuration file is applied by its steps. -/
theorem apply_eq (config : Config) (draft : Draft) :
    config.apply draft = draft.applyAll config.steps := by
  rw [apply, steps]
  induction config.keys generalizing draft with
  | nil => rfl
  | cons entry rest ih =>
    rw [List.flatMap_cons, Draft.applyAll_append, addKeys, addActions_eq]
    rcases draft.applyAll (entry.2.flatMap (Draft.stepsOf entry.1)) with ⟨next, failure⟩
    cases failure with
    | none => exact ih next
    | some error => rfl

end Config

namespace Plan

variable {plan next last : Plan} {error : ConfigError}

/-- The steps of keys with whole actions add these to the plan. -/
theorem eq_of_keys {keys : List (Key × List Action)}
    (advanced : plan.advanceAll
      (keys.flatMap fun entry => entry.2.flatMap (Draft.stepsOf entry.1)) = .ok last) :
    last = plan ++ keys.flatMap fun entry =>
      entry.2.map fun action => ⟨entry.1, .whole action⟩ := by
  induction keys generalizing plan with
  | nil =>
    cases advanced
    simp
  | cons entry rest ih =>
    rw [List.flatMap_cons, advanceAll_append] at advanced
    obtain ⟨middle, first, further⟩ := bind_eq_ok.mp advanced
    rw [ih further, eq_of_actions first, List.flatMap_cons, List.append_assoc]

/-- The steps of a configuration file that are not refused make its plan. -/
theorem eq_of_config {config : Config} (advanced : advanceAll [] config.steps = .ok last) :
    last = config.opened :=
  eq_of_keys advanced

/-! ## Steps of a command line -/

/-- The plan after steps that are given as texts, or why the first refused one is refused. -/
def advanceTexts (plan : Plan) : List StepText → Except ConfigError Plan
  | [] => .ok plan
  | text :: rest =>
    match text.step with
    | .error error => .error error
    | .ok step =>
      match plan.advance step with
      | .ok next => next.advanceTexts rest
      | .error error => .error error

/-- The actions that the steps of a command line open themselves. -/
def added (texts : List StepText) : List (UInt16 × Action) :=
  match advanceTexts [] (StepText.trailing texts) with
  | .ok plan => plan.listed
  | .error _ => []

/-- Drafts and plans take all steps of a command line together. -/
theorem applyTexts_draft (plan : Plan) (texts : List StepText) :
    match plan.advanceTexts texts with
    | .ok last => StepText.applyAll plan.draft texts = (last.draft, none)
    | .error error => (StepText.applyAll plan.draft texts).2 = some error := by
  induction texts generalizing plan with
  | nil => rfl
  | cons text rest ih =>
    simp only [advanceTexts, StepText.applyAll]
    cases text.step with
    | error error => rfl
    | ok step =>
      have one := plan.apply_draft step
      cases advanced : plan.advance step with
      | ok next =>
        rw [advanced] at one
        simp only [one, advanced]
        exact ih next
      | error error =>
        rw [advanced] at one
        rcases applied : plan.draft.apply step with ⟨draft, failure⟩
        rw [applied] at one
        obtain rfl : failure = some error := one
        simp only [advanced, applied]

/-- The bindings of an application are those of the plan that the file and then the command line
make. -/
theorem bindings?_eq (config : Config) (texts : List StepText) :
    Application.bindings? config texts =
      (advanceAll [] config.steps).bind fun plan =>
        (plan.advanceTexts texts).bind fun last => last.draft.build := by
  have file := applyAll_draft [] config.steps
  rw [Application.bindings?, Application.draft, Config.apply_eq,
    show Draft.empty = Plan.draft [] from rfl]
  cases advanced : advanceAll [] config.steps with
  | error error =>
    rw [advanced] at file
    rcases applied : (Plan.draft []).applyAll config.steps with ⟨draft, failure⟩
    rw [applied] at file
    obtain rfl : failure = some error := file
    rfl
  | ok plan =>
    rw [advanced] at file
    rw [show (Plan.draft []).applyAll config.steps = (plan.draft, none) from file]
    have line := plan.applyTexts_draft texts
    simp only [Except.bind]
    cases further : plan.advanceTexts texts with
    | error error =>
      rw [further] at line
      rcases applied : StepText.applyAll plan.draft texts with ⟨draft, failure⟩
      rw [applied] at line
      obtain rfl : failure = some error := line
      rfl
    | ok last =>
      rw [further] at line
      rw [show StepText.applyAll plan.draft texts = (last.draft, none) from line]

/-- Steps given as texts that are taken one list after the other are taken together. -/
theorem advanceTexts_append (plan : Plan) (first second : List StepText) :
    plan.advanceTexts (first ++ second) =
      (plan.advanceTexts first).bind fun middle => middle.advanceTexts second := by
  induction first generalizing plan with
  | nil => rfl
  | cons text rest ih =>
    rw [List.cons_append, advanceTexts, advanceTexts]
    cases text.step with
    | error error => rfl
    | ok step =>
      simp only
      cases plan.advance step with
      | ok next => exact ih next
      | error error => rfl

/-- Steps that are not refused begin with a step that is not refused. -/
theorem advanceTexts_cons {text : StepText} {rest : List StepText}
    (advanced : plan.advanceTexts (text :: rest) = .ok last) :
    ∃ step next, text.step = .ok step ∧ plan.advance step = .ok next ∧
      next.advanceTexts rest = .ok last := by
  rw [advanceTexts] at advanced
  cases given : text.step with
  | error error =>
    rw [given] at advanced
    cases advanced
  | ok step =>
    simp only [given] at advanced
    cases one : plan.advance step with
    | error error =>
      rw [one] at advanced
      cases advanced
    | ok next =>
      rw [one] at advanced
      exact ⟨step, next, rfl, one, advanced⟩

/-- Steps that open no action change the last one of the plan. -/
theorem eq_of_leading {init : Plan} {key : Key} {action : Action} {texts : List StepText}
    (opensNone : ∀ text ∈ texts, text.opens = false)
    (advanced : advanceTexts (init ++ [⟨key, .whole action⟩]) texts = .ok last) :
    last = init ++ [⟨key, .whole (texts.foldl StepText.touch action)⟩] := by
  induction texts generalizing action with
  | nil =>
    cases advanced
    rfl
  | cons text rest ih =>
    have further := fun other member => opensNone other (List.mem_cons_of_mem _ member)
    obtain ⟨step, next, given, one, advanced⟩ := advanceTexts_cons advanced
    cases text with
    | press kind name => exact absurd (opensNone _ List.mem_cons_self) (by simp [StepText.opens])
    | time trigger =>
      cases given
      rw [advance_time] at one
      cases one
      exact ih further advanced
    | command text exits =>
      cases given
      rw [advance_command _ _ _ (nonempty_of_command one)] at one
      cases one
      exact ih further advanced

/-! ## Actions of the command line itself -/

/-- Once an action was opened, steps leave alone what comes before it. -/
theorem advanceTexts_kept {kept extra : Plan} {texts : List StepText}
    (advanced : (kept ++ extra).advanceTexts texts = .ok last)
    (ready : extra ≠ [] ∨ ∀ text ∈ texts.head?, text.opens = true) :
    ∃ further, extra.advanceTexts texts = .ok further ∧ last = kept ++ further := by
  induction texts generalizing extra with
  | nil =>
    cases advanced
    exact ⟨extra, rfl, rfl⟩
  | cons text rest ih =>
    obtain ⟨step, next, given, one, advanced⟩ := advanceTexts_cons advanced
    have opening : extra ≠ [] ∨ ∃ kind key, step = .press kind key :=
      ready.imp_right fun opens => StepText.press_of_opens (opens _ rfl) given
    obtain ⟨further, own, some, rfl⟩ := advance_kept one opening
    obtain ⟨final, rest, rfl⟩ := ih advanced (.inl some)
    refine ⟨final, ?_, rfl⟩
    simp only [advanceTexts, given, own, rest]

/-! ## Both sources together -/

/-- The plan of a configuration file lists its actions. -/
theorem listed_opened (config : Config) : config.opened.listed = config.actions := by
  rw [Config.opened, Config.actions, listed]
  induction config.keys with
  | nil => rfl
  | cons entry rest ih =>
    rw [List.flatMap_cons, List.flatMap_cons, List.filterMap_append, ih]
    simp [List.filterMap_map, Function.comp_def]

/-- The actions of a configuration file are opened whole. -/
theorem whole_of_opened {config : Config} {opened : Opened} (member : opened ∈ config.opened) :
    ∃ action, opened = ⟨opened.key, .whole action⟩ := by
  obtain ⟨entry, _, inside⟩ := List.mem_flatMap.mp member
  obtain ⟨action, _, rfl⟩ := List.mem_map.mp inside
  exact ⟨action, rfl⟩

/-- The steps before the first press open no action. -/
theorem opens_of_leading {texts : List StepText} {text : StepText}
    (member : text ∈ StepText.leading texts) : text.opens = false := by
  simpa using List.mem_takeWhile_imp member

/-- The steps from the first press on begin with it. -/
theorem opens_of_trailing {texts : List StepText} {text : StepText}
    (first : text ∈ (StepText.trailing texts).head?) : text.opens = true := by
  have stopped := List.head?_dropWhile_not (fun text : StepText => !text.opens) texts
  rw [StepText.trailing] at first
  rw [Option.mem_def.mp first] at stopped
  simpa using stopped

/-- Without an action, steps that are not refused begin with a press. -/
theorem leading_eq_nil {texts : List StepText}
    (advanced : advanceTexts [] (StepText.leading texts) = .ok last) :
    StepText.leading texts = [] := by
  cases steps : StepText.leading texts with
  | nil => rfl
  | cons text rest =>
    have quiet : text.opens = false := opens_of_leading (steps ▸ List.mem_cons_self)
    rw [steps] at advanced
    obtain ⟨step, next, given, one, _⟩ := advanceTexts_cons advanced
    cases text with
    | press kind name => contradiction
    | time trigger =>
      cases given
      cases one
    | command text exits =>
      cases given
      have nonempty := nonempty_of_command one
      simp [advance, nonempty] at one

/-- The file and the command line together list the actions of the file, the last of them as the
leading steps of the command line leave it, and then those that the command line opens. -/
theorem listed_of_sources {config : Config} {texts : List StepText}
    (file : advanceAll [] config.steps = .ok plan) (line : plan.advanceTexts texts = .ok last) :
    last.listed =
      StepText.retouch (StepText.leading texts) config.actions ++ added texts := by
  obtain rfl := eq_of_config file
  have parts : StepText.leading texts ++ StepText.trailing texts = texts :=
    List.takeWhile_append_dropWhile
  rw [← parts, advanceTexts_append] at line
  obtain ⟨middle, changed, line⟩ := bind_eq_ok.mp line
  rw [← listed_opened, added]
  have whole := @whole_of_opened config
  rcases config.opened.eq_nil_or_concat' with bare | ⟨init, final, ends⟩
  · rw [bare] at changed ⊢
    have quiet := leading_eq_nil changed
    rw [quiet] at changed
    cases changed
    rw [line]
    rfl
  · rw [ends] at changed whole ⊢
    obtain ⟨action, shape⟩ := whole (List.mem_append_right _ (List.mem_singleton_self _))
    rw [shape] at changed ⊢
    obtain rfl := eq_of_leading (fun text => opens_of_leading) changed
    rw [← List.append_nil (init ++ _)] at line
    obtain ⟨further, own, rfl⟩ := advanceTexts_kept line (.inr fun text => opens_of_trailing)
    rw [own, listed_append, listed_append, listed_append]
    simp [listed, StepText.retouch]

/-! ## Steps that find no action -/

variable {part : ActionPart}

/-- Steps given as texts find no action exactly when there is none and the first of them sets a
part. -/
theorem advanceTexts_noCurrentKey {texts : List StepText} :
    plan.advanceTexts texts = .error (.noCurrentKey part) ↔
      plan = [] ∧ texts.head?.bind StepText.part? = some part := by
  induction texts generalizing plan with
  | nil => simp [advanceTexts]
  | cons text rest ih =>
    rw [List.head?_cons, Option.bind_some, advanceTexts]
    cases given : text.step with
    | error error =>
      cases text with
      | press kind name =>
        rw [StepText.step] at given
        split at given
        · cases given
        · cases given
          simp [StepText.part?]
      | time trigger => cases given
      | command text exits => cases given
    | ok step =>
      rw [StepText.part?_of_step given, ← advance_noCurrentKey]
      simp only
      cases advanced : plan.advance step with
      | ok next =>
        rw [ih]
        simp [nonempty_of_advance advanced]
      | error error => exact Iff.rfl

/-- The steps of a configuration file begin with a press. -/
theorem head?_of_config (config : Config) : config.steps.head?.bind Step.part? = none := by
  rw [Config.steps]
  induction config.keys with
  | nil => rfl
  | cons entry rest ih =>
    obtain ⟨key, actions⟩ := entry
    cases actions with
    | nil => exact ih
    | cons action others => rfl

/-- Without actions, a configuration file has no steps. -/
theorem steps_eq_nil {config : Config} (bare : config.actions = []) : config.steps = [] := by
  rw [Config.actions, List.flatMap_eq_nil_iff] at bare
  refine List.flatMap_eq_nil_iff.mpr fun entry member => ?_
  rw [List.map_eq_nil_iff.mp (bare entry member)]
  rfl

/-- A file and a command line find no action to change exactly when the file has none and the
command line begins by setting a part of one. -/
theorem bindings?_noCurrentKey {config : Config} {texts : List StepText} :
    Application.bindings? config texts = .error (.noCurrentKey part) ↔
      config.actions = [] ∧ texts.head?.bind StepText.part? = some part := by
  rw [bindings?_eq]
  cases file : advanceAll [] config.steps with
  | error error =>
    constructor
    · intro same
      cases same
      rw [advanceAll_noCurrentKey, head?_of_config] at file
      cases file.2
    · rintro ⟨bare, _⟩
      rw [steps_eq_nil bare] at file
      cases file
  | ok plan =>
    obtain rfl := eq_of_config file
    have empty : config.opened = [] ↔ config.actions = [] := by
      simp [Config.opened, Config.actions]
    rw [← empty, ← advanceTexts_noCurrentKey]
    simp only [Except.bind]
    cases line : advanceTexts config.opened texts with
    | error error => simp
    | ok last =>
      simp only [reduceCtorEq, iff_false]
      intro refused
      obtain ⟨code, same⟩ := missingCommand_of_finishAll refused
      cases same

end Plan

namespace Application

variable {options : Options} {config : Config}

/-- The bindings of a configured application are those of its two sources. -/
theorem bindings_of_configure {application : Application}
    (configured : configure options config = .ok application) :
    bindings? config options.steps = .ok application.bindings := by
  rw [configure] at configured
  obtain ⟨bindings, both, configured⟩ := bind_eq_ok.mp configured
  split at configured
  · cases configured
  · cases configured
    exact both

/-- An application finds no action to change exactly when its sources do. -/
theorem configure_noCurrentKey {part : ActionPart} :
    configure options config = .error (.noCurrentKey part) ↔
      bindings? config options.steps = .error (.noCurrentKey part) := by
  rw [configure]
  cases both : bindings? config options.steps with
  | error error => simp [bind, Except.bind]
  | ok bindings =>
    simp only [bind, Except.bind, reduceCtorEq, iff_false]
    split <;> exact nofun

/-- An application binds the actions of the file, the last of them as the leading steps of the
command line leave it, and then those that the command line opens. -/
theorem built_of_configure {application : Application}
    (configured : configure options config = .ok application) :
    ∃ plan : Plan, plan.draft.build = .ok application.bindings ∧
      plan.listed = StepText.retouch (StepText.leading options.steps) config.actions ++
        Plan.added options.steps := by
  have both := bindings_of_configure configured
  rw [Plan.bindings?_eq] at both
  obtain ⟨plan, file, both⟩ := bind_eq_ok.mp both
  obtain ⟨last, line, built⟩ := bind_eq_ok.mp both
  exact ⟨last, built, Plan.listed_of_sources file line⟩

/-- The actions that are bound under their codes. -/
theorem mem_actionsOf {application : Application} {entry : UInt16 × Action}
    (configured : configure options config = .ok application) :
    entry.2 ∈ application.bindings.actionsOf entry.1 ↔
      entry ∈ StepText.retouch (StepText.leading options.steps) config.actions ∨
        entry ∈ Plan.added options.steps := by
  obtain ⟨plan, built, listed⟩ := built_of_configure configured
  rw [Plan.mem_actionsOf_of_build built, listed, List.mem_append]

/-- The actions of a configuration file stay as they are unless the command line begins by setting
a part of an action; then they stay, all but the last, and the last is bound as these leading
steps leave it. Such a command line is refused exactly when the file has no action. -/
theorem file_actions_kept_unless_led (options : Options) (config : Config) :
    (∀ application, configure options config = .ok application →
      (∀ code, application.bindings.actionsOf code =
        Action.arrange (Action.underCode code
          (StepText.retouch (StepText.leading options.steps) config.actions ++
            Plan.added options.steps))) ∧
      ((∀ entry ∈ config.actions, entry.2 ∈ application.bindings.actionsOf entry.1) ↔
        ∀ last ∈ config.actions.getLast?,
          (StepText.leading options.steps).foldl StepText.touch last.2 = last.2 ∨
            last ∈ config.actions.dropLast ∨ last ∈ Plan.added options.steps)) ∧
    ∀ part, configure options config = .error (.noCurrentKey part) ↔
      config.actions = [] ∧ options.steps.head?.bind StepText.part? = some part := by
  refine ⟨fun application configured => ⟨fun code => ?_, ?_⟩, fun part =>
    configure_noCurrentKey.trans Plan.bindings?_noCurrentKey⟩
  · obtain ⟨plan, built, listed⟩ := built_of_configure configured
    rw [Plan.actionsOf_of_build built, listed]
  · simp only [mem_actionsOf configured]
    exact StepText.forall_mem_retouch _ _ _

/-! ## A command line that begins with a time -/

/-- A file with a short and a long action for one key. -/
def shortAndLongFile : Config :=
  { Config.empty with
    keys := [(⟨116, none⟩, [⟨.short, 800, "A", false⟩, ⟨.long, 4000, "B", false⟩])] }

/-- A command line that sets a time and opens no action. -/
def timeOnly : Options := { Options.empty with steps := [.time 100] }

/-- The file and the command line make an application. -/
theorem configured_timeOnly : ∃ application,
    configure timeOnly shortAndLongFile = .ok application :=
  ⟨_, rfl⟩

/-- A time at the beginning of a command line changes an action of the file. -/
theorem leading_time_changes_file_action :
    ¬ ∀ (options : Options) (config : Config) (application : Application),
      config.keys ≠ [] → configure options config = .ok application →
      ∀ entry ∈ config.actions, entry.2 ∈ application.bindings.actionsOf entry.1 := by
  intro always
  obtain ⟨application, configured⟩ := configured_timeOnly
  have kept := always timeOnly shortAndLongFile application (by decide) configured
    (116, ⟨.long, 4000, "B", false⟩) (by decide)
  rw [mem_actionsOf configured] at kept
  exact absurd kept (by decide)

/-- The statement on the actions of a file for a time at the beginning of a command line. -/
theorem leading_time_not_refused :
    (∃ application, configure timeOnly shortAndLongFile = .ok application ∧
      ¬ ∀ entry ∈ shortAndLongFile.actions,
        entry.2 ∈ application.bindings.actionsOf entry.1) ∧
    configure timeOnly shortAndLongFile ≠ .error (.noCurrentKey .time) := by
  obtain ⟨success, refusal⟩ := file_actions_kept_unless_led timeOnly shortAndLongFile
  obtain ⟨application, configured⟩ := configured_timeOnly
  refine ⟨⟨application, configured, fun kept => ?_⟩, fun refused => ?_⟩
  · have last := (success application configured).2.mp kept (116, ⟨.long, 4000, "B", false⟩) rfl
    exact absurd last (by decide)
  · exact absurd ((refusal .time).mp refused).1 (by decide)

end Application

end Keyhold
