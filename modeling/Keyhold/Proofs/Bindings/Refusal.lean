import Keyhold.Proofs.Bindings.Grammar
import Mathlib.Data.List.Nodup

/-!
# What a refused call leaves behind

A draft is asked for one step or for a whole action at once, and either may be refused. Most
refusals come before anything is written. Two come later: a second short action for a key is
noticed after the key has been given its name, and the empty command of a whole action after the
action has been opened. `refused_call_keeps_draft_unless` says that a refused call changes the
draft in these two cases and in no other, and what later calls see of it: of a name nothing but
the name of a binding (`Draft.unnamed` and `call_unnamed`), of an opened action that it lacks its
command.
-/

namespace Keyhold

/-- What can be asked of a draft: one step, or a whole action at once. -/
inductive Call where
  | step (step : Step)
  | action (key : Key) (action : Action)
  deriving DecidableEq, Repr

/-- The press that a call begins with. -/
def Call.press? : Call → Option (PressKind × Key)
  | .step (.press kind key) => some (kind, key)
  | .step (.time _) | .step (.command _ _) => none
  | .action key whole => some (whole.kind, key)

/-- Changing the last action of an entry leaves its code. -/
theorem DraftKey.code_changeLast (update : DraftAction → DraftAction) (entry : DraftKey) :
    (DraftKey.changeLast update entry).code = entry.code := by
  rw [changeLast]
  split <;> rfl

/-- The entry without its name. -/
def DraftKey.unnamed (entry : DraftKey) : DraftKey := { entry with name := none }

/-- The binding without its name. -/
def Binding.unnamed (binding : Binding) : Binding := { binding with name := none }

namespace Draft

variable {draft other : Draft} {kind : PressKind} {key : Key} {code : UInt16} {entry : DraftKey}
  {asked : Call} {error : ConfigError}

/-- Answers a call. -/
def call (draft : Draft) : Call → Draft × Option ConfigError
  | .step step => draft.apply step
  | .action key action => draft.addAction key action

/-- The draft after calls, each of which may be refused. -/
def after (draft : Draft) (calls : List Call) : Draft :=
  calls.foldl (fun draft call => (draft.call call).1) draft

/-- What calls are answered, one after another. -/
def answers (draft : Draft) : List Call → List (Option ConfigError)
  | [] => []
  | call :: rest => (draft.call call).2 :: (draft.call call).1.answers rest

/-! ## Entries -/

/-- An entry that is found under a code has that code. -/
theorem code_of_lookup? (found : draft.lookup? code = some entry) : entry.code = code := by
  simpa using List.find?_some found

/-- A change of an entry that keeps its code keeps the codes of the draft. -/
theorem codes_change {touched : UInt16} {update : DraftKey → DraftKey}
    (keeps : ∀ entry, (update entry).code = entry.code) :
    (draft.change touched update).keys.map DraftKey.code = draft.keys.map DraftKey.code := by
  rw [change, List.map_map]
  refine List.map_congr_left fun entry _ => ?_
  rw [Function.comp_apply]
  split
  · exact keeps entry
  · rfl

/-- A change of the action that was opened last keeps the codes of the draft. -/
theorem codes_changeCurrent (update : DraftAction → DraftAction) :
    (draft.changeCurrent update).keys.map DraftKey.code = draft.keys.map DraftKey.code := by
  rw [changeCurrent]
  split
  · exact codes_change (DraftKey.code_changeLast update)
  · rfl

/-- The entry of a key that is entered: a new one, or the one of its code with a name if it had
none. -/
theorem lookup?_enter (draft : Draft) (key : Key) :
    (draft.enter key).lookup? key.code = some ((draft.lookup? key.code).elim
      ⟨key.code, key.name, []⟩ fun entry => { entry with name := entry.name.or key.name }) := by
  rw [enter]
  cases found : draft.lookup? key.code with
  | some entry =>
    dsimp only
    rw [Plan.lookup?_change, found, Option.map_some, if_pos (code_of_lookup? found)]
    · rfl
    · exact fun _ => rfl
  | none =>
    rw [lookup?] at found
    simp [lookup?, List.find?_append, found]

/-- Entering a key opens no action for it. -/
theorem hasShort_enter (draft : Draft) (key : Key) :
    (draft.enter key).hasShort key.code = draft.hasShort key.code := by
  rw [hasShort, hasShort, lookup?_enter]
  cases draft.lookup? key.code <;> rfl

/-- Entering a key makes no second entry for its code. -/
theorem nodup_enter (distinct : (draft.keys.map DraftKey.code).Nodup) (key : Key) :
    ((draft.enter key).keys.map DraftKey.code).Nodup := by
  rw [enter]
  cases found : draft.lookup? key.code with
  | some entry =>
    dsimp only
    rw [codes_change]
    · exact distinct
    · exact fun _ => rfl
  | none =>
    rw [lookup?, List.find?_eq_none] at found
    simp only [List.map_append, List.map_cons, List.map_nil]
    refine List.nodup_append.mpr ⟨distinct, List.pairwise_singleton _ _, ?_⟩
    intro code member new isNew same
    obtain ⟨entry, inside, rfl⟩ := List.mem_map.mp member
    rw [List.mem_singleton.mp isNew] at same
    exact found entry inside (by simpa using same)

/-! ## Steps -/

/-- The draft once an action of a key has been opened. -/
def opened (draft : Draft) (kind : PressKind) (key : Key) : Draft :=
  { (draft.enter key).change key.code fun entry =>
      { entry with actions := entry.actions ++ [.fresh kind] } with
    current := some key.code }

/-- A press is refused while a command is missing, before anything is changed; it is refused for a
second short action once the key has been entered; otherwise it opens an action. -/
theorem press_cases (draft : Draft) (kind : PressKind) (key : Key) :
    (∃ code, draft.press kind key = (draft, some (.missingCommand code))) ∨
    (kind = .short ∧ draft.hasShort key.code = true ∧
      draft.press kind key = (draft.enter key, some (.duplicateShort key.code))) ∨
    (draft.unfinished? = none ∧ draft.press kind key = (draft.opened kind key, none)) := by
  rw [press]
  cases unfinished : draft.unfinished? with
  | some code => exact .inl ⟨code, rfl⟩
  | none =>
    dsimp only
    rw [hasShort_enter]
    split
    · rename_i double
      exact .inr (.inl ⟨double.1, double.2, rfl⟩)
    · exact .inr (.inr ⟨rfl, rfl⟩)

/-- The current action after an action has been opened is the one that was opened. -/
theorem currentAction?_opened (draft : Draft) (kind : PressKind) (key : Key) :
    (draft.opened kind key).currentAction? = some (.fresh kind) := by
  have entered := lookup?_enter draft key
  have found : (draft.opened kind key).lookup? key.code = ((draft.enter key).change key.code
      fun entry => { entry with actions := entry.actions ++ [.fresh kind] }).lookup? key.code := rfl
  rw [currentAction?, show (draft.opened kind key).current = some key.code from rfl,
    Option.bind_some, found, Plan.lookup?_change, entered, Option.map_some,
    if_pos (code_of_lookup? entered), Option.bind_some]
  · simp
  · exact fun _ => rfl

/-- Changing the current action changes it. -/
theorem currentAction?_changeCurrent (draft : Draft) (update : DraftAction → DraftAction) :
    (draft.changeCurrent update).currentAction? = draft.currentAction?.map update := by
  cases current : draft.current with
  | none => simp [changeCurrent, currentAction?, current]
  | some code =>
    have same : (draft.change code (DraftKey.changeLast update)).current = some code := current
    rw [changeCurrent, currentAction?, currentAction?, current]
    dsimp only
    rw [same, Option.bind_some, Option.bind_some,
      Plan.lookup?_change (DraftKey.code_changeLast update)]
    cases found : draft.lookup? code with
    | none => rfl
    | some entry =>
      rw [Option.map_some, if_pos (code_of_lookup? found), Option.bind_some, Option.bind_some,
        DraftKey.changeLast]
      cases last : entry.actions.getLast? with
      | none => exact last
      | some action => simp

/-- A time or a command that is refused changes nothing. -/
theorem eq_of_refused_detail {step : Step} (refused : (draft.apply step).2 = some error)
    (detail : ∀ kind key, step ≠ .press kind key) : (draft.apply step).1 = draft := by
  cases step with
  | press kind key => exact absurd rfl (detail kind key)
  | time trigger =>
    rw [apply, time] at refused ⊢
    split
    · rename_i found
      rw [found] at refused
      cases refused
    · rfl
  | command text exits =>
    rw [apply, command] at refused ⊢
    split
    · rfl
    · rename_i nonempty
      rw [if_neg nonempty] at refused
      split
      · rename_i found
        rw [found] at refused
        cases refused
      · rfl

/-- The draft once a whole action has been opened and has its trigger time. -/
def begun (draft : Draft) (key : Key) (action : Action) : Draft :=
  (draft.opened action.kind key).changeCurrent fun pending =>
    { pending with trigger := action.trigger }

/-- The current action is then the one that was begun. -/
theorem currentAction?_begun (draft : Draft) (key : Key) (action : Action) :
    (draft.begun key action).currentAction? =
      some { DraftAction.fresh action.kind with trigger := action.trigger } := by
  rw [begun, currentAction?_changeCurrent, currentAction?_opened]
  rfl

/-- A whole action is refused where its press is, or for an empty command once it has been
begun. -/
theorem addAction_cases (draft : Draft) (key : Key) (action : Action) :
    (∃ error, (draft.press action.kind key).2 = some error ∧
      draft.addAction key action = draft.press action.kind key) ∨
    (draft.unfinished? = none ∧
      if action.command.isEmpty then
        draft.addAction key action = (draft.begun key action, some .emptyCommand)
      else (draft.addAction key action).2 = none) := by
  have whole : draft.addAction key action =
      draft.applyAll [.press action.kind key, .time action.trigger,
        .command action.command action.exits] := rfl
  have refusal (error : ConfigError) (left : Draft)
      (pressed : draft.press action.kind key = (left, some error)) :
      draft.addAction key action = draft.press action.kind key := by
    rw [whole, applyAll, apply, pressed]
  rcases press_cases draft action.kind key with ⟨code, pressed⟩ | ⟨_, _, pressed⟩ |
    ⟨finished, pressed⟩
  · exact .inl ⟨_, congrArg Prod.snd pressed, refusal _ _ pressed⟩
  · exact .inl ⟨_, congrArg Prod.snd pressed, refusal _ _ pressed⟩
  · refine .inr ⟨finished, ?_⟩
    have timed : (draft.opened action.kind key).time action.trigger =
        (draft.begun key action, none) := by
      rw [time, currentAction?_opened]
      rfl
    rw [whole, applyAll, apply, pressed]
    dsimp only
    rw [applyAll, apply, timed]
    dsimp only
    rw [applyAll, apply, command, currentAction?_begun]
    split
    · rfl
    · rfl

/-! ## Names -/

/-- The draft without the names of its keys. -/
def unnamed (draft : Draft) : Draft := { draft with keys := draft.keys.map DraftKey.unnamed }

/-- Without names the entry of a code is the same one without its name. -/
theorem lookup?_unnamed (draft : Draft) (code : UInt16) :
    draft.unnamed.lookup? code = (draft.lookup? code).map DraftKey.unnamed :=
  List.find?_map

/-- The action that was opened last does not depend on names. -/
theorem currentAction?_unnamed (draft : Draft) :
    draft.unnamed.currentAction? = draft.currentAction? := by
  rw [currentAction?, currentAction?, show draft.unnamed.current = draft.current from rfl]
  cases draft.current with
  | none => rfl
  | some code =>
    rw [Option.bind_some, Option.bind_some, lookup?_unnamed]
    cases draft.lookup? code <;> rfl

/-- Whether an action is unfinished does not depend on names. -/
theorem unfinished?_unnamed (draft : Draft) : draft.unnamed.unfinished? = draft.unfinished? := by
  rw [unfinished?, unfinished?, currentAction?_unnamed]
  rfl

/-- Whether a key has a short action does not depend on names. -/
theorem hasShort_unnamed (draft : Draft) (code : UInt16) :
    draft.unnamed.hasShort code = draft.hasShort code := by
  rw [hasShort, hasShort, lookup?_unnamed]
  cases draft.lookup? code <;> rfl

/-- A change that sees no names is the same without them. -/
theorem unnamed_change {update : DraftKey → DraftKey}
    (blind : ∀ entry, (update entry).unnamed = update entry.unnamed) :
    (draft.change code update).unnamed = draft.unnamed.change code update := by
  rw [unnamed, change, change, unnamed]
  simp only [List.map_map]
  congr 1
  refine List.map_congr_left fun entry _ => ?_
  rw [Function.comp_apply, Function.comp_apply, show entry.unnamed.code = entry.code from rfl]
  split
  · exact blind entry
  · rfl

/-- A change of the action that was opened last sees no names. -/
theorem unnamed_changeCurrent (draft : Draft) (update : DraftAction → DraftAction) :
    (draft.changeCurrent update).unnamed = draft.unnamed.changeCurrent update := by
  rw [changeCurrent, changeCurrent, show draft.unnamed.current = draft.current from rfl]
  split
  · refine unnamed_change fun entry => ?_
    rw [DraftKey.changeLast, DraftKey.changeLast,
      show entry.unnamed.actions = entry.actions from rfl]
    split <;> rfl
  · rfl

/-- But for names, entering a key that has an entry changes nothing. -/
theorem unnamed_enter (draft : Draft) (key : Key) :
    (draft.enter key).unnamed =
      if (draft.lookup? key.code).isSome then draft.unnamed
      else { draft.unnamed with keys := draft.unnamed.keys ++ [⟨key.code, none, []⟩] } := by
  rw [enter]
  cases draft.lookup? key.code with
  | none => simp [unnamed, DraftKey.unnamed]
  | some entry =>
    rw [Option.isSome_some, if_pos rfl]
    simp only [unnamed, change, List.map_map]
    congr 1
    refine List.map_congr_left fun other _ => ?_
    rw [Function.comp_apply]
    split <;> rfl

/-- But for names, a key is entered alike with and without the earlier ones. -/
theorem unnamed_enter_unnamed (draft : Draft) (key : Key) :
    (draft.unnamed.enter key).unnamed = (draft.enter key).unnamed := by
  have twice : draft.unnamed.unnamed = draft.unnamed := by simp [unnamed, DraftKey.unnamed]
  rw [unnamed_enter, unnamed_enter, lookup?_unnamed, Option.isSome_map, twice]

/-- But for names, an action is opened alike with and without the earlier ones. -/
theorem unnamed_opened (draft : Draft) (kind : PressKind) (key : Key) :
    (draft.unnamed.opened kind key).unnamed = (draft.opened kind key).unnamed := by
  have without (draft : Draft) : (draft.opened kind key).unnamed =
      { (draft.enter key).unnamed.change key.code fun entry =>
          { entry with actions := entry.actions ++ [.fresh kind] } with
        current := some key.code } := by
    rw [← unnamed_change]
    · rfl
    · exact fun _ => rfl
  rw [without, without, unnamed_enter_unnamed]

/-- A step sees no names: without them it is refused for the same reasons and leads to the same
draft but for names. -/
theorem apply_unnamed (draft : Draft) (step : Step) :
    (draft.unnamed.apply step).2 = (draft.apply step).2 ∧
      (draft.unnamed.apply step).1.unnamed = (draft.apply step).1.unnamed := by
  have twice : draft.unnamed.unnamed = draft.unnamed := by simp [unnamed, DraftKey.unnamed]
  cases step with
  | press kind key =>
    simp only [apply, press, unfinished?_unnamed, hasShort_enter, hasShort_unnamed]
    cases draft.unfinished? with
    | some code => exact ⟨rfl, twice⟩
    | none =>
      dsimp only
      split
      · exact ⟨rfl, unnamed_enter_unnamed draft key⟩
      · exact ⟨rfl, unnamed_opened draft kind key⟩
  | time trigger =>
    simp only [apply, time, currentAction?_unnamed]
    cases draft.currentAction? with
    | none => exact ⟨rfl, twice⟩
    | some action =>
      dsimp only
      rw [unnamed_changeCurrent, unnamed_changeCurrent, twice]
      exact ⟨rfl, rfl⟩
  | command text exits =>
    simp only [apply, command, currentAction?_unnamed]
    split
    · exact ⟨rfl, twice⟩
    · cases draft.currentAction? with
      | none => exact ⟨rfl, twice⟩
      | some action =>
        dsimp only
        rw [unnamed_changeCurrent, unnamed_changeCurrent, twice]
        exact ⟨rfl, rfl⟩

/-- Drafts that differ in names only take a step alike. -/
theorem apply_alike (same : draft.unnamed = other.unnamed) (step : Step) :
    (draft.apply step).2 = (other.apply step).2 ∧
      (draft.apply step).1.unnamed = (other.apply step).1.unnamed := by
  obtain ⟨error, left⟩ := draft.apply_unnamed step
  obtain ⟨otherError, otherLeft⟩ := other.apply_unnamed step
  rw [← error, ← left, same, otherError, otherLeft]
  exact ⟨rfl, rfl⟩

/-- Drafts that differ in names only take a list of steps alike. -/
theorem applyAll_alike (same : draft.unnamed = other.unnamed) (steps : List Step) :
    (draft.applyAll steps).2 = (other.applyAll steps).2 ∧
      (draft.applyAll steps).1.unnamed = (other.applyAll steps).1.unnamed := by
  induction steps generalizing draft other with
  | nil => exact ⟨rfl, same⟩
  | cons step rest ih =>
    obtain ⟨error, left⟩ := apply_alike same step
    simp only [applyAll]
    rcases one : draft.apply step with ⟨next, failure⟩
    rcases two : other.apply step with ⟨otherNext, otherFailure⟩
    rw [one, two] at error left
    obtain rfl : failure = otherFailure := error
    cases failure with
    | none => exact ih left
    | some error => exact ⟨rfl, left⟩

/-- Drafts that differ in names only answer a call alike. -/
theorem call_alike (same : draft.unnamed = other.unnamed) (asked : Call) :
    (draft.call asked).2 = (other.call asked).2 ∧
      (draft.call asked).1.unnamed = (other.call asked).1.unnamed := by
  cases asked with
  | step step => exact apply_alike same step
  | action key action => exact applyAll_alike same (stepsOf key action)

/-- Drafts that differ in names only answer all later calls alike and still differ in names only
afterwards. -/
theorem answers_alike (same : draft.unnamed = other.unnamed) (later : List Call) :
    draft.answers later = other.answers later ∧
      (draft.after later).unnamed = (other.after later).unnamed := by
  induction later generalizing draft other with
  | nil => exact ⟨rfl, same⟩
  | cons asked rest ih =>
    obtain ⟨error, left⟩ := call_alike same asked
    obtain ⟨answers, last⟩ := ih left
    rw [Draft.answers, Draft.answers, error, answers]
    exact ⟨rfl, last⟩

/-- The names of a draft are only the names of its bindings. -/
theorem build_unnamed (draft : Draft) :
    draft.unnamed.build = draft.build.map (List.map Binding.unnamed) := by
  rw [build, build, unnamed]
  induction draft.keys with
  | nil => rfl
  | cons entry rest ih =>
    have own : entry.unnamed.finish? = entry.finish?.map Binding.unnamed := by
      rw [DraftKey.finish?, DraftKey.finish?, show entry.unnamed.actions = entry.actions from rfl]
      cases entry.actions.mapM DraftAction.finish? <;> rfl
    simp only [List.map_cons] at ih ⊢
    rw [finishAll, finishAll, own, ih]
    cases entry.finish? with
    | none => rfl
    | some binding => cases finishAll rest <;> rfl

/-- Drafts that differ in names only are built, or refused, alike. -/
theorem build_alike (same : draft.unnamed = other.unnamed) :
    draft.build.map (List.map Binding.unnamed) = other.build.map (List.map Binding.unnamed) := by
  rw [← build_unnamed, ← build_unnamed, same]

/-! ## Drafts that calls make -/

/-- A draft that calls make, whichever of them are refused. -/
def IsReached (draft : Draft) : Prop := ∃ calls, empty.after calls = draft

/-- Opening an action makes no second entry for its key. -/
theorem nodup_opened (distinct : (draft.keys.map DraftKey.code).Nodup) (kind : PressKind)
    (key : Key) : ((draft.opened kind key).keys.map DraftKey.code).Nodup := by
  rw [opened]
  dsimp only
  rw [codes_change]
  · exact nodup_enter distinct key
  · exact fun _ => rfl

/-- A step, refused or not, makes no second entry for a key. -/
theorem nodup_apply (distinct : (draft.keys.map DraftKey.code).Nodup) (step : Step) :
    ((draft.apply step).1.keys.map DraftKey.code).Nodup := by
  cases step with
  | press kind key =>
    rw [apply]
    rcases press_cases draft kind key with ⟨code, pressed⟩ | ⟨_, _, pressed⟩ | ⟨_, pressed⟩
    · rwa [pressed]
    · rw [pressed]
      exact nodup_enter distinct key
    · rw [pressed]
      exact nodup_opened distinct kind key
  | time trigger =>
    rw [apply, time]
    split
    · rwa [codes_changeCurrent]
    · exact distinct
  | command text exits =>
    rw [apply, command]
    split
    · exact distinct
    · split
      · rwa [codes_changeCurrent]
      · exact distinct

/-- Steps up to the first refused one make no second entry for a key. -/
theorem nodup_applyAll (distinct : (draft.keys.map DraftKey.code).Nodup) (steps : List Step) :
    ((draft.applyAll steps).1.keys.map DraftKey.code).Nodup := by
  induction steps generalizing draft with
  | nil => exact distinct
  | cons step rest ih =>
    have stepped := nodup_apply distinct step
    rw [applyAll]
    rcases applied : draft.apply step with ⟨next, _ | error⟩
    · rw [applied] at stepped
      exact ih stepped
    · rw [applied] at stepped
      exact stepped

/-- A call, refused or not, makes no second entry for a key. -/
theorem nodup_call (distinct : (draft.keys.map DraftKey.code).Nodup) (asked : Call) :
    ((draft.call asked).1.keys.map DraftKey.code).Nodup := by
  cases asked with
  | step step => exact nodup_apply distinct step
  | action key action => exact nodup_applyAll distinct (stepsOf key action)

/-- Calls keep one entry for each key. -/
theorem nodup_of_isReached (reached : draft.IsReached) :
    (draft.keys.map DraftKey.code).Nodup := by
  obtain ⟨calls, rfl⟩ := reached
  have kept (draft : Draft) (distinct : (draft.keys.map DraftKey.code).Nodup) :
      ((draft.after calls).keys.map DraftKey.code).Nodup := by
    induction calls generalizing draft with
    | nil => exact distinct
    | cons asked rest ih => exact ih _ (nodup_call distinct asked)
  exact kept empty List.nodup_nil

/-! ## Refused calls -/

/-- A call refused for a second short action although its key brings a name to an entry that has
none. -/
structure Renames (draft : Draft) (asked : Call) (error : ConfigError) (key : Key) : Prop where
  press : asked.press? = some (.short, key)
  double : error = .duplicateShort key.code
  named : key.name ≠ none
  unnamed : ∃ entry, draft.lookup? key.code = some entry ∧ entry.name = none

/-- Entering a key changes nothing when its entry has a name or the key brings none. -/
theorem enter_eq_self (distinct : (draft.keys.map DraftKey.code).Nodup)
    (found : draft.lookup? key.code = some entry) (kept : entry.name.or key.name = entry.name) :
    draft.enter key = draft := by
  rw [enter, found]
  dsimp only
  rw [change]
  have unchanged : draft.keys.map (fun other => if other.code = key.code then
      { other with name := other.name.or key.name } else other) = draft.keys.map id := by
    refine List.map_congr_left fun other member => ?_
    split
    · rename_i code
      obtain rfl : other = entry := List.inj_on_of_nodup_map distinct member
        (List.mem_of_find?_eq_some found) (code.trans (code_of_lookup? found).symm)
      rw [kept, id_eq]
    · rfl
  rw [unchanged, List.map_id]

/-- A second short action changes the draft exactly when it brings the first name of its key. -/
theorem enter_eq_self_iff (distinct : (draft.keys.map DraftKey.code).Nodup)
    (found : draft.lookup? key.code = some entry) :
    draft.enter key = draft ↔ ¬(key.name ≠ none ∧ entry.name = none) := by
  constructor
  · rintro same ⟨named, unnamed⟩
    have entered := lookup?_enter draft key
    rw [same, found, Option.elim_some, Option.some.injEq] at entered
    have := congrArg DraftKey.name entered
    rw [unnamed, Option.none_or] at this
    exact named this.symm
  · intro brings
    refine enter_eq_self distinct found ?_
    cases name : entry.name with
    | some _ => rfl
    | none =>
      rw [Option.none_or]
      exact Classical.not_not.mp fun named => brings ⟨named, name⟩

/-- A call is refused as a detail, which changes nothing, where its press is, or as a whole action
with an empty command. -/
theorem refused_call_cases (refused : (draft.call asked).2 = some error) :
    (asked.press? = none ∧ (draft.call asked).1 = draft) ∨
    (∃ kind key, asked.press? = some (kind, key) ∧
      (draft.press kind key).2 = some error ∧ draft.call asked = draft.press kind key) ∨
    ∃ key action, asked = .action key action ∧ error = .emptyCommand ∧
      draft.unfinished? = none ∧ (draft.call asked).1 = draft.begun key action := by
  cases asked with
  | step step =>
    cases step with
    | press kind key => exact .inr (.inl ⟨kind, key, rfl, refused, rfl⟩)
    | time trigger => exact .inl ⟨rfl, eq_of_refused_detail refused fun _ _ => by simp⟩
    | command text exits => exact .inl ⟨rfl, eq_of_refused_detail refused fun _ _ => by simp⟩
  | action key action =>
    rw [call] at refused ⊢
    rcases addAction_cases draft key action with ⟨failure, pressed, same⟩ | ⟨finished, added⟩
    · refine .inr (.inl ⟨action.kind, key, rfl, ?_, same⟩)
      rw [← same, refused]
    · refine .inr (.inr ⟨key, action, rfl, ?_⟩)
      split at added
      · rw [added] at refused ⊢
        exact ⟨(Option.some.inj refused).symm, finished, rfl⟩
      · rw [added] at refused
        cases refused

/-- A refused press leaves the draft as it was, or it is a second short action and has entered its
key. -/
theorem refused_press_cases (refused : (draft.press kind key).2 = some error) :
    (∃ code, error = .missingCommand code) ∧ (draft.press kind key).1 = draft ∨
    kind = .short ∧ error = .duplicateShort key.code ∧
      (∃ entry, draft.lookup? key.code = some entry) ∧
      (draft.press kind key).1 = draft.enter key := by
  rcases press_cases draft kind key with ⟨code, pressed⟩ | ⟨short, double, pressed⟩ | ⟨_, pressed⟩
  · rw [pressed] at refused ⊢
    exact .inl ⟨⟨code, (Option.some.inj refused).symm⟩, rfl⟩
  · rw [pressed] at refused ⊢
    refine .inr ⟨short, (Option.some.inj refused).symm, ?_, rfl⟩
    rw [hasShort] at double
    cases found : draft.lookup? key.code with
    | none => rw [found] at double; cases double
    | some entry => exact ⟨entry, rfl⟩
  · rw [pressed] at refused
    cases refused

/-- An action that has been begun lacks its command. -/
theorem unfinished?_begun (draft : Draft) (key : Key) (action : Action) :
    (draft.begun key action).unfinished? = some key.code := by
  rw [unfinished?, currentAction?_begun]
  exact rfl

/-- No bindings can be built while an action lacks its command. -/
theorem build_ne_ok_of_unfinished {code : UInt16} (unfinished : draft.unfinished? = some code)
    (bindings : Bindings) : draft.build ≠ .ok bindings := by
  intro built
  rw [unfinished?] at unfinished
  cases pending : draft.currentAction? with
  | none => rw [pending] at unfinished; cases unfinished
  | some action =>
    rw [pending] at unfinished
    dsimp only at unfinished
    split at unfinished
    · rename_i lacks
      rw [currentAction?, unfinished, Option.bind_some] at pending
      obtain ⟨entry, found, last⟩ := Option.bind_eq_some_iff.mp pending
      obtain ⟨binding, finished⟩ := Plan.exists_finishAll_iff.mp ⟨bindings, built⟩ entry
        (List.mem_of_find?_eq_some found)
      obtain ⟨done, whole⟩ := Plan.exists_finish?_iff.mp ⟨binding, finished⟩ action
        (List.mem_of_getLast? last)
      rw [DraftAction.finish?, Option.isNone_iff_eq_none.mp lacks] at whole
      cases whole
    · cases unfinished

/-- While an action lacks its command every press is refused. -/
theorem press_of_unfinished {code : UInt16} (unfinished : draft.unfinished? = some code)
    (kind : PressKind) (key : Key) :
    draft.press kind key = (draft, some (.missingCommand code)) := by
  rw [press, unfinished]

/-- A call that renames its key leaves the draft with the key entered. -/
theorem Renames.entered (renames : draft.Renames asked error key)
    (refused : (draft.call asked).2 = some error) : (draft.call asked).1 = draft.enter key := by
  rcases refused_call_cases refused with ⟨detail, _⟩ | ⟨kind, other, begins, pressed, same⟩ |
    ⟨_, _, _, rfl, _⟩
  · rw [renames.press] at detail
    cases detail
  · obtain ⟨rfl, rfl⟩ := Prod.mk.inj (Option.some.inj (begins.symm.trans renames.press))
    rcases refused_press_cases pressed with ⟨⟨_, missing⟩, _⟩ | ⟨_, _, _, left⟩
    · rw [renames.double] at missing
      cases missing
    · rw [same]
      exact left
  · cases renames.double

/-- Later calls see nothing of a key entered once more but in the names of bindings. -/
theorem alike_enter (found : draft.lookup? key.code = some entry) (later : List Call) :
    (draft.enter key).answers later = draft.answers later ∧
      ((draft.enter key).after later).build.map (List.map Binding.unnamed) =
        (draft.after later).build.map (List.map Binding.unnamed) := by
  have alike : (draft.enter key).unnamed = draft.unnamed := by
    rw [unnamed_enter, found, Option.isSome_some, if_pos rfl]
  obtain ⟨answers, last⟩ := answers_alike alike later
  exact ⟨answers, build_alike last⟩

/-- A whole action refused for its empty command has been begun. -/
theorem begun_of_emptyCommand {action : Action}
    (refused : (draft.call (.action key action)).2 = some .emptyCommand) :
    (draft.call (.action key action)).1 = draft.begun key action := by
  rcases refused_call_cases refused with ⟨detail, _⟩ | ⟨kind, other, _, pressed, _⟩ |
    ⟨_, _, same, _, _, left⟩
  · cases detail
  · rcases refused_press_cases pressed with ⟨⟨_, missing⟩, _⟩ | ⟨_, double, _⟩
    · cases missing
    · cases double
  · cases same
    exact left

/-- A refused call leaves the draft as it was unless it renames its key or is a whole action with
an empty command. A time or a command is neither: it is no press, so it names no key, and it is not
a whole action. -/
theorem eq_of_refused_iff (distinct : (draft.keys.map DraftKey.code).Nodup)
    (refused : (draft.call asked).2 = some error) :
    (draft.call asked).1 = draft ↔
      (∀ key, ¬draft.Renames asked error key) ∧
      ∀ key action, asked = .action key action → error ≠ .emptyCommand := by
  rcases refused_call_cases refused with ⟨detail, left⟩ | ⟨kind, key, begins, pressed, same⟩ |
    ⟨key, action, rfl, rfl, finished, left⟩
  · refine iff_of_true left ⟨fun key renames => ?_, ?_⟩
    · rw [renames.press] at detail
      cases detail
    · rintro key action rfl
      cases detail
  · rw [same]
    rcases refused_press_cases pressed with ⟨⟨code, rfl⟩, left⟩ | ⟨rfl, rfl, ⟨entry, found⟩, left⟩
    · refine iff_of_true left ⟨fun _ renames => ?_, fun _ _ _ => by simp⟩
      cases renames.double
    · rw [left, enter_eq_self_iff distinct found]
      constructor
      · refine fun kept => ⟨fun other renames => ?_, fun _ _ _ => by simp⟩
        obtain ⟨_, rfl⟩ := Prod.mk.inj (Option.some.inj (begins.symm.trans renames.press))
        obtain ⟨_, again, unnamed⟩ := renames.unnamed
        obtain rfl := Option.some.inj (found.symm.trans again)
        exact kept ⟨renames.named, unnamed⟩
      · rintro ⟨kept, _⟩ ⟨named, unnamed⟩
        exact kept key ⟨begins, rfl, named, entry, found, unnamed⟩
  · refine iff_of_false (fun same => ?_) fun kept => kept.2 key action rfl rfl
    have unfinished := draft.unfinished?_begun key action
    rw [← left, same, finished] at unfinished
    cases unfinished

/-- A refused call leaves the draft as it was, but in two cases. When it is a second short action
whose key brings a name to an entry without one, the entry keeps the name, and later calls see
nothing of it but in the names of bindings. When it is a whole action with an empty command, the
action stays open without a command, so that nothing can be built and no other action opened until
it has one. -/
theorem refused_call_keeps_draft_unless (reached : draft.IsReached)
    (refused : (draft.call asked).2 = some error) :
    ((draft.call asked).1 = draft ↔
      (∀ key, ¬draft.Renames asked error key) ∧
      ∀ key action, asked = .action key action → error ≠ .emptyCommand) ∧
    (∀ key, draft.Renames asked error key →
      (draft.call asked).1 = draft.enter key ∧
      ∀ later, (draft.call asked).1.answers later = draft.answers later ∧
        ((draft.call asked).1.after later).build.map (List.map Binding.unnamed) =
          (draft.after later).build.map (List.map Binding.unnamed)) ∧
    (∀ key action, asked = .action key action → error = .emptyCommand →
      (draft.call asked).1 = draft.begun key action ∧
      (∀ bindings, (draft.begun key action).build ≠ .ok bindings) ∧
      ∀ kind other, (draft.begun key action).press kind other =
        (draft.begun key action, some (.missingCommand key.code))) := by
  refine ⟨eq_of_refused_iff (nodup_of_isReached reached) refused, ?_, ?_⟩
  · intro key renames
    have entered := renames.entered refused
    obtain ⟨entry, found, _⟩ := renames.unnamed
    rw [entered]
    exact ⟨rfl, alike_enter found⟩
  · rintro key action rfl rfl
    have unfinished := draft.unfinished?_begun key action
    exact ⟨begun_of_emptyCommand refused, build_ne_ok_of_unfinished unfinished,
      press_of_unfinished unfinished⟩

/-- Both cases occur after one finished short action without a name. -/
theorem refused_calls_leave_traces :
    let draft := empty.after [.step (.press .short ⟨116, none⟩), .step (.command "A" false)]
    let second := Call.step (.press .short ⟨116, some "POWER"⟩)
    let whole := Call.action ⟨30, none⟩ ⟨.long, 4000, "", false⟩
    ((draft.call second).1 ≠ draft ∧ (draft.call second).1 = draft.enter ⟨116, some "POWER"⟩) ∧
      (draft.call whole).1 ≠ draft ∧
      ∀ bindings, (draft.call whole).1.build ≠ .ok bindings := by
  intro draft second whole
  have reached : draft.IsReached := ⟨_, rfl⟩
  have names : draft.Renames second (.duplicateShort 116) ⟨116, some "POWER"⟩ :=
    ⟨rfl, rfl, by decide, ⟨116, none, [⟨.short, 1000, some "A", false⟩]⟩, by decide, rfl⟩
  obtain ⟨kept, entered, _⟩ := refused_call_keeps_draft_unless reached
    (show (draft.call second).2 = some (.duplicateShort 116) by decide)
  obtain ⟨keptWhole, _, begun⟩ := refused_call_keeps_draft_unless reached
    (show (draft.call whole).2 = some .emptyCommand by decide)
  obtain ⟨left, unbuilt, _⟩ := begun _ _ rfl rfl
  refine ⟨⟨fun same => (kept.mp same).1 _ names, (entered _ names).1⟩,
    fun same => (keptWhole.mp same).2 _ _ rfl rfl, ?_⟩
  rw [left]
  exact unbuilt

/-- Refused calls do not in general leave the draft as it was: a second short action gives its key
the name it had not. -/
theorem refused_call_changes_draft : ¬∀ (draft : Draft) (asked : Call) (error : ConfigError),
    draft.IsReached → (draft.call asked).2 = some error → (draft.call asked).1 = draft := by
  intro kept
  let draft := empty.after [.step (.press .short ⟨116, none⟩), .step (.command "A" false)]
  have same := kept draft (.step (.press .short ⟨116, some "POWER"⟩)) (.duplicateShort 116)
    ⟨_, rfl⟩ (by decide)
  exact absurd same (by decide)

end Draft

end Keyhold
