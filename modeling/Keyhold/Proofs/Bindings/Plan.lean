import Keyhold.Bindings.Draft
import Mathlib.Data.List.Induction

/-!
# Plans

A plan lists the actions opened so far with their keys, in the order of opening. It is all that
a draft holds: `Plan.draft` groups a plan by codes, in the order in which the codes are first
named, and the current key is the one of the last action. `advance` takes a step on plans, and
`apply_draft` says that drafts and plans go through every step together and fail for the same
reason.
-/

namespace Keyhold

/-- Two computations in sequence succeed exactly when both do. -/
theorem bind_eq_ok {ε α β : Type} {first : Except ε α} {next : α → Except ε β} {result : β} :
    first.bind next = .ok result ↔ ∃ middle, first = .ok middle ∧ next middle = .ok result := by
  cases first with
  | error error => simp [Except.bind]
  | ok middle => simp [Except.bind]

/-- A list is turned into results exactly when these are the results of its members. -/
theorem mapM_eq_some_iff {α β : Type} {read : α → Option β} {list : List α} {results : List β} :
    list.mapM read = some results ↔ list.map read = results.map some := by
  induction list generalizing results with
  | nil => cases results <;> simp
  | cons first rest ih =>
    rw [List.mapM_cons, List.map_cons]
    cases read first with
    | none => cases results <;> simp
    | some result =>
      cases results with
      | nil => cases rest.mapM read <;> simp
      | cons head tail =>
        rw [List.map_cons, List.cons.injEq, Option.some.injEq, ← ih]
        cases rest.mapM read with
        | none => simp
        | some others => simp

/-- A list is turned into results exactly when each of its members has one. -/
theorem exists_mapM_iff {α β : Type} {read : α → Option β} {list : List α} :
    (∃ results, list.mapM read = some results) ↔
      ∀ entry ∈ list, ∃ result, read entry = some result := by
  induction list with
  | nil => simp
  | cons first rest ih =>
    rw [List.forall_mem_cons, ← ih, List.mapM_cons]
    cases read first with
    | none => simp
    | some result =>
      cases rest.mapM read with
      | none => simp
      | some others => simp

/-- The actions that a list gives for a code, in the order of the list. -/
def Action.underCode (code : UInt16) (entries : List (UInt16 × Action)) : List Action :=
  (entries.filter (·.1 == code)).map (·.2)

/-- The actions bound to a code. -/
def Bindings.actionsOf (bindings : Bindings) (code : UInt16) : List Action :=
  (bindings.get? code).elim [] Binding.actions

/-- An opened action with its key as it was given. -/
structure Opened where
  key : Key
  action : DraftAction
  deriving DecidableEq, Repr

/-- The actions opened so far, in the order of opening. -/
abbrev Plan := List Opened

namespace Plan

/-- The codes of a plan, in the order in which they are first named. -/
def codes (plan : Plan) : List UInt16 :=
  plan.foldl (fun seen opened =>
    if opened.key.code ∈ seen then seen else seen ++ [opened.key.code]) []

/-- The actions opened for one code. -/
def ofCode (plan : Plan) (code : UInt16) : Plan := plan.filter (·.key.code == code)

/-- The entry of a code; it has the first name that was given for the code. -/
def entry (plan : Plan) (code : UInt16) : DraftKey :=
  ⟨code, (plan.ofCode code).findSome? (·.key.name), (plan.ofCode code).map Opened.action⟩

/-- The draft that holds the plan. -/
def draft (plan : Plan) : Draft :=
  ⟨plan.codes.map plan.entry, plan.getLast?.map (·.key.code)⟩

/-- The plan with a function applied to the action opened last. -/
def changeLast (update : DraftAction → DraftAction) (plan : Plan) : Plan :=
  match plan.getLast? with
  | some last => plan.dropLast ++ [{ last with action := update last.action }]
  | none => plan

/-- The code of the action opened last, while it lacks a command. -/
def unfinished? (plan : Plan) : Option UInt16 :=
  plan.getLast?.bind fun last =>
    if last.action.command.isNone then some last.key.code else none

/-- The plan after a step, or why the step is refused. -/
def advance (plan : Plan) : Step → Except ConfigError Plan
  | .press kind key =>
    match plan.unfinished? with
    | some code => .error (.missingCommand code)
    | none =>
      if kind = .short ∧ (plan.ofCode key.code).any (·.action.kind == .short) = true then
        .error (.duplicateShort key.code)
      else .ok (plan ++ [⟨key, .fresh kind⟩])
  | .time trigger =>
    if plan.isEmpty then .error (.noCurrentKey .time)
    else .ok (plan.changeLast fun action => { action with trigger := trigger })
  | .command text exits =>
    if text.isEmpty then .error .emptyCommand
    else if plan.isEmpty then .error (.noCurrentKey .action)
    else .ok (plan.changeLast fun action => { action with command := some text, exits := exits })

/-! ## Codes and entries -/

variable {plan : Plan} {opened : Opened} {code : UInt16}

/-- One more action names its code unless it was named before. -/
theorem codes_append_singleton (plan : Plan) (opened : Opened) :
    codes (plan ++ [opened]) =
      if opened.key.code ∈ plan.codes then plan.codes else plan.codes ++ [opened.key.code] := by
  rw [codes, List.foldl_append]
  rfl

/-- The codes of a plan are those of its actions. -/
theorem mem_codes : code ∈ plan.codes ↔ ∃ opened ∈ plan, opened.key.code = code := by
  induction plan using List.reverseRecOn with
  | nil => simp [codes]
  | append_singleton init last ih =>
    rw [codes_append_singleton]
    split
    · rename_i known
      constructor
      · intro member
        obtain ⟨opened, member, same⟩ := ih.mp member
        exact ⟨opened, List.mem_append_left _ member, same⟩
      · rintro ⟨opened, member, rfl⟩
        rcases List.mem_append.mp member with member | member
        · exact ih.mpr ⟨opened, member, rfl⟩
        · rw [List.mem_singleton.mp member]
          exact known
    · simp [ih, or_and_right, exists_or, eq_comm]

/-- A plan names no code twice. -/
theorem nodup_codes (plan : Plan) : plan.codes.Nodup := by
  induction plan using List.reverseRecOn with
  | nil => exact List.nodup_nil
  | append_singleton init last ih =>
    rw [codes_append_singleton]
    split
    · exact ih
    · rename_i fresh
      refine List.nodup_append.mpr ⟨ih, List.pairwise_singleton _ _, ?_⟩
      intro known member other single same
      rw [List.mem_singleton.mp single] at same
      exact fresh (same ▸ member)

/-- One more action comes last in the entry of its code, and names the key if nothing did so
before; it leaves every other entry alone. -/
theorem entry_append (plan : Plan) (opened : Opened) (code : UInt16) :
    entry (plan ++ [opened]) code =
      if opened.key.code = code then
        { plan.entry code with
          name := (plan.entry code).name.or opened.key.name
          actions := (plan.entry code).actions ++ [opened.action] }
      else plan.entry code := by
  by_cases own : opened.key.code = code
  · simp [entry, ofCode, List.filter_append, own, List.findSome?_append]
  · simp [entry, ofCode, List.filter_append, own]

/-- The code of an entry is the code it was looked up by. -/
@[simp] theorem code_entry (plan : Plan) (code : UInt16) : (plan.entry code).code = code := rfl

/-- A draft has an entry for exactly the codes of the plan. -/
theorem lookup?_draft (plan : Plan) (code : UInt16) :
    plan.draft.lookup? code = if code ∈ plan.codes then some (plan.entry code) else none := by
  rw [Draft.lookup?, draft]
  induction plan.codes with
  | nil => rfl
  | cons first rest ih =>
    by_cases here : first = code
    · rw [List.map_cons, List.find?_cons_of_pos (by simpa using here),
        if_pos (List.mem_cons.mpr (.inl here.symm)), here]
    · rw [List.map_cons, List.find?_cons_of_neg (by simpa using here), ih]
      simp [Ne.symm here]

/-- The current action of a draft is the last of the plan. -/
theorem currentAction?_draft (plan : Plan) :
    plan.draft.currentAction? = plan.getLast?.map Opened.action := by
  induction plan using List.reverseRecOn with
  | nil => rfl
  | append_singleton init last ih =>
    have known : last.key.code ∈ codes (init ++ [last]) :=
      mem_codes.mpr ⟨last, List.mem_append_right _ (List.mem_singleton_self _), rfl⟩
    have current : (draft (init ++ [last])).current = some last.key.code := by simp [draft]
    rw [Draft.currentAction?, current, Option.bind_some, lookup?_draft, if_pos known,
      Option.bind_some, entry_append]
    simp

/-- A draft waits for a command when its plan does. -/
theorem unfinished?_draft (plan : Plan) : plan.draft.unfinished? = plan.unfinished? := by
  rw [Draft.unfinished?, currentAction?_draft, unfinished?, draft]
  cases plan.getLast? with
  | none => rfl
  | some last => rfl

/-! ## Steps -/

/-- Changing one entry changes what is found under its code. -/
theorem lookup?_change {draft : Draft} {touched : UInt16} {update : DraftKey → DraftKey}
    (keeps : ∀ entry, (update entry).code = entry.code) :
    (draft.change touched update).lookup? code =
      (draft.lookup? code).map fun entry =>
        if entry.code = touched then update entry else entry := by
  rw [Draft.lookup?, Draft.change, List.find?_map, Draft.lookup?]
  congr 2
  funext entry
  rw [Function.comp_apply]
  split
  · rw [keeps]
  · rfl

/-- No action is listed for a code that the plan does not name. -/
theorem ofCode_eq_nil (fresh : code ∉ plan.codes) : plan.ofCode code = [] := by
  refine List.filter_eq_nil_iff.mpr fun opened member same => fresh ?_
  exact mem_codes.mpr ⟨opened, member, by simpa using same⟩

/-- The entries of a draft in which a key has been entered. -/
theorem enter_draft (plan : Plan) (key : Key) :
    (plan.draft.enter key).keys =
      if key.code ∈ plan.codes then
        plan.draft.keys.map fun entry =>
          if entry.code = key.code then { entry with name := entry.name.or key.name } else entry
      else plan.draft.keys ++ [⟨key.code, key.name, []⟩] := by
  rw [Draft.enter, lookup?_draft]
  by_cases known : key.code ∈ plan.codes
  · simp only [known, if_true, Draft.change]
  · simp only [known, if_false]

/-- Entering a key does not open an action for it. -/
theorem hasShort_enter (plan : Plan) (key : Key) :
    (plan.draft.enter key).hasShort key.code =
      (plan.ofCode key.code).any (·.action.kind == .short) := by
  rw [Draft.hasShort, Draft.enter, lookup?_draft]
  by_cases known : key.code ∈ plan.codes
  · simp only [known, if_true]
    rw [lookup?_change, lookup?_draft, if_pos known]
    · simp [entry, Function.comp_def]
    · exact fun _ => rfl
  · have absent : plan.draft.lookup? key.code = none := by rw [lookup?_draft, if_neg known]
    rw [Draft.lookup?] at absent
    simp [known, Draft.lookup?, List.find?_append, absent, ofCode_eq_nil known]

/-- Opening an action in a draft adds it to the plan. -/
theorem draft_append (plan : Plan) (key : Key) (action : DraftAction) :
    draft (plan ++ [⟨key, action⟩]) =
      { (plan.draft.enter key).change key.code fun entry =>
        { entry with actions := entry.actions ++ [action] } with
        current := some key.code } := by
  rw [draft, codes_append_singleton]
  simp only [Draft.change, enter_draft, List.getLast?_concat, Option.map_some]
  by_cases known : key.code ∈ plan.codes
  · simp only [known, if_true, draft, List.map_map]
    congr 1
    refine List.map_congr_left fun other _ => ?_
    rw [entry_append]
    by_cases own : other = key.code
    · simp [own]
    · simp [own, Ne.symm own]
  · simp only [known, if_false, draft, List.map_append, List.map_map]
    congr 2
    · refine List.map_congr_left fun other member => ?_
      have own : ¬ key.code = other := fun same => known (same ▸ member)
      simp [entry_append, own, Ne.symm own]
    · rw [List.map_singleton, entry_append, if_pos rfl]
      simp [entry, ofCode_eq_nil known]

/-- Changing the current action of a draft changes the last of the plan. -/
theorem draft_changeLast (plan : Plan) (update : DraftAction → DraftAction) :
    plan.draft.changeCurrent update = draft (plan.changeLast update) := by
  induction plan using List.reverseRecOn with
  | nil => rfl
  | append_singleton init last _ =>
    have current : (draft (init ++ [last])).current = some last.key.code := by simp [draft]
    rw [Draft.changeCurrent, current, changeLast, List.getLast?_concat]
    simp only [List.dropLast_concat, Draft.change, draft, List.map_map, codes_append_singleton,
      List.getLast?_concat, Option.map_some]
    congr 1
    refine List.map_congr_left fun other _ => ?_
    rw [Function.comp_apply, entry_append, entry_append]
    by_cases own : last.key.code = other
    · simp [own, DraftKey.changeLast]
    · simp [own, Ne.symm own]

/-- Drafts and plans take a step together. A draft may keep the name of a key that a refused step
has entered, so nothing is said of it then. -/
theorem apply_draft (plan : Plan) (step : Step) :
    match plan.advance step with
    | .ok next => plan.draft.apply step = (next.draft, none)
    | .error error => (plan.draft.apply step).2 = some error := by
  cases step with
  | press kind key =>
    simp only [advance, Draft.apply, Draft.press, unfinished?_draft, hasShort_enter]
    cases plan.unfinished? with
    | some code => rfl
    | none =>
      by_cases double : kind = .short ∧
          (plan.ofCode key.code).any (·.action.kind == .short) = true
      · simp only [if_pos double]
      · simp only [if_neg double, draft_append]
  | time trigger =>
    simp only [advance, Draft.apply, Draft.time, currentAction?_draft]
    rcases plan.eq_nil_or_concat with rfl | ⟨init, last, rfl⟩
    · rfl
    · simp [draft_changeLast]
  | command text exits =>
    simp only [advance, Draft.apply, Draft.command, currentAction?_draft]
    by_cases blank : text.isEmpty = true
    · simp only [if_pos blank]
    · simp only [if_neg blank]
      rcases plan.eq_nil_or_concat with rfl | ⟨init, last, rfl⟩
      · rfl
      · simp [draft_changeLast]

/-! ## Runs of steps -/

/-- The plan after steps, or why the first refused one is refused. -/
def advanceAll (plan : Plan) : List Step → Except ConfigError Plan
  | [] => .ok plan
  | step :: rest =>
    match plan.advance step with
    | .ok next => next.advanceAll rest
    | .error error => .error error

/-- Drafts and plans take all steps together. -/
theorem applyAll_draft (plan : Plan) (steps : List Step) :
    match plan.advanceAll steps with
    | .ok last => plan.draft.applyAll steps = (last.draft, none)
    | .error error => (plan.draft.applyAll steps).2 = some error := by
  induction steps generalizing plan with
  | nil => rfl
  | cons step rest ih =>
    have one := plan.apply_draft step
    simp only [advanceAll, Draft.applyAll]
    cases advanced : plan.advance step with
    | ok next =>
      rw [advanced] at one
      simp only [one]
      exact ih next
    | error error =>
      rw [advanced] at one
      rcases applied : plan.draft.apply step with ⟨draft, failure⟩
      rw [applied] at one
      obtain rfl : failure = some error := one
      rfl

/-- Steps taken one list after the other are taken together. -/
theorem advanceAll_append (plan : Plan) (first second : List Step) :
    plan.advanceAll (first ++ second) =
      (plan.advanceAll first).bind fun middle => middle.advanceAll second := by
  induction first generalizing plan with
  | nil => rfl
  | cons step rest ih =>
    rw [List.cons_append, advanceAll, advanceAll]
    cases plan.advance step with
    | ok next => exact ih next
    | error error => rfl

/-! ## Bindings -/

/-- The actions opened for a code, once all have their commands. -/
def finished? (plan : Plan) (code : UInt16) : Option (List Action) :=
  (plan.ofCode code).mapM (·.action.finish?)

/-- Entries that can be finished are finished one by one. -/
theorem finishAll_cons {entry : DraftKey} {rest : List DraftKey} {bindings : Bindings}
    (finished : Draft.finishAll (entry :: rest) = .ok bindings) :
    ∃ binding others, entry.finish? = some binding ∧ Draft.finishAll rest = .ok others ∧
      bindings = binding :: others := by
  rw [Draft.finishAll] at finished
  cases own : entry.finish? with
  | none =>
    rw [own] at finished
    cases finished
  | some binding =>
    rw [own] at finished
    cases others : Draft.finishAll rest with
    | error error =>
      rw [others] at finished
      cases finished
    | ok tail =>
      rw [others] at finished
      cases finished
      exact ⟨binding, tail, rfl, rfl, rfl⟩

/-- A finished entry keeps its code. -/
theorem code_of_finish? {entry : DraftKey} {binding : Binding}
    (finished : entry.finish? = some binding) : binding.code = entry.code := by
  obtain ⟨_, _, rfl⟩ := Option.map_eq_some_iff.mp finished
  rfl

/-- There is one binding for each entry, in their order. -/
theorem codes_of_finishAll {entries : List DraftKey} {bindings : Bindings}
    (finished : Draft.finishAll entries = .ok bindings) :
    bindings.map Binding.code = entries.map DraftKey.code := by
  induction entries generalizing bindings with
  | nil =>
    cases finished
    rfl
  | cons entry rest ih =>
    obtain ⟨binding, others, own, further, rfl⟩ := finishAll_cons finished
    rw [List.map_cons, List.map_cons, code_of_finish? own, ih further]

/-- The binding of a code is its finished entry. -/
theorem get?_of_finishAll {entries : List DraftKey} {bindings : Bindings} {entry : DraftKey}
    (finished : Draft.finishAll entries = .ok bindings)
    (found : entries.find? (·.code == code) = some entry) :
    ∃ binding, bindings.get? code = some binding ∧ entry.finish? = some binding := by
  induction entries generalizing bindings with
  | nil => contradiction
  | cons first rest ih =>
    obtain ⟨binding, others, own, further, rfl⟩ := finishAll_cons finished
    have same := code_of_finish? own
    rw [Bindings.get?]
    by_cases here : first.code = code
    · rw [List.find?_cons_of_pos (by simpa using here)] at found
      cases found
      exact ⟨binding, List.find?_cons_of_pos (by simpa [same] using here), own⟩
    · rw [List.find?_cons_of_neg (by simpa using here)] at found
      rw [List.find?_cons_of_neg (by simpa [same] using here)]
      exact ih further found

/-- The bindings of a plan are of its codes, in the order in which these are first named. -/
theorem codes_of_build {bindings : Bindings} (built : plan.draft.build = .ok bindings) :
    bindings.map Binding.code = plan.codes := by
  rw [codes_of_finishAll built, draft, List.map_map]
  exact List.map_id _

/-- The bindings of a plan are distinct. -/
theorem nodup_of_build {bindings : Bindings} (built : plan.draft.build = .ok bindings) :
    (bindings.map Binding.code).Nodup := by
  rw [codes_of_build built]
  exact plan.nodup_codes

/-- The binding of a code is made of the actions that the plan has for it, and has the first name
that the plan gives to the code. -/
theorem binding_of_build {bindings : Bindings} (built : plan.draft.build = .ok bindings)
    (named : code ∈ plan.codes) :
    ∃ actions, plan.finished? code = some actions ∧
      bindings.get? code = some ⟨code, (plan.entry code).name, Action.arrange actions⟩ := by
  have found := plan.lookup?_draft code
  rw [if_pos named] at found
  obtain ⟨binding, bound, finished⟩ := get?_of_finishAll built found
  obtain ⟨actions, whole, rfl⟩ := Option.map_eq_some_iff.mp finished
  refine ⟨actions, ?_, bound⟩
  rw [finished?, ← whole, entry, List.mapM_map]
  rfl

/-- A code that the plan does not name is not bound. -/
theorem get?_of_unnamed {bindings : Bindings} (built : plan.draft.build = .ok bindings)
    (unnamed : code ∉ plan.codes) : bindings.get? code = none := by
  refine List.find?_eq_none.mpr fun binding member same => unnamed ?_
  rw [← codes_of_build built]
  exact List.mem_map.mpr ⟨binding, member, by simpa using same⟩

/-- The actions of a plan that have their commands, with the codes of their keys. -/
def listed (plan : Plan) : List (UInt16 × Action) :=
  plan.filterMap fun opened => opened.action.finish?.map (opened.key.code, ·)

/-- The finished actions of a code are those listed for it. -/
theorem underCode_listed {actions : List Action} (finished : plan.finished? code = some actions) :
    Action.underCode code plan.listed = actions := by
  induction plan generalizing actions with
  | nil =>
    cases finished
    rfl
  | cons opened rest ih =>
    rw [finished?, ofCode] at finished
    by_cases own : opened.key.code = code
    · rw [List.filter_cons_of_pos (by simpa using own), List.mapM_cons] at finished
      obtain ⟨action, first, finished⟩ := Option.bind_eq_some_iff.mp finished
      obtain ⟨others, further, finished⟩ := Option.bind_eq_some_iff.mp finished
      cases finished
      have tail := ih further
      rw [Action.underCode, listed] at tail
      simp [Action.underCode, listed, first, own, tail]
    · rw [List.filter_cons_of_neg (by simpa using own)] at finished
      have tail := ih finished
      rw [Action.underCode, listed] at tail
      cases first : opened.action.finish? with
      | none => simp [Action.underCode, listed, first, tail]
      | some action => simp [Action.underCode, listed, first, own, tail]

/-- Bindings have the actions that the plan lists, arranged. -/
theorem actionsOf_of_build {bindings : Bindings} (built : plan.draft.build = .ok bindings)
    (code : UInt16) :
    bindings.actionsOf code = Action.arrange (Action.underCode code plan.listed) := by
  by_cases named : code ∈ plan.codes
  · obtain ⟨actions, finished, bound⟩ := binding_of_build built named
    rw [Bindings.actionsOf, bound, Option.elim_some, underCode_listed finished]
  · have unbound := get?_of_unnamed built named
    have finished : plan.finished? code = some [] := by
      rw [finished?, ofCode_eq_nil named]
      rfl
    rw [Bindings.actionsOf, unbound, underCode_listed finished]
    simp [Action.arrange]

/-- An action is bound to a code exactly when the plan lists it there. -/
theorem mem_actionsOf_of_build {bindings : Bindings} (built : plan.draft.build = .ok bindings)
    {action : Action} : action ∈ bindings.actionsOf code ↔ (code, action) ∈ plan.listed := by
  rw [actionsOf_of_build built, Action.arrange, List.mem_mergeSort, Action.underCode]
  constructor
  · intro member
    obtain ⟨entry, selected, rfl⟩ := List.mem_map.mp member
    obtain ⟨inside, same⟩ := List.mem_filter.mp selected
    obtain rfl : entry.1 = code := by simpa using same
    exact inside
  · intro member
    exact List.mem_map.mpr ⟨_, List.mem_filter.mpr ⟨member, by simp⟩, rfl⟩

end Plan

end Keyhold
