import Keyhold.CommandLine.Findings
import Keyhold.CommandLine.Switch
import Keyhold.Proofs.Key.Numeral
import Mathlib.Data.List.Nodup

/-!
# Places on the command line

A parser lists the values of each switch apart, and only their places say how the lists belong
together. `Findings.Lists` says what the lists are for occurrences of values whose places grow along
the command line, and `Means` which steps these occurrences give. The steps of all switches together
are then the given ones in some order (`Lists.collected_perm`), and sorting by place gives their own
order back (`Lists.steps_eq`).
-/

namespace Keyhold.CommandLine

/-- Whether a text writes a count: decimal digits, which a plus sign may come before. -/
def IsCount (text : List Char) (count : UInt64) : Prop :=
  Text.Writes 10 text count.toNat ∨
    ∃ digits, text = '+' :: digits ∧ Text.Writes 10 digits count.toNat

/-- A text is read as a count exactly when it writes the count. -/
theorem word64?_eq_some_iff {text : List Char} {count : UInt64} :
    Text.word64? text = some count ↔ IsCount text count := by
  rw [IsCount, ← Text.unsigned?_eq_some_iff (by decide), Text.word64?, Option.bind_eq_some_iff]
  constructor
  · rintro ⟨value, read, fits⟩
    obtain ⟨bound, same⟩ := Option.ite_none_right_eq_some.mp fits
    obtain rfl : UInt64.ofNat value = count := Option.some.inj same
    rw [UInt64.toNat_ofNat_of_lt' bound]
    exact read
  · intro read
    refine ⟨count.toNat, read, ?_⟩
    rw [if_pos count.toNat_lt, UInt64.ofNat_toNat]

/-- A text writes one count. -/
theorem IsCount.unique {text : List Char} {one other : UInt64} (first : IsCount text one)
    (second : IsCount text other) : one = other :=
  Option.some.inj ((word64?_eq_some_iff.mpr first).symm.trans (word64?_eq_some_iff.mpr second))

/-! ## Occurrences of values -/

/-- A value that is given on a command line, by its text. -/
structure Occurrence where
  switch : ValueSwitch
  text : String
  deriving DecidableEq, Repr

/-- A value that is given on a command line, with its place there. -/
structure Placed where
  place : Nat
  occurrence : Occurrence
  deriving DecidableEq, Repr

/-- The values that are given for a switch, in their order. -/
def givenFor (switch : ValueSwitch) (placed : List Placed) : List Placed :=
  placed.filter fun one => one.occurrence.switch = switch

/-- Whether a parser answers about a switch what is given for it: the values, each read off its
text, and apart from them their places, both in order; nothing where none is given. -/
structure Occurrences.Answers {α : Type} (occurrences : Occurrences α)
    (reads : String → α → Prop) (own : List Placed) : Prop where
  absent : own = [] → occurrences = .none
  places : own ≠ [] → occurrences.places = some (own.map Placed.place)
  values : own ≠ [] → ∃ values, occurrences.values = some values ∧
    List.Forall₂ (fun one value => reads one.occurrence.text value) own values

/-- Whether findings list occurrences of values. Each occurrence has a place of its own, later than
those before it, and the values and places of each switch are listed in that order. -/
structure Findings.Lists (findings : Findings) (placed : List Placed) : Prop where
  ordered : (placed.map Placed.place).Pairwise (· < ·)
  shorts : findings.shorts.Answers (fun text value => text = value) (givenFor .short placed)
  longs : findings.longs.Answers (fun text value => text = value) (givenFor .long placed)
  times : findings.times.Answers (fun text count => IsCount text.toList count)
    (givenFor .time placed)
  actions : findings.actions.Answers (fun text value => text = value) (givenFor .action placed)
  exitActions : findings.exitActions.Answers (fun text value => text = value)
    (givenFor .exitAction placed)

/-! ## Steps -/

namespace StepText

/-- The switch with which a step is given. -/
def switch : StepText → ValueSwitch
  | .press .short _ => .short
  | .press .long _ => .long
  | .time _ => .time
  | .command _ false => .action
  | .command _ true => .exitAction

/-- Whether a text gives a step as the value of its switch. -/
def IsGivenAs : StepText → String → Prop
  | .press _ key, text => text = key
  | .time trigger, text => IsCount text.toList trigger
  | .command own _, text => text = own

/-- The switch of a step and its text tell the step. -/
theorem eq_of_given {step : StepText} {text : String} (given : step.IsGivenAs text) :
    (step.switch = .short → step = .press .short text) ∧
    (step.switch = .long → step = .press .long text) ∧
    (step.switch = .time → ∃ count, step = .time count ∧ IsCount text.toList count) ∧
    (step.switch = .action → step = .command text false) ∧
    (step.switch = .exitAction → step = .command text true) := by
  obtain ⟨_ | _, key⟩ | trigger | ⟨command, _ | _⟩ := step
  case time => exact ⟨nofun, nofun, fun _ => ⟨trigger, rfl, given⟩, nofun, nofun⟩
  all_goals
    cases given
    simp [switch]

end StepText

/-- Whether no step is given with a switch. -/
def ValueSwitch.IsOther (switch : ValueSwitch) : Prop := ∀ step : StepText, step.switch ≠ switch

/-- The switches that give no step. -/
theorem ValueSwitch.isOther_of_mem {switch : ValueSwitch}
    (listed : switch ∈ [input, inputWait, config, debounce]) : switch.IsOther := by
  rintro (⟨_ | _, _⟩ | _ | ⟨_, _ | _⟩) rfl <;> simp [StepText.switch] at listed

/-- The steps that occurrences of values give: one for each whose switch is one of steps, in the
same order. -/
inductive Means : List Occurrence → List StepText → Prop
  | nil : Means [] []
  | step {step : StepText} {text : String} {occurrences : List Occurrence}
      {steps : List StepText} : step.IsGivenAs text → Means occurrences steps →
      Means (⟨step.switch, text⟩ :: occurrences) (step :: steps)
  | other {switch : ValueSwitch} {text : String} {occurrences : List Occurrence}
      {steps : List StepText} : switch.IsOther → Means occurrences steps →
      Means (⟨switch, text⟩ :: occurrences) steps

variable {findings : Findings} {placed own : List Placed} {steps : List StepText}
  {log : List (Nat × StepText)}

/-- The log of a step at its place belongs to an occurrence. -/
def Logs (one : Placed) (entry : Nat × StepText) : Prop :=
  one.place = entry.1 ∧ entry.2.IsGivenAs one.occurrence.text

/-- The steps that placed occurrences give can be logged with their places, and then the steps of
each switch belong to the values that are given for it. -/
theorem Means.logged (means : Means (placed.map Placed.occurrence) steps) :
    ∃ log : List (Nat × StepText), log.map (·.2) = steps ∧
      (log.map (·.1)).Sublist (placed.map Placed.place) ∧
      ∀ switch : ValueSwitch, ¬switch.IsOther →
        List.Forall₂ Logs (givenFor switch placed)
          (log.filter fun entry => entry.2.switch = switch) := by
  generalize same : placed.map Placed.occurrence = occurrences at means
  induction means generalizing placed with
  | nil =>
    obtain rfl := List.map_eq_nil_iff.mp same
    exact ⟨[], rfl, .refl _, fun _ _ => .nil⟩
  | @step step text occurrences steps given _ ih =>
    obtain ⟨one, rest, rfl, here, behind⟩ := List.map_eq_cons_iff.mp same
    obtain ⟨log, rfl, places, alike⟩ := ih behind
    refine ⟨(one.place, step) :: log, rfl, places.cons_cons _, fun switch isStep => ?_⟩
    have logs : Logs one (one.place, step) := ⟨rfl, by rw [here]; exact given⟩
    by_cases own : step.switch = switch
    · rw [givenFor, List.filter_cons_of_pos (by simp [here, own]),
        List.filter_cons_of_pos (by simp [own])]
      exact .cons logs (alike switch isStep)
    · rw [givenFor, List.filter_cons_of_neg (by simp [here, own]),
        List.filter_cons_of_neg (by simp [own])]
      exact alike switch isStep
  | @other own text occurrences steps isOther _ ih =>
    obtain ⟨one, rest, rfl, here, behind⟩ := List.map_eq_cons_iff.mp same
    obtain ⟨log, rfl, places, alike⟩ := ih behind
    refine ⟨log, rfl, places.cons _, fun switch isStep => ?_⟩
    have apart : own ≠ switch := fun same => isStep (same ▸ isOther)
    rw [givenFor, List.filter_cons_of_neg (by simp [here, apart])]
    exact alike switch isStep

namespace Occurrences

variable {α : Type} {occurrences : Occurrences α} {reads : String → α → Prop} {make : α → StepText}
  {switch : ValueSwitch}

/-- Where places and values are listed in the same order, they give the logged steps. -/
theorem zip_eq_of_logs {values : List α} (alike : List.Forall₂ Logs own log)
    (read : List.Forall₂ (fun one value => reads one.occurrence.text value) own values)
    (makes : ∀ entry ∈ log, ∀ text value, entry.2.IsGivenAs text → reads text value →
      make value = entry.2) : (own.map Placed.place).zip (values.map make) = log := by
  induction alike generalizing values with
  | nil => rfl
  | @cons one entry others rest logs _ ih =>
    obtain ⟨value, further, own, behind, rfl⟩ := List.forall₂_cons_left_iff.mp read
    obtain ⟨here, later⟩ := List.forall_mem_cons.mp makes
    rw [List.map_cons, List.map_cons, List.zip_cons_cons, ih behind later,
      here _ _ logs.2 own, logs.1]

/-- What a parser answers about a switch gives the steps of the switch, each at its place. -/
theorem Answers.steps_eq (answers : occurrences.Answers reads (givenFor switch placed))
    (alike : List.Forall₂ Logs (givenFor switch placed)
      (log.filter fun entry => entry.2.switch = switch))
    (makes : ∀ step : StepText, step.switch = switch → ∀ text value, step.IsGivenAs text →
      reads text value → make value = step) :
    occurrences.steps make = log.filter fun entry => entry.2.switch = switch := by
  by_cases filled : givenFor switch placed = []
  · rw [filled] at alike
    rw [answers.absent filled, List.forall₂_nil_left_iff.mp alike]
    rfl
  · obtain ⟨values, listed, read⟩ := answers.values filled
    rw [steps, listed, answers.places filled]
    refine zip_eq_of_logs alike read fun entry member => makes entry.2 ?_
    simpa using (List.mem_filter.mp member).2

end Occurrences

namespace Findings

/-- Steps are the same members when they are taken switch by switch. -/
theorem switches_perm (log : List (Nat × StepText)) :
    ((log.filter fun entry => entry.2.switch = .short) ++
      (log.filter fun entry => entry.2.switch = .long) ++
      (log.filter fun entry => entry.2.switch = .time) ++
      (log.filter fun entry => entry.2.switch = .action) ++
      log.filter fun entry => entry.2.switch = .exitAction).Perm log := by
  rw [List.perm_iff_count]
  intro entry
  have counted (switch : ValueSwitch) :
      (log.filter fun entry => entry.2.switch = switch).count entry =
        if entry.2.switch = switch then log.count entry else 0 := by
    split
    · rename_i own
      exact List.count_filter (by simp [own])
    · rename_i other
      exact List.count_eq_zero.mpr fun member =>
        other (by simpa using (List.mem_filter.mp member).2)
  simp only [List.count_append, counted]
  obtain ⟨place, ⟨_ | _, _⟩ | _ | ⟨_, _ | _⟩⟩ := entry <;> simp [StepText.switch]

/-- The steps of all switches together are those that the listed occurrences give. -/
theorem Lists.collected_perm (lists : findings.Lists placed)
    (means : Means (placed.map Placed.occurrence) steps) :
    ∃ log : List (Nat × StepText), log.map (·.2) = steps ∧
      (log.Pairwise fun earlier later => earlier.1 < later.1) ∧ findings.collected.Perm log := by
  obtain ⟨log, same, places, alike⟩ := means.logged
  refine ⟨log, same, List.pairwise_map.mp (lists.ordered.sublist places), ?_⟩
  have isStep (step : StepText) : ¬step.switch.IsOther := fun other => other step rfl
  have shorts : findings.shorts.steps (.press .short) =
      log.filter fun entry => entry.2.switch = .short := by
    refine lists.shorts.steps_eq (alike _ (isStep (.press .short ""))) ?_
    rintro step own text _ given rfl
    exact ((StepText.eq_of_given given).1 own).symm
  have longs : findings.longs.steps (.press .long) =
      log.filter fun entry => entry.2.switch = .long := by
    refine lists.longs.steps_eq (alike _ (isStep (.press .long ""))) ?_
    rintro step own text _ given rfl
    exact ((StepText.eq_of_given given).2.1 own).symm
  have times : findings.times.steps .time = log.filter fun entry => entry.2.switch = .time := by
    refine lists.times.steps_eq (alike _ (isStep (.time 0))) ?_
    intro step own text count given read
    obtain ⟨trigger, rfl, written⟩ := (StepText.eq_of_given given).2.2.1 own
    rw [read.unique written]
  have actions : findings.actions.steps (.command · false) =
      log.filter fun entry => entry.2.switch = .action := by
    refine lists.actions.steps_eq (alike _ (isStep (.command "" false))) ?_
    rintro step own text _ given rfl
    exact ((StepText.eq_of_given given).2.2.2.1 own).symm
  have exitActions : findings.exitActions.steps (.command · true) =
      log.filter fun entry => entry.2.switch = .exitAction := by
    refine lists.exitActions.steps_eq (alike _ (isStep (.command "" true))) ?_
    rintro step own text _ given rfl
    exact ((StepText.eq_of_given given).2.2.2.2 own).symm
  rw [collected, shorts, longs, times, actions, exitActions]
  exact switches_perm log

/-- Sorting by place gives every list back that has the same members in the order of different
places. -/
theorem steps_of_perm (same : findings.collected.Perm log)
    (ordered : log.Pairwise fun earlier later => earlier.1 < later.1) :
    findings.steps = log.map (·.2) := by
  have transitive : ∀ one two three : Nat × StepText, decide (one.1 ≤ two.1) = true →
      decide (two.1 ≤ three.1) = true → decide (one.1 ≤ three.1) = true := by
    intro one two three first second
    exact decide_eq_true (Nat.le_trans (of_decide_eq_true first) (of_decide_eq_true second))
  have total : ∀ one two : Nat × StepText,
      (decide (one.1 ≤ two.1) || decide (two.1 ≤ one.1)) = true := by
    intro one two
    rw [Bool.or_eq_true, decide_eq_true_eq, decide_eq_true_eq]
    exact Nat.le_total one.1 two.1
  have sorted := List.pairwise_mergeSort transitive total findings.collected
  have places : (log.map (·.1)).Nodup :=
    List.pairwise_map.mpr (ordered.imp fun before => Nat.ne_of_lt before)
  have perm := (List.mergeSort_perm findings.collected
    fun earlier later => decide (earlier.1 ≤ later.1)).trans same
  have equal := List.Perm.eq_of_pairwise
    (fun _ _ one other before after => List.inj_on_of_nodup_map places (perm.subset one) other
      (Nat.le_antisymm (of_decide_eq_true before) (of_decide_eq_true after)))
    sorted (ordered.imp fun before => decide_eq_true (Nat.le_of_lt before)) perm
  rw [steps, equal]

/-- Listed occurrences give their steps in their own order. -/
theorem Lists.steps_eq (lists : findings.Lists placed)
    (means : Means (placed.map Placed.occurrence) steps) : findings.steps = steps := by
  obtain ⟨log, rfl, ordered, same⟩ := lists.collected_perm means
  exact steps_of_perm same ordered

end Findings

end Keyhold.CommandLine
