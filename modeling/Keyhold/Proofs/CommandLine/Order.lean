import Keyhold.Proofs.CommandLine.Forms

/-!
# Steps in the order of the command line

Whatever parser takes a command line, its steps are found in the order in which they were given
(`steps_of_written`), as long as the parser lists the values of each switch with growing places. The
reader does, and with it the steps that are found are the only ones that the command line gives
(`steps_eq_iff_writes`).
-/

namespace Keyhold.CommandLine

variable {findings : Findings} {placed : List Placed} {steps : List StepText}
  {arguments : List String}

/-- The steps that a command line gives are found on it, in this order: none is lost, none is found
twice, and none passes another. -/
theorem steps_of_written {parse : Parser} (lawful : parse.Lawful)
    (written : Writes steps arguments) (parsed : parse arguments = .ok findings) :
    findings.steps = steps := by
  obtain ⟨occurrences, line, means⟩ := written
  obtain ⟨placed, rfl, lists⟩ := lawful occurrences arguments findings line parsed
  exact lists.steps_eq means

/-- Steps between other switches, with letters that share a dash, as the reader finds them. -/
theorem steps_of_interleaved : ∃ findings, reader
    ["-vs", "KEY_A", "--debounce", "20", "--time", "+500", "-i/dev/a", "-vv", "-X", "halt", "-",
      "--", "-s"] = .ok findings ∧
    findings.steps = [.press .short "KEY_A", .time 500, .command "halt" true] := by
  have short : GivesValue .short "KEY_A" [cluster (['v'] ++ ['s']), "KEY_A"] :=
    .letter (by simp [IsFlagLetter, Switch.ofLetter?]) rfl nofun
  have debounce : GivesValue .debounce "20" ["--" ++ "debounce", "20"] := .long rfl nofun
  have time : GivesValue .time "+500" ["--" ++ "time", "+500"] := .long rfl nofun
  have input : GivesValue .input "/dev/a" [cluster ([] ++ 'i' :: "/dev/a".toList)] :=
    .letterAttached nofun rfl (.inr ⟨rfl, nofun, nofun⟩)
  have verbose : Aside (cluster ['v', 'v']) :=
    .flags nofun (by simp [IsFlagLetter, Switch.ofLetter?])
  have exit : GivesValue .exitAction "halt" [cluster ([] ++ ['X']), "halt"] :=
    .letter nofun rfl nofun
  have stray : Aside "-" := .stray fun _ => rfl
  have line := Line.value short <| .value debounce <| .value time <| .value input <|
    .aside verbose <| .value exit <| .aside stray <| .strays ["-s"]
  have key : StepText.IsGivenAs (.press .short "KEY_A") "KEY_A" := rfl
  have count : StepText.IsGivenAs (.time 500) "+500" := word64?_eq_some_iff.mp rfl
  have command : StepText.IsGivenAs (.command "halt" true) "halt" := rfl
  have debounceIsOther := ValueSwitch.isOther_of_mem (show .debounce ∈ _ by decide)
  have inputIsOther := ValueSwitch.isOther_of_mem (show .input ∈ _ by decide)
  have means : Means [⟨.short, "KEY_A"⟩, ⟨.debounce, "20"⟩, ⟨.time, "+500"⟩, ⟨.input, "/dev/a"⟩,
      ⟨.exitAction, "halt"⟩] [.press .short "KEY_A", .time 500, .command "halt" true] :=
    .step key <| .other debounceIsOther <| .step count <| .other inputIsOther <| .step command .nil
  exact ⟨_, rfl, steps_of_written lawful_reader ⟨_, line, means⟩ rfl⟩

/-! ## The reader -/

/-- Where the values of the times are counts, the occurrences give steps. -/
theorem exists_means {occurrences : List Occurrence}
    (counts : ∀ one ∈ occurrences, one.switch = .time →
      ∃ count : UInt64, IsCount one.text.toList count) : ∃ steps, Means occurrences steps := by
  induction occurrences with
  | nil => exact ⟨[], .nil⟩
  | cons one others ih =>
    obtain ⟨own, behind⟩ := List.forall_mem_cons.mp counts
    obtain ⟨steps, means⟩ := ih behind
    obtain ⟨switch, text⟩ := one
    cases switch with
    | short =>
      have given : StepText.IsGivenAs (.press .short text) text := rfl
      exact ⟨_, .step given means⟩
    | long =>
      have given : StepText.IsGivenAs (.press .long text) text := rfl
      exact ⟨_, .step given means⟩
    | action =>
      have given : StepText.IsGivenAs (.command text false) text := rfl
      exact ⟨_, .step given means⟩
    | exitAction =>
      have given : StepText.IsGivenAs (.command text true) text := rfl
      exact ⟨_, .step given means⟩
    | time =>
      obtain ⟨count, written⟩ := own rfl
      have given : StepText.IsGivenAs (.time count) text := written
      exact ⟨_, .step given means⟩
    | input | inputWait | config | debounce =>
      exact ⟨steps, .other (ValueSwitch.isOther_of_mem (by decide)) means⟩

/-- What is listed as a time is a count. -/
theorem Findings.Lists.counts (lists : findings.Lists placed) :
    ∀ one ∈ placed.map Placed.occurrence, one.switch = .time →
      ∃ count : UInt64, IsCount one.text.toList count := by
  intro occurrence member isTime
  obtain ⟨one, listed, rfl⟩ := List.mem_map.mp member
  have own : one ∈ givenFor .time placed :=
    List.mem_filter.mpr ⟨listed, decide_eq_true isTime⟩
  obtain ⟨values, _, read⟩ := lists.times.values (List.ne_nil_of_mem own)
  have both : List.Forall₂ (fun one count => (∃ count : UInt64, IsCount one.occurrence.text.toList
      count) ∧ IsCount one.occurrence.text.toList count) (givenFor .time placed) values :=
    read.imp fun _ count written => ⟨⟨count, written⟩, written⟩
  exact ((List.forall₂_and_left _ _).mp both).1 one own

/-- The steps that the reader finds on a command line are those that it gives, and it gives no
others. -/
theorem steps_eq_iff_writes (parsed : reader arguments = .ok findings) :
    findings.steps = steps ↔ Writes steps arguments := by
  constructor
  · rintro rfl
    obtain ⟨occurrences, line⟩ := line_of_reader parsed
    obtain ⟨placed, rfl, lists⟩ := lawful_reader occurrences arguments findings line parsed
    obtain ⟨steps, means⟩ := exists_means lists.counts
    rw [lists.steps_eq means]
    exact ⟨_, line, means⟩
  · intro written
    exact steps_of_written lawful_reader written parsed

end Keyhold.CommandLine
