import Keyhold.Proofs.CommandLine.Reader

/-!
# How command lines that are taken are written

Every command line that the reader takes is written as `Line` describes it, so that description
leaves none out (`line_of_reader`). Reading is followed from the front: behind what has been read,
the arguments are a command line, or first the value that a switch waits for (`IsWritten`).
-/

namespace Keyhold.CommandLine

variable {name text : String} {switch : ValueSwitch} {c : Char} {rest : List Char}
  {attached : Option String} {progress next settled : Progress} {arguments : List String}

/-! ## Arguments by their forms -/

namespace ArgumentForm

/-- A name ends at the first equals sign, and the value stands behind it. -/
theorem eq_of_splitValue (split : splitValue rest = (name, attached)) :
    (attached = none ∧ rest = name.toList) ∨
      ∃ value, attached = some value ∧ rest = name.toList ++ '=' :: value.toList := by
  have parts : rest.takeWhile (· != '=') ++ rest.dropWhile (· != '=') = rest :=
    List.takeWhile_append_dropWhile
  rw [splitValue] at split
  split at split
  · rename_i behind
    cases split
    rw [behind, List.append_nil] at parts
    exact .inl ⟨rfl, by rw [String.toList_ofList, parts]⟩
  · rename_i first value behind
    cases split
    have stop := List.head?_dropWhile_not (· != '=') rest
    rw [behind] at parts stop
    obtain rfl : first = '=' := by simpa using stop
    exact .inr ⟨_, rfl, by rw [String.toList_ofList, String.toList_ofList, parts]⟩

/-- Two dashes alone end the switches. -/
theorem eq_of_separator (form : ofText text = .separator) : text = "--" := by
  unfold ofText at form
  split at form
  · rename_i dashes
    exact String.toList_inj.mp dashes
  all_goals cases form

/-- A long name stands behind two dashes, and before its value. -/
theorem eq_of_long (form : ofText text = .long name attached) :
    (attached = none ∧ text = "--" ++ name) ∨
      ∃ value, attached = some value ∧ text = "--" ++ name ++ "=" ++ value := by
  unfold ofText at form
  split at form
  · cases form
  · rename_i behind _ parts
    rcases split : splitValue behind with ⟨own, value⟩
    rw [split] at form
    cases form
    rcases eq_of_splitValue split with ⟨none, same⟩ | ⟨value, some, same⟩
    · refine .inl ⟨none, String.toList_inj.mp ?_⟩
      rw [parts, same]
      simp
    · refine .inr ⟨value, some, String.toList_inj.mp ?_⟩
      rw [parts, same]
      simp
  · cases form
  · cases form

/-- Letters stand behind one dash. -/
theorem eq_of_letters {letters : List Char} (form : ofText text = .letters letters) :
    text = cluster letters ∧ letters ≠ [] := by
  unfold ofText at form
  split at form
  · cases form
  · cases form
  · rename_i parts
    cases form
    refine ⟨String.toList_inj.mp ?_, List.cons_ne_nil _ _⟩
    rw [parts, cluster, String.toList_ofList]
  · cases form

/-- Anything else does not begin with a dash, or is one. -/
theorem isPlain_of_plain (form : ofText text = .plain) : IsPlain text := by
  intro dash
  obtain ⟨rest, dashed⟩ := List.head?_eq_some_iff.mp dash
  rcases rest with _ | ⟨c, rest⟩
  · exact String.toList_inj.mp dashed
  · unfold ofText at form
    rw [dashed] at form
    split at form
    · cases form
    · cases form
    · cases form
    · rename_i other
      exact (other c rest rfl).elim

/-- What is attached to a letter stands behind it. -/
theorem attaches_of_attached? (found : attached? rest = some text) : Attaches text rest := by
  unfold attached? at found
  split at found
  · cases found
  · cases found
    exact .inl (by rw [String.toList_ofList])
  · rename_i filled unsigned
    cases found
    refine .inr ⟨by rw [String.toList_ofList], filled, fun equals => ?_⟩
    obtain ⟨value, same⟩ := List.head?_eq_some_iff.mp equals
    exact unsigned value same

/-- Where nothing is attached to a letter, nothing stands behind it. -/
theorem eq_nil_of_attached? (missing : attached? rest = none) : rest = [] := by
  unfold attached? at missing
  split at missing
  · rfl
  all_goals cases missing

end ArgumentForm

/-! ## What is pending -/

namespace Progress

/-- Nothing is pending behind a value that was entered. -/
theorem pending_of_settle (settles : progress.settle = .ok settled) : settled.pending = none := by
  unfold settle at settles
  split at settles
  · rename_i nothing
    cases settles
    exact nothing
  · cases settles
  · obtain ⟨_, _, entered⟩ := bind_eq_ok.mp settles
    cases entered
    rfl

/-- A switch that takes a value has it attached, or waits for it. -/
theorem valueSwitch_cases (read : progress.valueSwitch switch attached = .ok next) :
    next.onlyStrays = progress.onlyStrays ∧
      ((attached = none ∧ next.pending = some ⟨switch, none⟩) ∨
        ∃ value, attached = some value ∧ next.pending = none) := by
  obtain ⟨settled, settles, read⟩ := bind_eq_ok.mp read
  have kept := onlyStrays_of_settle settles
  have nothing := pending_of_settle settles
  cases attached with
  | none =>
    cases read
    exact ⟨kept, .inl ⟨rfl, rfl⟩⟩
  | some value =>
    obtain ⟨found, _, read⟩ := bind_eq_ok.mp read
    cases read
    exact ⟨kept, .inr ⟨value, rfl, nothing⟩⟩

/-- A flag leaves nothing pending. -/
theorem of_flag {flag : Flag} (read : progress.flag flag = .ok next) :
    next.onlyStrays = progress.onlyStrays ∧ next.pending = none := by
  obtain ⟨settled, settles, read⟩ := bind_eq_ok.mp read
  obtain ⟨found, _, read⟩ := bind_eq_ok.mp read
  have kept := onlyStrays_of_settle settles
  have nothing := pending_of_settle settles
  cases read
  exact ⟨kept, nothing⟩

/-- An argument without switch leaves nothing pending. -/
theorem of_stray (read : progress.stray text = .ok next) :
    next.onlyStrays = progress.onlyStrays ∧ next.pending = none := by
  obtain ⟨settled, settles, read⟩ := bind_eq_ok.mp read
  have kept := onlyStrays_of_settle settles
  have nothing := pending_of_settle settles
  cases read
  exact ⟨kept, nothing⟩

/-- Letters behind one dash are flags, or flags and then the letter of a switch with a value. -/
theorem letters_cases {letters : List Char} (read : progress.letters letters = .ok next) :
    ((∀ c ∈ letters, IsFlagLetter c) ∧ next.onlyStrays = progress.onlyStrays ∧
      (progress.pending = none ∨ letters ≠ [] → next.pending = none)) ∨
    ∃ (flags : List Char) (c : Char) (rest : List Char) (switch : ValueSwitch) (middle : Progress),
      letters = flags ++ c :: rest ∧
      (∀ flag ∈ flags, IsFlagLetter flag) ∧ Switch.ofLetter? c = some (.value switch) ∧
      middle.onlyStrays = progress.onlyStrays ∧
      middle.valueSwitch switch (ArgumentForm.attached? rest) = .ok next := by
  induction letters generalizing progress with
  | nil =>
    cases read
    refine .inl ⟨nofun, rfl, ?_⟩
    rintro (nothing | filled)
    · exact nothing
    · exact absurd rfl filled
  | cons c rest ih =>
    rw [letters] at read
    split at read
    · cases read
    · rename_i switch lettered
      exact .inr ⟨[], c, rest, switch, progress, rfl, nofun, lettered, rfl, read⟩
    · rename_i flag lettered
      have isFlag : IsFlagLetter c := ⟨flag, lettered⟩
      obtain ⟨middle, own, further⟩ := bind_eq_ok.mp read
      obtain ⟨kept, nothing⟩ := of_flag own
      rcases ih further with ⟨areFlags, same, settled⟩ |
        ⟨flags, value, behind, switch, before, rfl, areFlags, isValue, same, valued⟩
      · exact .inl ⟨List.forall_mem_cons.mpr ⟨isFlag, areFlags⟩, same.trans kept,
          fun _ => settled (.inl nothing)⟩
      · exact .inr ⟨c :: flags, value, behind, switch, before, rfl,
          List.forall_mem_cons.mpr ⟨isFlag, areFlags⟩, isValue, same.trans kept, valued⟩

/-- Whether what is pending can be entered. -/
def Settles (progress : Progress) : Prop := ∃ settled, progress.settle = .ok settled

/-- While a switch waits for its value nothing else can be entered. -/
theorem Settles.idle (settles : progress.Settles) (switch : ValueSwitch) :
    progress.pending ≠ some ⟨switch, none⟩ := by
  intro awaited
  obtain ⟨settled, settles⟩ := settles
  rw [settle, awaited] at settles
  cases settles

/-- What is read behind a pending value finds it entered. -/
theorem settles_of_bind {rest : Progress → Except UsageError Progress}
    (read : progress.settle >>= rest = .ok next) : progress.Settles := by
  obtain ⟨settled, settles, _⟩ := bind_eq_ok.mp read
  exact ⟨settled, settles⟩

/-- What is pending is entered before letters behind one dash. -/
theorem settles_of_letters {letters : List Char} (filled : letters ≠ [])
    (read : progress.letters letters = .ok next) : progress.Settles := by
  obtain ⟨c, rest, rfl⟩ := List.exists_cons_of_ne_nil filled
  rw [Progress.letters] at read
  split at read
  · cases read
  · exact settles_of_bind read
  · obtain ⟨middle, own, _⟩ := bind_eq_ok.mp read
    exact settles_of_bind own

end Progress

/-- What reading one argument comes to while switches are read. -/
inductive Reads (progress : Progress) (text : String) (next : Progress) : Prop where
  /-- It ends the switches. -/
  | separator (own : text = "--") (same : next = { progress with onlyStrays := true })
  /-- It gives no value. -/
  | aside (gives : Aside text) (settles : progress.Settles) (switches : next.onlyStrays = false)
      (nothing : next.pending = none)
  /-- It gives a switch its value. -/
  | attached {switch : ValueSwitch} {value : String} (gives : GivesValue switch value [text])
      (settles : progress.Settles) (switches : next.onlyStrays = false)
      (nothing : next.pending = none)
  /-- It gives a switch whose value has to come next. -/
  | awaits {switch : ValueSwitch}
      (gives : ∀ value, IsPlain value → GivesValue switch value [text, value])
      (settles : progress.Settles) (switches : next.onlyStrays = false)
      (awaited : next.pending = some ⟨switch, none⟩)
  /-- It is the value that comes next. -/
  | received {switch : ValueSwitch} (awaited : progress.pending = some ⟨switch, none⟩)
      (plain : IsPlain text) (same : next = { progress with pending := some ⟨switch, some text⟩ })

/-- A switch with a value has it attached, or it has to come next. -/
theorem reads_of_valueSwitch {middle : Progress} (settles : progress.Settles)
    (switches : middle.onlyStrays = false)
    (gives : ∀ value, attached = some value → GivesValue switch value [text])
    (givesNext : attached = none →
      ∀ value, IsPlain value → GivesValue switch value [text, value])
    (read : middle.valueSwitch switch attached = .ok next) : Reads progress text next := by
  obtain ⟨kept, ⟨missing, awaited⟩ | ⟨value, same, nothing⟩⟩ :=
    Progress.valueSwitch_cases read
  · exact .awaits (givesNext missing) settles (kept.trans switches) awaited
  · exact .attached (gives value same) settles (kept.trans switches) nothing

/-- Each argument is read in one of these ways. -/
theorem reads_of_argument (switches : progress.onlyStrays = false)
    (read : progress.argument text = .ok next) : Reads progress text next := by
  rw [Progress.argument_of_switches switches] at read
  cases form : ArgumentForm.ofText text with
  | separator =>
    rw [form] at read
    cases read
    exact .separator (ArgumentForm.eq_of_separator form) rfl
  | long name attached =>
    rw [form] at read
    have written := ArgumentForm.eq_of_long form
    simp only [Progress.long] at read
    split at read
    · cases read
    · rename_i switch named
      refine reads_of_valueSwitch (Progress.settles_of_bind read) switches ?_ ?_ read
      · rintro value rfl
        obtain ⟨none, _⟩ | ⟨_, ⟨⟩, rfl⟩ := written
        · cases none
        · exact .longAttached named
      · rintro rfl value plain
        obtain ⟨_, rfl⟩ | ⟨_, some, _⟩ := written
        · exact .long named plain
        · cases some
    · rename_i flag named
      split at read
      · cases read
      · rename_i alone
        obtain ⟨kept, nothing⟩ := Progress.of_flag read
        obtain ⟨_, rfl⟩ | ⟨_, rfl, _⟩ := written
        · exact .aside (.flag named) (Progress.settles_of_bind read) (kept.trans switches) nothing
        · exact absurd rfl alone
  | letters letters =>
    rw [form] at read
    obtain ⟨rfl, filled⟩ := ArgumentForm.eq_of_letters form
    have settles := Progress.settles_of_letters filled read
    rcases Progress.letters_cases read with ⟨areFlags, kept, settled⟩ |
      ⟨flags, c, rest, switch, middle, rfl, areFlags, lettered, kept, valued⟩
    · exact .aside (.flags filled areFlags) settles (kept.trans switches) (settled (.inr filled))
    · refine reads_of_valueSwitch settles (kept.trans switches) ?_ ?_ valued
      · intro value found
        exact .letterAttached areFlags lettered (ArgumentForm.attaches_of_attached? found)
      · intro missing value plain
        obtain rfl := ArgumentForm.eq_nil_of_attached? missing
        exact .letter areFlags lettered plain
  | plain =>
    rw [form] at read
    have plain := ArgumentForm.isPlain_of_plain form
    simp only [Progress.plain] at read
    split at read
    · rename_i switch awaited
      cases read
      exact .received awaited plain rfl
    · obtain ⟨kept, nothing⟩ := Progress.of_stray read
      exact .aside (.stray plain) (Progress.settles_of_bind read) (kept.trans switches) nothing

/-! ## Whole command lines -/

/-- Whether arguments are read to the end without a mistake. -/
def Parses (progress : Progress) (arguments : List String) : Prop :=
  ∃ next, progress.arguments arguments = .ok next ∧ next.Settles

namespace Parses

/-- The first argument is read, and then the others. -/
theorem front (parses : Parses progress (text :: arguments)) :
    ∃ next, progress.argument text = .ok next ∧ Parses next arguments := by
  obtain ⟨last, read, settles⟩ := parses
  obtain ⟨next, own, further⟩ := bind_eq_ok.mp read
  exact ⟨next, own, last, further, settles⟩

/-- No switch waits for its value behind the end of the switches. -/
theorem idle_of_strays (parses : Parses progress arguments) (only : progress.onlyStrays = true)
    (switch : ValueSwitch) : progress.pending ≠ some ⟨switch, none⟩ := by
  cases arguments with
  | nil =>
    obtain ⟨_, ⟨⟩, settles⟩ := parses
    exact settles.idle switch
  | cons text rest =>
    obtain ⟨next, own, _⟩ := parses.front
    rw [Progress.argument, if_pos only] at own
    exact (Progress.settles_of_bind own).idle switch

end Parses

/-- Whether arguments are a command line, behind the value that comes next where a switch waits for
it. -/
structure IsWritten (progress : Progress) (arguments : List String) : Prop where
  idle : (∀ switch, progress.pending ≠ some ⟨switch, none⟩) →
    ∃ occurrences, Line occurrences arguments
  awaited : ∀ switch, progress.pending = some ⟨switch, none⟩ →
    ∃ text rest occurrences, arguments = text :: rest ∧ IsPlain text ∧ Line occurrences rest

/-- Arguments that are read without a mistake are a command line. -/
theorem Parses.isWritten (parses : Parses progress arguments)
    (switches : progress.onlyStrays = false) : IsWritten progress arguments := by
  induction arguments generalizing progress with
  | nil =>
    obtain ⟨_, ⟨⟩, settles⟩ := parses
    exact ⟨fun _ => ⟨[], .nil⟩, fun switch awaited => absurd awaited (settles.idle switch)⟩
  | cons text rest ih =>
    obtain ⟨next, own, further⟩ := parses.front
    cases reads_of_argument switches own with
    | separator own same =>
      subst own same
      have idle := further.idle_of_strays rfl
      exact ⟨fun _ => ⟨[], .strays rest⟩, fun switch awaited => absurd awaited (idle switch)⟩
    | aside gives settles switches nothing =>
      refine ⟨fun _ => ?_, fun switch awaited => absurd awaited (settles.idle switch)⟩
      obtain ⟨occurrences, behind⟩ := (ih further switches).idle (by rw [nothing]; exact nofun)
      exact ⟨occurrences, .aside gives behind⟩
    | @attached switch value gives settles switches nothing =>
      refine ⟨fun _ => ?_, fun switch awaited => absurd awaited (settles.idle switch)⟩
      obtain ⟨occurrences, behind⟩ := (ih further switches).idle (by rw [nothing]; exact nofun)
      exact ⟨⟨switch, value⟩ :: occurrences, .value gives behind⟩
    | @awaits switch gives settles switches awaited =>
      refine ⟨fun _ => ?_, fun switch awaited => absurd awaited (settles.idle switch)⟩
      obtain ⟨value, others, occurrences, rfl, plain, behind⟩ :=
        (ih further switches).awaited _ awaited
      exact ⟨⟨switch, value⟩ :: occurrences, .value (gives value plain) behind⟩
    | received awaited plain same =>
      subst same
      refine ⟨fun idle => absurd awaited (idle _), fun switch waits => ?_⟩
      obtain ⟨occurrences, behind⟩ := (ih further switches).idle nofun
      exact ⟨text, rest, occurrences, rfl, plain, behind⟩

/-- Every command line that the reader takes is one. -/
theorem line_of_reader {findings : Findings} (parsed : reader arguments = .ok findings) :
    ∃ occurrences, Line occurrences arguments := by
  obtain ⟨last, read, ends⟩ := bind_eq_ok.mp parsed
  obtain ⟨settled, settles, _⟩ := bind_eq_ok.mp ends
  have parses : Parses .start arguments := ⟨last, read, settled, settles⟩
  exact (parses.isWritten rfl).idle nofun

end Keyhold.CommandLine
