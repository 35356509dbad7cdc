import Keyhold.CommandLine.Arguments
import Keyhold.Proofs.Bindings.Plan
import Keyhold.Proofs.CommandLine.Line
import Mathlib.Data.List.TakeWhile

/-!
# The reader of command lines

The reader that the program runs with is a lawful parser (`lawful_reader`). Reading goes along the
structure of `Line`. A value in an argument of its own is entered late, so what is kept between the
arguments is `Given`: once the pending value is entered, the occurrences so far are recorded.
-/

namespace Keyhold.CommandLine

variable {name text : String} {switch : ValueSwitch} {c : Char} {rest : List Char} {place : Nat}
  {findings found : Findings} {placed own : List Placed} {occurrences : List Occurrence}
  {progress next settled : Progress} {tokens arguments : List String}

/-! ## Entering values -/

namespace Occurrences

variable {α : Type} {listed : Occurrences α} {reads : String → α → Prop} {value : α}

/-- A switch that is not given. -/
theorem answers_none (reads : String → α → Prop) : (none : Occurrences α).Answers reads [] :=
  ⟨fun _ => rfl, fun filled => absurd rfl filled, fun filled => absurd rfl filled⟩

/-- One more value of its switch is listed behind the others. -/
theorem Answers.enter (answers : listed.Answers reads (givenFor switch placed))
    (read : reads text value) :
    (listed.add place value).Answers reads
      (givenFor switch (placed ++ [⟨place, ⟨switch, text⟩⟩])) := by
  have given : givenFor switch (placed ++ [⟨place, ⟨switch, text⟩⟩]) =
      givenFor switch placed ++ [⟨place, ⟨switch, text⟩⟩] := by simp [givenFor]
  rw [given]
  by_cases filled : givenFor switch placed = []
  · rw [filled, answers.absent filled]
    exact ⟨fun none => by simp at none, fun _ => rfl, fun _ => ⟨[value], rfl, .cons read .nil⟩⟩
  · obtain ⟨values, own, before⟩ := answers.values filled
    refine ⟨fun none => by simp at none, fun _ => ?_, fun _ => ⟨values ++ [value], ?_, ?_⟩⟩
    · simp [Occurrences.add, answers.places filled]
    · simp [Occurrences.add, own]
    · exact List.rel_append before (.cons read .nil)

/-- A value of another switch is not listed. -/
theorem Answers.pass {other : ValueSwitch} (answers : listed.Answers reads (givenFor switch placed))
    (apart : other ≠ switch) :
    listed.Answers reads (givenFor switch (placed ++ [⟨place, ⟨other, text⟩⟩])) := by
  have given : givenFor switch (placed ++ [⟨place, ⟨other, text⟩⟩]) = givenFor switch placed := by
    simp [givenFor, apart]
  rw [given]
  exact answers

end Occurrences

namespace Findings

/-- What is read as a count of milliseconds writes it. -/
theorem isCount_of_millis {count : UInt64} (read : millis text = .ok count) :
    IsCount text.toList count := by
  rw [millis] at read
  split at read
  · rename_i own written
    cases read
    exact word64?_eq_some_iff.mp written
  · cases read

/-- Nothing has been listed. -/
theorem lists_empty : empty.Lists [] :=
  ⟨.nil, Occurrences.answers_none _, Occurrences.answers_none _, Occurrences.answers_none _,
    Occurrences.answers_none _, Occurrences.answers_none _⟩

/-- Places grow where the next one is behind all before it. -/
theorem Lists.ordered_append (lists : findings.Lists placed)
    (behind : ∀ one ∈ placed, one.place < place) (occurrence : Occurrence) :
    (List.map Placed.place (placed ++ [⟨place, occurrence⟩])).Pairwise (· < ·) := by
  rw [List.map_append]
  refine List.pairwise_append.mpr ⟨lists.ordered, List.pairwise_singleton _ _, ?_⟩
  intro earlier member later isLater
  obtain ⟨one, listed, rfl⟩ := List.mem_map.mp member
  have same : later = place := by simpa using isLater
  rw [same]
  exact behind one listed

/-- A value that is entered at a later place is listed behind the others. -/
theorem Lists.accept (lists : findings.Lists placed) (behind : ∀ one ∈ placed, one.place < place)
    (accepted : findings.accept place switch text = .ok found) :
    found.Lists (placed ++ [⟨place, ⟨switch, text⟩⟩]) := by
  have ordered := lists.ordered_append behind ⟨switch, text⟩
  obtain ⟨_, shorts, longs, times, actions, exitActions⟩ := lists
  cases switch with
  | short =>
    cases accepted
    exact ⟨ordered, shorts.enter rfl, longs.pass nofun, times.pass nofun, actions.pass nofun,
      exitActions.pass nofun⟩
  | long =>
    cases accepted
    exact ⟨ordered, shorts.pass nofun, longs.enter rfl, times.pass nofun, actions.pass nofun,
      exitActions.pass nofun⟩
  | time =>
    obtain ⟨count, read, accepted⟩ := bind_eq_ok.mp accepted
    cases accepted
    exact ⟨ordered, shorts.pass nofun, longs.pass nofun, times.enter (isCount_of_millis read),
      actions.pass nofun, exitActions.pass nofun⟩
  | action =>
    cases accepted
    exact ⟨ordered, shorts.pass nofun, longs.pass nofun, times.pass nofun, actions.enter rfl,
      exitActions.pass nofun⟩
  | exitAction =>
    cases accepted
    exact ⟨ordered, shorts.pass nofun, longs.pass nofun, times.pass nofun, actions.pass nofun,
      exitActions.enter rfl⟩
  | input | inputWait =>
    obtain ⟨path, _, accepted⟩ := bind_eq_ok.mp accepted
    cases accepted
    exact ⟨ordered, shorts.pass nofun, longs.pass nofun, times.pass nofun, actions.pass nofun,
      exitActions.pass nofun⟩
  | config | debounce =>
    obtain ⟨_, _, accepted⟩ := bind_eq_ok.mp accepted
    obtain ⟨value, _, accepted⟩ := bind_eq_ok.mp accepted
    cases accepted
    exact ⟨ordered, shorts.pass nofun, longs.pass nofun, times.pass nofun, actions.pass nofun,
      exitActions.pass nofun⟩

/-- Flags are not listed. -/
theorem Lists.raise {flag : Flag} (lists : findings.Lists placed)
    (raised : findings.raise flag = .ok found) : found.Lists placed := by
  obtain ⟨ordered, shorts, longs, times, actions, exitActions⟩ := lists
  cases flag with
  | syncActions | checkConfig | listDevices | testMode =>
    obtain ⟨_, _, raised⟩ := bind_eq_ok.mp raised
    cases raised
    exact ⟨ordered, shorts, longs, times, actions, exitActions⟩
  | verbose =>
    cases raised
    exact ⟨ordered, shorts, longs, times, actions, exitActions⟩
  | help | version => cases raised

/-- Arguments without switch are not listed. -/
theorem Lists.addStray (lists : findings.Lists placed) (text : String) :
    (findings.addStray text).Lists placed :=
  ⟨lists.ordered, lists.shorts, lists.longs, lists.times, lists.actions, lists.exitActions⟩

end Findings

/-! ## Progress -/

/-- Whether the given occurrences have been entered, in this order, and no value waits to be
entered. -/
structure Recorded (progress : Progress) (occurrences : List Occurrence) : Prop where
  settled : progress.pending = none
  listed : ∃ placed : List Placed, placed.map Placed.occurrence = occurrences ∧
    progress.findings.Lists placed ∧ ∀ one ∈ placed, one.place ≤ progress.place

/-- Nothing is found before the first argument. -/
theorem recorded_start : Recorded .start [] := ⟨rfl, [], rfl, Findings.lists_empty, nofun⟩

namespace Recorded

/-- Where no value is entered, the record stays. -/
theorem of_same (recorded : Recorded progress occurrences) (settled : next.pending = none)
    (same : ∀ placed, progress.findings.Lists placed → next.findings.Lists placed)
    (later : progress.place ≤ next.place) : Recorded next occurrences := by
  obtain ⟨placed, listed, lists, taken⟩ := recorded.listed
  exact ⟨settled, placed, listed, same placed lists, fun one member =>
    Nat.le_trans (taken one member) later⟩

/-- A value that is entered is recorded behind the others. -/
theorem enter (recorded : Recorded progress occurrences)
    (entered : progress.enter switch text = .ok next) :
    Recorded next (occurrences ++ [⟨switch, text⟩]) := by
  obtain ⟨placed, rfl, lists, taken⟩ := recorded.listed
  obtain ⟨found, accepted, entered⟩ := bind_eq_ok.mp entered
  cases entered
  have behind : ∀ one ∈ placed, one.place < progress.place + 2 := fun one member =>
    Nat.lt_of_le_of_lt (taken one member) (Nat.lt_add_of_pos_right Nat.two_pos)
  refine ⟨recorded.settled, placed ++ [⟨progress.place + 2, ⟨switch, text⟩⟩], by simp,
    lists.accept behind accepted, fun one member => ?_⟩
  rcases List.mem_append.mp member with before | own
  · exact Nat.le_add_right_of_le (taken one before)
  · rw [List.mem_singleton.mp own]

end Recorded

/-! ## Forms of arguments -/

/-- Long names are not empty and have no equals sign. -/
theorem Switch.name_of_ofName? {known : Switch} (named : Switch.ofName? name = some known) :
    name.toList ≠ [] ∧ '=' ∉ name.toList := by
  have names : ∀ entry ∈ longNames, entry.1.toList ≠ [] ∧ '=' ∉ entry.1.toList := by decide +kernel
  obtain ⟨before, after, listed, _⟩ := List.lookup_eq_some_iff.mp named
  exact names (name, known) (by rw [listed]; exact List.mem_append_right _ List.mem_cons_self)

/-- A dash is no letter. -/
theorem Switch.ne_dash_of_ofLetter? {known : Switch} (lettered : Switch.ofLetter? c = some known) :
    c ≠ '-' := by
  rintro rfl
  cases lettered

namespace ArgumentForm

/-- A name without equals sign goes on to its end. -/
theorem bne_of_plain (plain : '=' ∉ name.toList) : ∀ c ∈ name.toList, (c != '=') = true := by
  intro c member
  exact bne_iff_ne.mpr fun same => plain (same ▸ member)

/-- A text without equals sign is a name alone. -/
theorem splitValue_name (plain : '=' ∉ name.toList) : splitValue name.toList = (name, none) := by
  have kept := bne_of_plain plain
  rw [splitValue, List.takeWhile_eq_self_iff.mpr kept, List.dropWhile_eq_nil_iff.mpr kept,
    String.ofList_toList]

/-- The first equals sign ends the name. -/
theorem splitValue_attached (plain : '=' ∉ name.toList) :
    splitValue (name.toList ++ '=' :: text.toList) = (name, some text) := by
  have kept := bne_of_plain plain
  rw [splitValue, List.takeWhile_append_of_pos kept, List.dropWhile_append_of_pos kept]
  simp

/-- What comes after two dashes is a name and perhaps a value. -/
theorem ofText_dashes (form : text.toList = '-' :: '-' :: rest) (filled : rest ≠ []) :
    ofText text = .long (splitValue rest).1 (splitValue rest).2 := by
  obtain ⟨first, others, rfl⟩ := List.exists_cons_of_ne_nil filled
  simp [ofText, form]

/-- A switch by its long name. -/
theorem ofText_long {known : Switch} (named : Switch.ofName? name = some known) :
    ofText ("--" ++ name) = .long name none := by
  obtain ⟨filled, plain⟩ := Switch.name_of_ofName? named
  have form : ("--" ++ name).toList = '-' :: '-' :: name.toList := by simp
  rw [ofText_dashes form filled, splitValue_name plain]

/-- A switch by its long name, with its value. -/
theorem ofText_longAttached {known : Switch} (named : Switch.ofName? name = some known) :
    ofText ("--" ++ name ++ "=" ++ text) = .long name (some text) := by
  obtain ⟨_, plain⟩ := Switch.name_of_ofName? named
  have form : ("--" ++ name ++ "=" ++ text).toList =
      '-' :: '-' :: (name.toList ++ '=' :: text.toList) := by simp
  rw [ofText_dashes form (by simp), splitValue_attached plain]

/-- Letters after one dash. -/
theorem ofText_cluster (first : c ≠ '-') : ofText (cluster (c :: rest)) = .letters (c :: rest) := by
  simp [ofText, cluster, first]

/-- Anything else. -/
theorem ofText_plain (plain : IsPlain text) : ofText text = .plain := by
  by_cases dash : text.toList.head? = some '-'
  · rw [plain dash]
    rfl
  · unfold ofText
    split <;> simp_all

/-- An attached value is found. -/
theorem attached?_of_attaches (attaches : Attaches text rest) : attached? rest = some text := by
  rcases attaches with rfl | ⟨rfl, filled, unsigned⟩
  · simp [attached?]
  · unfold attached?
    split <;> simp_all

end ArgumentForm

/-! ## Reading -/

/-- Whether the occurrences of the arguments so far are the given ones, once the pending value is
entered. No switch waits for its value, and further ones may follow. -/
structure Given (progress : Progress) (occurrences : List Occurrence) : Prop where
  switches : progress.onlyStrays = false
  idle : ∀ switch, progress.pending ≠ some ⟨switch, none⟩
  entered : ∀ settled, progress.settle = .ok settled → Recorded settled occurrences

/-- What has been recorded stays so when there is nothing to enter. -/
theorem Recorded.entered (recorded : Recorded progress occurrences) (settled : Progress)
    (settles : progress.settle = .ok settled) : Recorded settled occurrences := by
  rw [Progress.settle, recorded.settled] at settles
  cases settles
  exact recorded

/-- What has been recorded is given. -/
theorem Recorded.given (recorded : Recorded progress occurrences)
    (switches : progress.onlyStrays = false) : Given progress occurrences :=
  ⟨switches, by rw [recorded.settled]; exact nofun, recorded.entered⟩

namespace Progress

/-- Entering a value does not end the switches. -/
theorem onlyStrays_of_enter (entered : progress.enter switch text = .ok next) :
    next.onlyStrays = progress.onlyStrays := by
  obtain ⟨found, _, entered⟩ := bind_eq_ok.mp entered
  cases entered
  rfl

/-- Entering the pending value does not end the switches. -/
theorem onlyStrays_of_settle (settles : progress.settle = .ok settled) :
    settled.onlyStrays = progress.onlyStrays := by
  unfold settle at settles
  split at settles
  · cases settles
    rfl
  · cases settles
  · have kept := onlyStrays_of_enter settles
    exact kept

/-- The end of the switches does not matter to the pending value. -/
theorem settle_withOnlyStrays (only : Bool) : { progress with onlyStrays := only }.settle =
    progress.settle.map fun settled => { settled with onlyStrays := only } := by
  obtain ⟨findings, place, pending, onlyStrays⟩ := progress
  rcases pending with _ | ⟨switch, _ | value⟩
  · rfl
  · rfl
  · simp only [settle, enter]
    cases findings.accept (place + 2) switch value <;> rfl

/-- Reading goes on behind arguments that have been read. -/
theorem arguments_append (more : List String) : progress.arguments (tokens ++ more) = .ok next ↔
    ∃ middle, progress.arguments tokens = .ok middle ∧ middle.arguments more = .ok next := by
  induction tokens generalizing progress with
  | nil => simp [arguments]
  | cons first others ih =>
    rw [List.cons_append, arguments, arguments]
    constructor
    · intro read
      obtain ⟨between, own, further⟩ := bind_eq_ok.mp read
      obtain ⟨middle, others, more⟩ := ih.mp further
      exact ⟨middle, bind_eq_ok.mpr ⟨between, own, others⟩, more⟩
    · rintro ⟨middle, read, more⟩
      obtain ⟨between, own, others⟩ := bind_eq_ok.mp read
      exact bind_eq_ok.mpr ⟨between, own, ih.mpr ⟨middle, others, more⟩⟩

/-- Reading a single argument. -/
theorem arguments_singleton : progress.arguments [text] = progress.argument text := by
  rw [arguments]
  cases progress.argument text <;> rfl

/-- While switches are read, an argument is read by its form. -/
theorem argument_of_switches (switches : progress.onlyStrays = false) : progress.argument text =
    match ArgumentForm.ofText text with
    | .separator => .ok { progress with onlyStrays := true }
    | .long name attached => progress.long name attached
    | .letters cluster => progress.letters cluster
    | .plain => progress.plain text := by
  rw [argument, switches]
  rfl

/-- Letters after one dash are read one after the other. -/
theorem argument_cluster {known : Switch} {flags : List Char}
    (switches : progress.onlyStrays = false) (areFlags : ∀ flag ∈ flags, IsFlagLetter flag)
    (lettered : Switch.ofLetter? c = some known) :
    progress.argument (cluster (flags ++ c :: rest)) = progress.letters (flags ++ c :: rest) := by
  rw [argument_of_switches switches]
  cases flags with
  | nil =>
    rw [List.nil_append, ArgumentForm.ofText_cluster (Switch.ne_dash_of_ofLetter? lettered)]
  | cons first others =>
    obtain ⟨flag, isFlag⟩ := areFlags first List.mem_cons_self
    rw [List.cons_append, ArgumentForm.ofText_cluster (Switch.ne_dash_of_ofLetter? isFlag)]

/-- Where no switch waits for a value, an argument that is no switch belongs to none. -/
theorem plain_of_idle (idle : ∀ switch, progress.pending ≠ some ⟨switch, none⟩) :
    progress.plain text = progress.stray text := by
  unfold Progress.plain
  split
  · rename_i waits
    exact absurd waits (idle _)
  · rfl

/-- An argument of its own that is no switch becomes the value that is waited for. -/
theorem argument_of_awaited (switches : progress.onlyStrays = false)
    (awaited : progress.pending = some ⟨switch, none⟩) (plain : IsPlain text) :
    progress.argument text = .ok { progress with pending := some ⟨switch, some text⟩ } := by
  rw [argument_of_switches switches, ArgumentForm.ofText_plain plain]
  simp only [Progress.plain, awaited]

end Progress

namespace Given

/-- A flag is entered behind the pending value and gives none. -/
theorem flag {flag : Flag} (given : Given progress occurrences)
    (read : progress.flag flag = .ok next) : Given next occurrences := by
  obtain ⟨settled, settles, read⟩ := bind_eq_ok.mp read
  obtain ⟨found, raised, read⟩ := bind_eq_ok.mp read
  cases read
  have recorded := given.entered settled settles
  have switches := (Progress.onlyStrays_of_settle settles).trans given.switches
  have kept : Recorded { settled with findings := found, place := settled.place + 1 } occurrences :=
    recorded.of_same recorded.settled (fun _ lists => lists.raise raised) (Nat.le_add_right _ _)
  exact kept.given switches

/-- Letters of flags give no value, and the letters behind them are read next. -/
theorem letters {flags : List Char} (given : Given progress occurrences)
    (areFlags : ∀ flag ∈ flags, IsFlagLetter flag)
    (read : progress.letters (flags ++ rest) = .ok next) :
    ∃ middle, Given middle occurrences ∧ middle.letters rest = .ok next := by
  induction flags generalizing progress with
  | nil => exact ⟨progress, given, read⟩
  | cons c others ih =>
    obtain ⟨flag, isFlag⟩ := areFlags c List.mem_cons_self
    rw [List.cons_append, Progress.letters, isFlag] at read
    obtain ⟨middle, own, further⟩ := bind_eq_ok.mp read
    exact ih (given.flag own) (fun flag member => areFlags flag (List.mem_cons_of_mem _ member))
      further

/-- An argument without switch is entered behind the pending value and gives none. -/
theorem stray (entered : ∀ settled, progress.settle = .ok settled → Recorded settled occurrences)
    (read : progress.stray text = .ok next) :
    Recorded next occurrences ∧ next.onlyStrays = progress.onlyStrays := by
  obtain ⟨settled, settles, read⟩ := bind_eq_ok.mp read
  cases read
  have recorded := entered settled settles
  have switches := Progress.onlyStrays_of_settle settles
  exact ⟨recorded.of_same recorded.settled (fun _ lists => lists.addStray text)
    (Nat.le_add_right _ _), switches⟩

/-- A switch with its value attached. -/
theorem attached (given : Given progress occurrences)
    (read : progress.valueSwitch switch (some text) = .ok next) :
    Given next (occurrences ++ [⟨switch, text⟩]) := by
  obtain ⟨settled, settles, read⟩ := bind_eq_ok.mp read
  have switches := (Progress.onlyStrays_of_settle settles).trans given.switches
  have recorded := (given.entered settled settles).enter read
  exact recorded.given ((Progress.onlyStrays_of_enter read).trans switches)

/-- A switch with its value in an argument of its own. -/
theorem awaited {middle : Progress} (given : Given progress occurrences) (plain : IsPlain text)
    (read : progress.valueSwitch switch none = .ok middle)
    (further : middle.argument text = .ok next) :
    Given next (occurrences ++ [⟨switch, text⟩]) := by
  obtain ⟨settled, settles, read⟩ := bind_eq_ok.mp read
  cases read
  have recorded := given.entered settled settles
  have switches := (Progress.onlyStrays_of_settle settles).trans given.switches
  have filled : { settled with pending := some ⟨switch, none⟩ }.argument text =
      .ok { settled with pending := some ⟨switch, some text⟩ } :=
    Progress.argument_of_awaited switches rfl plain
  rw [filled] at further
  cases further
  refine ⟨switches, nofun, fun last lastSettles => recorded.enter ?_⟩
  have same : { settled with pending := none } = settled := by
    rw [← recorded.settled]
  exact same ▸ lastSettles

/-- The arguments of a value are read as the value of its switch. -/
theorem value (given : Given progress occurrences) (gives : GivesValue switch text tokens)
    (read : progress.arguments tokens = .ok next) :
    Given next (occurrences ++ [⟨switch, text⟩]) := by
  cases gives with
  | long named plain =>
    obtain ⟨middle, own, further⟩ := bind_eq_ok.mp read
    rw [Progress.argument_of_switches given.switches, ArgumentForm.ofText_long named] at own
    simp only [Progress.long, named] at own
    rw [Progress.arguments_singleton] at further
    exact given.awaited plain own further
  | letter areFlags lettered plain =>
    obtain ⟨middle, own, further⟩ := bind_eq_ok.mp read
    rw [Progress.argument_cluster given.switches areFlags lettered] at own
    obtain ⟨behind, kept, own⟩ := given.letters areFlags own
    simp only [Progress.letters, lettered, ArgumentForm.attached?] at own
    rw [Progress.arguments_singleton] at further
    exact kept.awaited plain own further
  | longAttached named =>
    rw [Progress.arguments_singleton, Progress.argument_of_switches given.switches,
      ArgumentForm.ofText_longAttached named] at read
    simp only [Progress.long, named] at read
    exact given.attached read
  | letterAttached areFlags lettered attaches =>
    rw [Progress.arguments_singleton,
      Progress.argument_cluster given.switches areFlags lettered] at read
    obtain ⟨behind, kept, own⟩ := given.letters areFlags read
    simp only [Progress.letters, lettered, ArgumentForm.attached?_of_attaches attaches] at own
    exact kept.attached own

/-- Other arguments give no value. -/
theorem aside (given : Given progress occurrences) (gives : Aside text)
    (read : progress.argument text = .ok next) : Given next occurrences := by
  rw [Progress.argument_of_switches given.switches] at read
  cases gives with
  | flag named =>
    rw [ArgumentForm.ofText_long named] at read
    simp only [Progress.long, named, Option.isSome_none, Bool.false_eq_true, if_false] at read
    exact given.flag read
  | flags filled areFlags =>
    obtain ⟨c, others, rfl⟩ := List.exists_cons_of_ne_nil filled
    obtain ⟨flag, isFlag⟩ := areFlags c List.mem_cons_self
    rw [ArgumentForm.ofText_cluster (Switch.ne_dash_of_ofLetter? isFlag)] at read
    rw [← List.append_nil (c :: others)] at read
    obtain ⟨middle, kept, done⟩ := given.letters areFlags read
    cases done
    exact kept
  | stray plain =>
    rw [ArgumentForm.ofText_plain plain] at read
    simp only [Progress.plain_of_idle given.idle] at read
    obtain ⟨recorded, switches⟩ := stray given.entered read
    exact recorded.given (switches.trans given.switches)

end Given

/-- The end of the switches gives no value. -/
theorem Given.closed (given : Given progress occurrences) (settled : Progress)
    (settles : { progress with onlyStrays := true }.settle = .ok settled) :
    Recorded settled occurrences := by
  rw [Progress.settle_withOnlyStrays] at settles
  rcases result : progress.settle with _ | before
  · rw [result] at settles
    cases settles
  · rw [result] at settles
    cases settles
    have recorded := given.entered before result
    exact recorded.of_same recorded.settled (fun _ lists => lists) (Nat.le_refl _)

/-- Behind the end of the switches nothing gives a value. -/
theorem Progress.strays {texts : List String} (only : progress.onlyStrays = true)
    (entered : ∀ settled, progress.settle = .ok settled → Recorded settled occurrences)
    (read : progress.arguments texts = .ok next) (settles : next.settle = .ok settled) :
    Recorded settled occurrences := by
  induction texts generalizing progress with
  | nil =>
    cases read
    exact entered settled settles
  | cons first others ih =>
    obtain ⟨middle, own, further⟩ := bind_eq_ok.mp read
    rw [Progress.argument, only, if_pos rfl] at own
    obtain ⟨recorded, kept⟩ := Given.stray entered own
    exact ih (kept.trans only) recorded.entered further

/-- The occurrences of a command line are recorded behind those before them. -/
theorem Line.recorded {before : List Occurrence} (line : Line occurrences arguments)
    (given : Given progress before) (read : progress.arguments arguments = .ok next)
    (settles : next.settle = .ok settled) : Recorded settled (before ++ occurrences) := by
  induction line generalizing progress before with
  | nil =>
    cases read
    rw [List.append_nil]
    exact given.entered settled settles
  | strays texts =>
    obtain ⟨middle, own, further⟩ := bind_eq_ok.mp read
    rw [Progress.argument_of_switches given.switches] at own
    cases own
    rw [List.append_nil]
    exact Progress.strays rfl given.closed further settles
  | value gives _ ih =>
    obtain ⟨middle, own, further⟩ := (Progress.arguments_append _).mp read
    rw [List.append_cons]
    exact ih (given.value gives own) further
  | aside gives _ ih =>
    obtain ⟨middle, own, further⟩ := bind_eq_ok.mp read
    exact ih (given.aside gives own) further

/-- The reader lists the occurrences of every command line that it takes. -/
theorem lawful_reader : reader.Lawful := by
  intro occurrences arguments findings line parsed
  obtain ⟨last, read, parsed⟩ := bind_eq_ok.mp parsed
  obtain ⟨settled, settles, parsed⟩ := bind_eq_ok.mp parsed
  cases parsed
  have recorded := line.recorded (recorded_start.given rfl) read settles
  obtain ⟨placed, listed, lists, _⟩ := recorded.listed
  exact ⟨placed, by simpa using listed, lists⟩

end Keyhold.CommandLine
