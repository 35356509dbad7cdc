import Keyhold.Proofs.Panel.Run

/-!
# The panel as a product of trackers

A panel of distinct keys does to each of them what a tracker by itself would do that gets the
records of its code and a look at its deadline at every retirement. `panel_is_product` says so in
both directions: a run of the panel stops only where one of the lone trackers stops, and leaves
every key as its lone tracker. What the panel fires in a retirement is what the lone trackers fire
then, in configuration order.

Records of different keys may change places. The order of the two matters for nothing that comes
after them, whether it is a state, a firing or a wait, since all of these are read off the panel.
-/

namespace Keyhold.Panel

variable {panel next last : Panel} {event first second : Event} {code : UInt16}
  {tracker : Tracker} {moments : List Moment} {inputs : List Input} {bindings : Bindings}
  {binding : Binding} {window : Span}

/-- The run of the tracker of a binding by itself, through what the inputs of a panel are to its
key. -/
def alone? (binding : Binding) (window : Span) (inputs : List Input) :
    Option (List Tracker.Moment × Tracker) :=
  (Tracker.start binding window).run? (inputs.filterMap (Input.forKey? binding.code))

/-! ## One record -/

/-- A replacement has no result exactly when the tracker that it is for has none. -/
theorem updateFirst_eq_none_iff {keys : List Tracker} {update : Tracker → Option Tracker} :
    updateFirst code update keys = none ↔
      ∃ tracker, keys.find? (·.code == code) = some tracker ∧ update tracker = none := by
  induction keys with
  | nil => simp [updateFirst]
  | cons first rest ih =>
    by_cases here : first.code = code
    · simp [updateFirst, here]
    · simp [updateFirst, here, ih]

/-- A record has no result exactly when the tracker of its key has none for it. -/
theorem feed?_eq_none_iff :
    panel.feed? event = none ↔ event.isKey = true ∧ ∃ tracker,
      panel.key? event.code = some tracker ∧
      tracker.handle event.stamp event.isPress = none := by
  rw [feed?_eq]
  split
  · rename_i isKey
    simp [updateFirst_eq_none_iff, key?, isKey]
  · rename_i other
    simp [other]

/-- A record that is no key record, or of a key that is not bound, changes nothing. -/
theorem feed?_of_foreign (foreign : event.isKey = false ∨ panel.key? event.code = none) :
    panel.feed? event = some panel := by
  rw [feed?_eq]
  rcases foreign with other | absent
  · rw [if_neg (by simpa using other)]
  · rw [key?] at absent
    rw [updateFirst_of_absent absent, Option.map_some, ite_self]

/-! ## Two records of different keys -/

section Swap

variable {one two : UInt16} {change other : Tracker → Option Tracker} {head : Tracker}
  {rest : List Tracker}

/-- A replacement is done at the first tracker if that has the code. -/
theorem updateFirst_of_eq (here : head.code = one) :
    updateFirst one change (head :: rest) = (change head).map (· :: rest) := by
  rw [updateFirst, if_pos here]

/-- A replacement passes over a tracker of another code. -/
theorem updateFirst_of_ne (away : ¬ head.code = one) :
    updateFirst one change (head :: rest) = (updateFirst one change rest).map (head :: ·) := by
  rw [updateFirst, if_neg away]

/-- Replacements under different codes may change places if the first tracker has one of these. -/
theorem updateFirst_comm_of_eq (here : head.code = one) (different : one ≠ two)
    (keeps : ∀ {tracker next}, change tracker = some next → next.code = tracker.code) :
    (updateFirst one change (head :: rest)).bind (updateFirst two other) =
      (updateFirst two other (head :: rest)).bind (updateFirst one change) := by
  have away : ¬ head.code = two := here ▸ different
  rw [updateFirst_of_eq here, updateFirst_of_ne away, Option.bind_map, Option.bind_map]
  simp only [Function.comp_def, updateFirst_of_eq here]
  cases changed : change head with
  | none => simp
  | some after =>
    have stays : ¬ after.code = two := keeps changed ▸ away
    simp only [Option.bind_some, updateFirst_of_ne stays, Option.map_eq_bind, Function.comp_def]

/-- Replacements under different codes may change places. -/
theorem updateFirst_comm (change other : Tracker → Option Tracker) (different : one ≠ two)
    (keeps : ∀ {tracker next}, change tracker = some next → next.code = tracker.code)
    (keepsOther : ∀ {tracker next}, other tracker = some next → next.code = tracker.code)
    (keys : List Tracker) :
    (updateFirst one change keys).bind (updateFirst two other) =
      (updateFirst two other keys).bind (updateFirst one change) := by
  induction keys with
  | nil => rfl
  | cons head rest ih =>
    by_cases here : head.code = one
    · exact updateFirst_comm_of_eq here different keeps
    · by_cases there : head.code = two
      · exact (updateFirst_comm_of_eq there (Ne.symm different) keepsOther).symm
      · have below := congrArg (Option.map (head :: ·)) ih
        simpa only [Option.map_bind, Option.bind_map, Function.comp_def, updateFirst_of_ne here,
          updateFirst_of_ne there] using below

end Swap

/-- Records of different keys may change places. -/
theorem feed?_comm (different : first.code ≠ second.code) (panel : Panel) :
    (panel.feed? first).bind (·.feed? second) = (panel.feed? second).bind (·.feed? first) := by
  by_cases isFirst : first.isKey = true
  · by_cases isSecond : second.isKey = true
    · have swap := updateFirst_comm (·.handle first.stamp first.isPress)
        (·.handle second.stamp second.isPress) different Tracker.code_of_handle
        Tracker.code_of_handle panel.keys
      have swapped := congrArg (Option.map Panel.mk) swap
      simpa only [feed?_eq, isFirst, isSecond, if_true, Option.map_bind, Option.bind_map,
        Function.comp_def] using swapped
    · simp [feed?_eq, isSecond]
  · simp [feed?_eq, isFirst]

/-! ## All keys of a run -/

/-- A key of a distinct panel is found under its own code. -/
theorem key?_of_mem (distinct : panel.Distinct) (member : tracker ∈ panel.keys) :
    panel.key? tracker.code = some tracker := by
  have own : tracker ∈ panel.keys.filter (·.code == tracker.code) :=
    List.mem_filter.mpr ⟨member, by simp⟩
  rw [filter_code distinct] at own
  exact Option.mem_toList.mp own

/-- The keys of a distinct panel are what is found under their codes. -/
theorem keys_eq_key? (distinct : panel.Distinct) :
    panel.keys.map some = (panel.keys.map Tracker.code).map panel.key? := by
  rw [List.map_map]
  exact List.map_congr_left fun tracker member => (key?_of_mem distinct member).symm

/-- A new panel of distinct bindings finds each of them under its code. -/
theorem key?_start_of_mem (distinct : bindings.Distinct) (bound : binding ∈ bindings) :
    (start bindings window).key? binding.code = some (.start binding window) :=
  key?_of_mem (distinct_start distinct window) (List.mem_map_of_mem bound)

/-- A course of a panel leaves every key as the run of its tracker alone does. -/
theorem alone?_of_course (course : Course Change (start bindings window) moments last)
    (distinct : bindings.Distinct) (bound : binding ∈ bindings) :
    ∃ own tracker, alone? binding window (moments.map Moment.input) = some (own, tracker) ∧
      last.key? binding.code = some tracker := by
  obtain ⟨tracker, key, ran, _⟩ :=
    run_of_key course (distinct_start distinct window) (key?_start_of_mem distinct bound)
  exact ⟨_, tracker, ran, key⟩

/-- The keys of a panel after a course, in configuration order, are the lone trackers. -/
theorem keys_of_course (course : Course Change (start bindings window) moments last)
    (distinct : bindings.Distinct) :
    last.keys.map some =
      bindings.map fun binding => (alone? binding window (moments.map Moment.input)).map (·.2) := by
  have distinctLast : last.Distinct :=
    course.keeps Change.distinct (distinct_start distinct window)
  rw [keys_eq_key? distinctLast, codes_of_course course, start, List.map_map, List.map_map]
  refine List.map_congr_left fun binding bound => ?_
  obtain ⟨own, tracker, ran, key⟩ := alone?_of_course course distinct bound
  rw [ran, Option.map_some]
  exact key

/-- A key that is found at any time of a run is the key of a binding. -/
theorem binding_of_key (course : Course Change (start bindings window) moments last)
    (key : last.key? code = some tracker) : ∃ binding ∈ bindings, binding.code = code := by
  have known := isSome_key?.mp (bound_of_course course (by rw [key]; rfl))
  rw [start, List.map_map] at known
  exact List.mem_map.mp known

/-- A record that is no key record, or of a key without binding, changes nothing in a run. -/
theorem unmoved_of_foreign (course : Course Change (start bindings window) moments last)
    {moment : Moment} (member : moment ∈ moments) (isFeed : moment.input = .feed event)
    (foreign : event.isKey = false ∨ ∀ binding ∈ bindings, binding.code ≠ event.code) :
    moment.after = moment.before := by
  obtain ⟨earlier, later, rfl⟩ := List.append_of_mem member
  obtain ⟨reached, before, same, change, _⟩ := course_append.mp course
  have unbound : event.isKey = false ∨ reached.key? event.code = none := by
    refine foreign.imp_right fun unnamed => ?_
    cases key : reached.key? event.code with
    | none => rfl
    | some tracker =>
      obtain ⟨binding, bound, isCode⟩ := binding_of_key before key
      exact absurd isCode (unnamed binding bound)
  rw [isFeed, Change, step, feed?_of_foreign unbound] at change
  rw [same]
  exact (Prod.mk.inj (Option.some.inj change)).1.symm

/-- A run of a panel has no result exactly when that of one of the lone trackers has none: the panel
stops at a record of some key, whose lone tracker is then the same and stops too. -/
theorem run?_eq_none_iff_alone (distinct : bindings.Distinct) :
    (start bindings window).run? inputs = none ↔
      ∃ binding ∈ bindings, alone? binding window inputs = none := by
  constructor
  · intro stopped
    obtain ⟨earlier, input, later, moments, middle, rfl, ran, stuck⟩ :=
      run?_eq_none_iff.mp stopped
    obtain ⟨course, rfl⟩ := course_of_run? ran
    cases input with
    | retire now => contradiction
    | feed event =>
      rw [step, Option.map_eq_none_iff] at stuck
      obtain ⟨isKey, tracker, key, unhandled⟩ := feed?_eq_none_iff.mp stuck
      obtain ⟨binding, bound, isCode⟩ := binding_of_key course key
      obtain ⟨own, other, aloneRan, otherKey⟩ := alone?_of_course course distinct bound
      rw [isCode, key] at otherKey
      cases otherKey
      refine ⟨binding, bound, ?_⟩
      have concerns : (Input.feed event).forKey? binding.code =
          some (.record event.stamp event.isPress) := by
        simp [Input.forKey?, recordFor?, isKey, isCode]
      rw [alone?, List.filterMap_append, List.filterMap_cons_some concerns]
      exact run?_eq_none_iff.mpr ⟨_, _, _, own, tracker, rfl, aloneRan,
        Option.map_eq_none_iff.mpr unhandled⟩
  · rintro ⟨binding, bound, stopped⟩
    cases ran : (start bindings window).run? inputs with
    | none => rfl
    | some result =>
      obtain ⟨course, same⟩ := course_of_run? ran
      obtain ⟨own, tracker, aloneRan, _⟩ := alone?_of_course course distinct bound
      rw [same, stopped] at aloneRan
      contradiction

/-! ## Retirements -/

/-- A retirement fires for keys in configuration order, and once at most for each. -/
theorem codes_retire (panel : Panel) (now : Instant) :
    ((panel.retire now).2.map Firing.code).Sublist (panel.keys.map Tracker.code) := by
  simp only [retire]
  induction panel.keys with
  | nil => exact .slnil
  | cons tracker rest ih =>
    rw [List.filterMap_cons]
    cases fires : (tracker.expire now).2 with
    | none => exact ih.cons _
    | some firing =>
      rw [List.map_cons, List.map_cons, Tracker.code_of_expire fires]
      exact ih.cons_cons _

/-- A retirement fires what the lone trackers fire then, in configuration order. -/
theorem firings_of_course (course : Course Change (start bindings window) moments panel)
    (distinct : bindings.Distinct) (now : Instant) :
    (panel.retire now).2 = bindings.filterMap fun binding =>
      (alone? binding window (moments.map Moment.input)).bind fun run => (run.2.expire now).2 := by
  have fires : (panel.retire now).2 = (panel.keys.map some).filterMap fun key =>
      key.bind fun tracker => (tracker.expire now).2 := by
    rw [List.filterMap_map]
    rfl
  rw [fires, keys_of_course course distinct, List.filterMap_map]
  congr 1
  funext binding
  rw [Function.comp_apply, Option.bind_map]
  rfl

/-! ## Records that change places -/

/-- In a course two adjacent records of different keys may change places: all that follows them
stays the same. -/
theorem swap_of_course {earlier later : List Moment} {one two : Moment}
    (course : Course Change panel (earlier ++ one :: two :: later) last)
    (isFirst : one.input = .feed first) (isSecond : two.input = .feed second)
    (different : first.code ≠ second.code) :
    ∃ middle, Course Change panel (earlier ++ ⟨one.before, .feed second, middle, []⟩ ::
      ⟨middle, .feed first, two.after, []⟩ :: later) last := by
  obtain ⟨reached, before, same, changeOne, sameTwo, changeTwo, after⟩ := course_append.mp course
  rw [isFirst] at changeOne
  rw [isSecond] at changeTwo
  obtain ⟨_, fedFirst, sameOne⟩ := Option.map_eq_some_iff.mp changeOne
  obtain ⟨_, fedSecond, sameOther⟩ := Option.map_eq_some_iff.mp changeTwo
  have both : (reached.feed? first).bind (·.feed? second) = some two.after := by
    rw [fedFirst, (Prod.mk.inj sameOne).1, Option.bind_some, fedSecond, (Prod.mk.inj sameOther).1]
  rw [feed?_comm different] at both
  obtain ⟨middle, soonSecond, lateFirst⟩ := Option.bind_eq_some_iff.mp both
  refine ⟨middle, course_append.mpr ⟨reached, before, same, ?_, rfl, ?_, after⟩⟩
  · rw [Change, step, soonSecond, Option.map_some]
  · rw [Change, step, lateFirst, Option.map_some]

/-! ## The product -/

/-- A run of a panel is the runs of its trackers by themselves. It stops where one of them stops,
and otherwise every key ends as its lone tracker, a foreign record changes nothing, and a retirement
fires what the lone trackers fire then, in configuration order and once at most for each key. Two
adjacent records of different keys may change places: from then on the run is the same, state by
state and firing by firing. The bindings of a configured application are always distinct. -/
theorem panel_is_product (distinct : bindings.Distinct) (window : Span) (inputs : List Input) :
    ((start bindings window).run? inputs = none ↔
      ∃ binding ∈ bindings, alone? binding window inputs = none) ∧
    ∀ moments last, (start bindings window).run? inputs = some (moments, last) →
      last.keys.map some = bindings.map (fun binding => (alone? binding window inputs).map (·.2)) ∧
      (∀ binding ∈ bindings,
        last.key? binding.code = (alone? binding window inputs).map (·.2)) ∧
      (∀ moment ∈ moments, ∀ event, moment.input = .feed event →
        (event.isKey = false ∨ ∀ binding ∈ bindings, binding.code ≠ event.code) →
        moment.after = moment.before) ∧
      (∀ earlier moment later now, moments = earlier ++ moment :: later →
        moment.input = .retire now →
        moment.output = bindings.filterMap (fun binding =>
          (alone? binding window (earlier.map (·.input))).bind fun run =>
            (run.2.expire now).2) ∧
        (moment.output.map Firing.code).Nodup) ∧
      ∀ earlier one two later first second, moments = earlier ++ one :: two :: later →
        one.input = .feed first → two.input = .feed second → first.code ≠ second.code →
        ∃ middle, (start bindings window).run? (earlier.map (·.input) ++
            .feed second :: .feed first :: later.map (·.input)) =
          some (earlier ++ ⟨one.before, .feed second, middle, []⟩ ::
            ⟨middle, .feed first, two.after, []⟩ :: later, last) := by
  refine ⟨run?_eq_none_iff_alone distinct, fun moments last ran => ?_⟩
  obtain ⟨course, rfl⟩ := course_of_run? ran
  refine ⟨keys_of_course course distinct, fun binding bound => ?_, fun moment member event isFeed =>
    unmoved_of_foreign course member isFeed, ?_, ?_⟩
  · obtain ⟨own, tracker, aloneRan, key⟩ := alone?_of_course course distinct bound
    rw [aloneRan, key, Option.map_some]
  · rintro earlier moment later now rfl isRetire
    obtain ⟨reached, before, same, change, _⟩ := course_append.mp course
    rw [isRetire] at change
    have retired : moment.output = (reached.retire now).2 :=
      (congrArg Prod.snd (Option.some.inj change)).symm
    have distinctReached : reached.Distinct :=
      before.keeps Change.distinct (distinct_start distinct window)
    rw [retired]
    exact ⟨firings_of_course before distinct now, (codes_retire reached now).nodup distinctReached⟩
  · rintro earlier one two later first second rfl isFirst isSecond different
    obtain ⟨middle, swapped⟩ := swap_of_course course isFirst isSecond different
    refine ⟨middle, ?_⟩
    have ran := run?_of_course swapped
    rwa [List.map_append, List.map_cons, List.map_cons] at ran

/-- Both keys are pressed and come up, with a foreign record between them; then all is retired. -/
def twoPresses : List Input :=
  [.feed ⟨⟨0⟩, 1, 116, 1⟩, .feed ⟨⟨10000000⟩, 1, 30, 1⟩, .feed ⟨⟨20000000⟩, 4, 116, 1⟩,
    .feed ⟨⟨100000000⟩, 1, 30, 0⟩, .feed ⟨⟨105000000⟩, 1, 116, 0⟩, .retire ⟨200000000⟩]

/-- The run of the two presses. -/
def twoRun : List Moment × Panel :=
  ((start .twoKeys (.ofMillis 10)).run? twoPresses).get (by decide)

/-- The two presses have a run. -/
theorem ran_two : (start .twoKeys (.ofMillis 10)).run? twoPresses = some (twoRun.1, twoRun.2) :=
  Option.eq_some_of_isSome (by decide)

/-- The run of the two presses, taken apart at the two releases. -/
theorem two_parts : twoRun.1 = twoRun.1.take 3 ++ twoRun.1.get ⟨3, by decide⟩ ::
    twoRun.1.get ⟨4, by decide⟩ :: twoRun.1.drop 5 :=
  rfl

/-- The statement on the product at the two presses: the foreign record changes nothing, both keys
fire in the retirement, and the releases of the two keys may change places. -/
theorem product_of_twoPresses :
    (twoRun.1.get ⟨2, by decide⟩).after = (twoRun.1.get ⟨2, by decide⟩).before ∧
    twoRun.2.key? 116 = (alone? .shortAndLong (.ofMillis 10) twoPresses).map (·.2) ∧
    ((twoRun.1.get ⟨5, by decide⟩).output.map Firing.code).Nodup ∧
    (twoRun.1.get ⟨5, by decide⟩).output.map Firing.command = ["A", "C"] ∧
    ∃ middle, (start .twoKeys (.ofMillis 10)).run? ((twoRun.1.take 3).map (·.input) ++
        .feed ⟨⟨105000000⟩, 1, 116, 0⟩ :: .feed ⟨⟨100000000⟩, 1, 30, 0⟩ ::
          (twoRun.1.drop 5).map (·.input)) =
      some (twoRun.1.take 3 ++
        ⟨(twoRun.1.get ⟨3, by decide⟩).before, .feed ⟨⟨105000000⟩, 1, 116, 0⟩, middle, []⟩ ::
        ⟨middle, .feed ⟨⟨100000000⟩, 1, 30, 0⟩, (twoRun.1.get ⟨4, by decide⟩).after, []⟩ ::
        twoRun.1.drop 5, twoRun.2) := by
  obtain ⟨_, keys, foreign, retired, swapped⟩ :=
    (panel_is_product (show Bindings.twoKeys.Distinct by decide) (.ofMillis 10) twoPresses).2
      twoRun.1 twoRun.2 ran_two
  refine ⟨foreign _ (List.get_mem _ _) _ rfl (.inl (by decide)),
    keys .shortAndLong (by decide), ?_, by decide, ?_⟩
  · exact (retired (twoRun.1.take 5) _ [] ⟨200000000⟩ rfl rfl).2
  · exact swapped _ _ _ _ _ _ two_parts rfl rfl (by decide)

end Keyhold.Panel
