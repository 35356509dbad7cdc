import Keyhold.Proofs.Key.Numeral
import Mathlib.Data.List.DropRight

/-!
# The grammar of key texts

What a text means as a key. Blanks around it do not count. A text that begins with a digit or a
sign means a number, and it is out of range unless it is a numeral of a code; any other text means
the first name of the list that it spells, in upper or lower case and with or without the prefix
`KEY_`. `key_of_text_unless_signed` says that every text is taken as the grammar means it, save for
hexadecimal numerals with a plus sign after the prefix: these are no numerals, but they are taken
for the code that their digits write.
-/

namespace Keyhold

namespace Text

/-- Whether a text is another one without the blanks around it. -/
structure IsCore (text core : List Char) : Prop where
  inside : ∃ before after, text = before ++ core ++ after ∧
    (∀ c ∈ before, isBlank c = true) ∧ ∀ c ∈ after, isBlank c = true
  first : ∀ c ∈ core.head?, isBlank c = false
  last : ∀ c ∈ core.getLast?, isBlank c = false

variable {text core : List Char}

/-- A text without its blanks is what remains when they are taken off at both ends. -/
theorem trim_eq_rdropWhile (text : List Char) :
    trim text = (text.dropWhile isBlank).rdropWhile isBlank := rfl

/-- Taking the blanks off a text leaves its core, which begins with the first character behind the
blanks in front. -/
theorem isCore_trim (text : List Char) : IsCore text (trim text) := by
  have front := List.takeWhile_append_dropWhile (p := isBlank) (l := text)
  have back := List.rdropWhile_append_rtakeWhile (p := isBlank) (l := text.dropWhile isBlank)
  rw [trim_eq_rdropWhile]
  constructor
  · refine ⟨text.takeWhile isBlank, (text.dropWhile isBlank).rtakeWhile isBlank, ?_, ?_, ?_⟩
    · rw [List.append_assoc, back, front]
    · intro c inside
      exact List.mem_takeWhile_imp inside
    · intro c inside
      exact List.mem_rtakeWhile_imp inside
  · intro c isFirst
    have kept : c ∈ (text.dropWhile isBlank).head? := by
      obtain ⟨rest, same⟩ := List.rdropWhile_prefix isBlank (text.dropWhile isBlank)
      rw [← same, List.head?_append, Option.mem_def.mp isFirst]
      rfl
    have stop := List.head?_dropWhile_not isBlank text
    rw [Option.mem_def.mp kept] at stop
    simpa using stop
  · intro c isLast
    have stop := List.rdropWhile_last_not isBlank (text.dropWhile isBlank)
    obtain ⟨remains, same⟩ := List.mem_getLast?_eq_getLast isLast
    rw [same]
    simpa using stop remains

/-- Blanks at the end of a text do not count when they are taken off there. -/
theorem rdropWhile_append_blanks {after : List Char} (blanks : ∀ c ∈ after, isBlank c = true) :
    (core ++ after).rdropWhile isBlank = core.rdropWhile isBlank := by
  rw [List.rdropWhile, List.reverse_append, List.dropWhile_append_of_pos]
  · rfl
  · intro c inside
    exact blanks c (List.mem_reverse.mp inside)

/-- A text has one core only. -/
theorem IsCore.eq_trim (isCore : IsCore text core) : core = trim text := by
  obtain ⟨before, after, rfl, blanksBefore, blanksAfter⟩ := isCore.inside
  rw [trim_eq_rdropWhile, List.append_assoc, List.dropWhile_append_of_pos blanksBefore]
  cases core with
  | nil =>
    have nothing : after.dropWhile isBlank = [] := List.dropWhile_eq_nil_iff.mpr blanksAfter
    rw [List.nil_append, nothing]
    rfl
  | cons first rest =>
    have visible : ¬ isBlank first = true := by
      simpa using isCore.first first rfl
    rw [List.cons_append, List.dropWhile_cons_of_neg visible, ← List.cons_append,
      rdropWhile_append_blanks blanksAfter]
    symm
    rw [List.rdropWhile_eq_self_iff]
    intro nonempty
    simpa using isCore.last _ (List.getLast?_eq_some_getLast nonempty)

/-- The core of a text is what remains without the blanks around it. -/
theorem isCore_iff : IsCore text core ↔ core = trim text := by
  constructor
  · exact IsCore.eq_trim
  · rintro rfl
    exact isCore_trim text

/-- The digits of the base ten are the decimal digits. -/
theorem IsDigit.isDigit {c : Char} {value : Nat} (digit : IsDigit 10 c value) :
    c.isDigit = true := by
  have digits : ∀ value < 10, value.digitChar.isDigit = true ∧
      value.digitChar.toUpper.isDigit = true := by decide
  obtain ⟨small, rfl | rfl⟩ := digit
  · exact (digits value small).1
  · exact (digits value small).2

end Text

namespace Key

open Text

/-! ## What texts mean -/

/-- Whether a text begins with a digit or a sign. -/
def BeginsNumber (text : List Char) : Prop :=
  ∃ c ∈ text.head?, c.isDigit = true ∨ c = '+' ∨ c = '-'

/-- Whether a text spells a name: in upper case, it is the name after one prefix `KEY_`, or it has
no such prefix and is the name. -/
def Spells (text : List Char) (name : String) : Prop :=
  text.map Char.toUpper = "KEY_".toList ++ name.toList ∨
    ¬ "KEY_".toList <+: text.map Char.toUpper ∧ text.map Char.toUpper = name.toList

/-- Whether a code is that of the first name of the list that a text spells. -/
def FirstNamed (text : List Char) (code : UInt16) : Prop :=
  ∃ earlier name later, names = earlier ++ (name, code) :: later ∧ Spells text name ∧
    ∀ entry ∈ earlier, ¬ Spells text entry.1

/-- What a text without blanks around it means as a key. -/
inductive Meant (text : List Char) : Except KeyTextError Key → Prop
  | number {code : UInt16} : Numeral text code.toNat → Meant text (.ok (ofCode code))
  | outOfRange : BeginsNumber text → (∀ value < 65536, ¬ Numeral text value) →
      Meant text (.error (.outOfRange (String.ofList text)))
  | named {code : UInt16} : ¬ BeginsNumber text → FirstNamed text code →
      Meant text (.ok ⟨code, some (String.ofList text)⟩)
  | unknownName : ¬ BeginsNumber text → (∀ entry ∈ names, ¬ Spells text entry.1) →
      Meant text (.error (.unknownName (String.ofList text)))

variable {text upper bare : List Char} {name : String} {code : UInt16}
  {outcome : Except KeyTextError Key}

/-- The texts that are taken as numbers are those that begin with a digit or a sign. -/
theorem looksNumeric_iff : looksNumeric text = true ↔ BeginsNumber text := by
  cases text with
  | nil => simp [looksNumeric, BeginsNumber]
  | cons first rest =>
    have digit : ('0' ≤ first ∧ first ≤ '9') ↔ first.isDigit = true := Char.isDigit_iff_toNat.symm
    simp only [looksNumeric, BeginsNumber, Bool.or_eq_true, Bool.and_eq_true, decide_eq_true_eq,
      beq_iff_eq, List.head?_cons, Option.mem_some_iff, exists_eq_left', digit, or_assoc,
      or_comm (a := first = '-')]

/-! ## Names -/

/-- A text without the prefix is what stands after it, or the text itself where it has none. -/
theorem withoutKeyPrefix_eq_iff : withoutKeyPrefix upper = bare ↔
    upper = "KEY_".toList ++ bare ∨ ¬ "KEY_".toList <+: upper ∧ upper = bare := by
  unfold withoutKeyPrefix
  split
  · rename_i rest
    have prefixed : "KEY_".toList <+: 'K' :: 'E' :: 'Y' :: '_' :: rest := ⟨rest, rfl⟩
    constructor
    · rintro rfl
      exact .inl rfl
    · rintro (same | ⟨unprefixed, _⟩)
      · have twice : "KEY_".toList ++ rest = "KEY_".toList ++ bare := same
        exact List.append_cancel_left twice
      · exact absurd prefixed unprefixed
  · rename_i bareText
    constructor
    · rintro rfl
      refine .inr ⟨?_, rfl⟩
      rintro ⟨rest, same⟩
      exact bareText rest same.symm
    · rintro (same | ⟨_, same⟩)
      · exact absurd same (bareText bare)
      · exact same

/-- The spelling under which a text is searched is that of the names that it spells. -/
theorem searchName_eq_iff : searchName text = name.toList ↔ Spells text name :=
  withoutKeyPrefix_eq_iff

/-- An entry of the list is passed over in a search unless the text spells its name. -/
theorem entry_found_iff {entry : String × UInt16} :
    (entry.1.toList == searchName text) = true ↔ Spells text entry.1 := by
  rw [beq_iff_eq, eq_comm, searchName_eq_iff]

/-- A text is found in the list as the first name that it spells. -/
theorem codeNamed?_eq_some_iff :
    codeNamed? (searchName text) = some code ↔ FirstNamed text code := by
  rw [codeNamed?, Option.map_eq_some_iff]
  constructor
  · rintro ⟨⟨name, _⟩, found, rfl⟩
    obtain ⟨own, earlier, later, split, passed⟩ := List.find?_eq_some_iff_append.mp found
    refine ⟨earlier, name, later, split, entry_found_iff.mp own, ?_⟩
    intro entry isEarlier spells
    have missed := passed entry isEarlier
    rw [entry_found_iff.mpr spells] at missed
    contradiction
  · rintro ⟨earlier, name, later, split, spells, passed⟩
    refine ⟨(name, code), List.find?_eq_some_iff_append.mpr ⟨?_, earlier, later, split, ?_⟩, rfl⟩
    · exact entry_found_iff.mpr spells
    · intro entry isEarlier
      rw [Bool.not_eq_true', ← Bool.not_eq_true, entry_found_iff]
      exact passed entry isEarlier

/-- A text is not found in the list when it spells none of its names. -/
theorem codeNamed?_eq_none_iff :
    codeNamed? (searchName text) = none ↔ ∀ entry ∈ names, ¬ Spells text entry.1 := by
  rw [codeNamed?, Option.map_eq_none_iff, List.find?_eq_none]
  exact forall₂_congr fun _ _ => not_congr entry_found_iff

/-! ## Numerals -/

/-- Numerals begin with a digit or a sign. -/
theorem beginsNumber_of_numeral {value : Nat} (numeral : Numeral text value) :
    BeginsNumber text := by
  cases numeral with
  | decimal written =>
    obtain ⟨nonempty, digits, spelled, _⟩ := written
    cases spelled with
    | nil => contradiction
    | cons own _ => exact ⟨_, rfl, .inl own.isDigit⟩
  | positive => exact ⟨_, rfl, .inr (.inl rfl)⟩
  | hexadecimal => exact ⟨_, rfl, .inl rfl⟩

/-- So does a hexadecimal numeral with a sign after its prefix. -/
theorem beginsNumber_of_signed {value : Nat} (signed : SignedHexadecimal text value) :
    BeginsNumber text := by
  obtain ⟨_, _, _, rfl, _⟩ := signed
  exact ⟨_, rfl, .inl rfl⟩

/-- A hexadecimal numeral with a sign after its prefix is no numeral: the sign is no digit, and
neither is the prefix. -/
theorem not_numeral_of_signed {value other : Nat} (signed : SignedHexadecimal text value) :
    ¬ Numeral text other := by
  obtain ⟨x, digits, isX, rfl, _⟩ := signed
  intro numeral
  cases numeral with
  | decimal written =>
    obtain ⟨_, _, spelled, _⟩ := written
    cases spelled with
    | cons _ others =>
      cases others with
      | cons own _ => exact not_isDigit_x isX own
  | hexadecimal _ written => exact not_writes_plus (Nat.le_refl 16) written

/-! ## Meaning -/

/-- A text that means a key or an error is taken so, unless its numeral has a sign that the grammar
does not allow. -/
theorem Meant.taken (unsigned : ¬ ∃ code : UInt16, SignedHexadecimal text code.toNat)
    (meant : Meant text outcome) : ofTrimmed text = outcome := by
  cases meant with
  | number numeral =>
    rw [ofTrimmed, if_pos (looksNumeric_iff.mpr (beginsNumber_of_numeral numeral)),
      codeOfNumeral?_eq_some_iff.mpr (.inl numeral)]
  | outOfRange begins noNumeral =>
    have unread : codeOfNumeral? text = none := by
      rw [Option.eq_none_iff_forall_ne_some]
      intro code read
      rcases codeOfNumeral?_eq_some_iff.mp read with numeral | signed
      · exact noNumeral code.toNat code.toNat_lt numeral
      · exact unsigned ⟨code, signed⟩
    rw [ofTrimmed, if_pos (looksNumeric_iff.mpr begins), unread]
  | named noNumber first =>
    rw [ofTrimmed, if_neg (mt looksNumeric_iff.mp noNumber), codeNamed?_eq_some_iff.mpr first]
  | unknownName noNumber none =>
    rw [ofTrimmed, if_neg (mt looksNumeric_iff.mp noNumber), codeNamed?_eq_none_iff.mpr none]

/-- Every text means a key or an error. -/
theorem exists_meant (text : List Char) : ∃ outcome, Meant text outcome := by
  by_cases begins : BeginsNumber text
  · by_cases numeral : ∃ value < 65536, Numeral text value
    · obtain ⟨value, small, numeral⟩ := numeral
      rw [← UInt16.toNat_ofNat_of_lt' small] at numeral
      exact ⟨_, .number numeral⟩
    · refine ⟨_, .outOfRange begins ?_⟩
      intro value small written
      exact numeral ⟨value, small, written⟩
  · cases found : codeNamed? (searchName text) with
    | some code => exact ⟨_, .named begins (codeNamed?_eq_some_iff.mp found)⟩
    | none => exact ⟨_, .unknownName begins (codeNamed?_eq_none_iff.mp found)⟩

/-- Without a sign after a prefix, a text is taken as what it means. -/
theorem ofTrimmed_eq_iff (unsigned : ¬ ∃ code : UInt16, SignedHexadecimal text code.toNat) :
    ofTrimmed text = outcome ↔ Meant text outcome := by
  constructor
  · rintro rfl
    obtain ⟨outcome, meant⟩ := exists_meant text
    rw [meant.taken unsigned]
    exact meant
  · exact Meant.taken unsigned

/-- A hexadecimal numeral with a sign after its prefix is taken for the code of its digits. -/
theorem ofTrimmed_of_signed (signed : SignedHexadecimal text code.toNat) :
    ofTrimmed text = .ok (ofCode code) := by
  rw [ofTrimmed, if_pos (looksNumeric_iff.mpr (beginsNumber_of_signed signed)),
    codeOfNumeral?_eq_some_iff.mpr (.inr signed)]

/-- But it means no code, and is out of range. -/
theorem meant_iff_of_signed {value : Nat} (signed : SignedHexadecimal text value) :
    Meant text outcome ↔ outcome = .error (.outOfRange (String.ofList text)) := by
  constructor
  · rintro (numeral | ⟨_, _⟩ | noNumber | noNumber)
    · exact absurd numeral (not_numeral_of_signed signed)
    · rfl
    · exact absurd (beginsNumber_of_signed signed) noNumber
    · exact absurd (beginsNumber_of_signed signed) noNumber
  · rintro rfl
    exact .outOfRange (beginsNumber_of_signed signed) fun _ _ => not_numeral_of_signed signed

/-- Every text has one core, and it is taken as what the core means, unless the core is a
hexadecimal numeral with a plus sign after its prefix: such a text is taken for the code of the
digits, although it means none and is out of range. -/
theorem key_of_text_unless_signed (text : String) : ∃ core,
    (∀ other, IsCore text.toList other ↔ other = core) ∧
    ((¬ ∃ code : UInt16, SignedHexadecimal core code.toNat) →
      ∀ outcome, ofText text = outcome ↔ Meant core outcome) ∧
    ∀ code : UInt16, SignedHexadecimal core code.toNat → ofText text = .ok (ofCode code) ∧
      ∀ outcome, Meant core outcome ↔ outcome = .error (.outOfRange (String.ofList core)) := by
  refine ⟨trim text.toList, fun _ => isCore_iff, ?_, ?_⟩
  · intro unsigned outcome
    exact ofTrimmed_eq_iff unsigned
  · intro code signed
    exact ⟨ofTrimmed_of_signed signed, fun _ => meant_iff_of_signed signed⟩

/-- A name between blanks is taken as the grammar means it: for its code, and spelled as it is. -/
theorem named_text_taken : ofText " Key_Power\t" = .ok ⟨116, some "Key_Power"⟩ := by
  obtain ⟨core, isCore_iff_eq, taken, _⟩ := key_of_text_unless_signed " Key_Power\t"
  obtain rfl : "Key_Power".toList = core :=
    (isCore_iff_eq _).mp (isCore_iff.mpr (by decide))
  have unsigned : ¬ ∃ code : UInt16, SignedHexadecimal "Key_Power".toList code.toNat := by
    rintro ⟨_, _, _, _, same, _⟩
    have first : some 'K' = some '0' := congrArg List.head? same
    contradiction
  have noNumber : ¬ BeginsNumber "Key_Power".toList := by
    rw [← looksNumeric_iff]
    decide
  have first : FirstNamed "Key_Power".toList 116 := codeNamed?_eq_some_iff.mp (by decide)
  exact (taken unsigned _).mpr (.named noNumber first)

/-- The text `0x+1f` is taken for the code 31, but is no numeral. -/
theorem signed_hexadecimal_taken : ¬ ∀ (text : String) (core : List Char),
    IsCore text.toList core → Meant core (ofText text) := by
  intro claimed
  have isCore : IsCore "0x+1f".toList "0x+1f".toList := isCore_iff.mpr (by decide)
  have signed : SignedHexadecimal "0x+1f".toList 31 := by
    refine ⟨'x', ['1', 'f'], .inl rfl, rfl, by decide, [1, 15], ?_, by decide⟩
    exact .cons (by decide) (.cons (by decide) .nil)
  have meant := (meant_iff_of_signed signed).mp (claimed "0x+1f" _ isCore)
  have taken : ofText "0x+1f" = .ok (ofCode 31) := ofTrimmed_of_signed signed
  rw [taken] at meant
  contradiction

end Key

end Keyhold
