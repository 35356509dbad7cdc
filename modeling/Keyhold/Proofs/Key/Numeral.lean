import Keyhold.Key
import Mathlib.Data.List.Forall2
import Mathlib.Data.Nat.Digits.Defs
import Mathlib.Tactic.IntervalCases

/-!
# The grammar of numerals

What texts are taken as numbers, said without the way in which they are read. A digit of a base is
the one with which a smaller number is written, as a lower or an upper case letter where it is one,
and digits write the number that they have as positional value; there may be any number of zeros
before it. `codeOfNumeral?_eq_some_iff` says which texts are read as codes: those of the grammar
`Numeral`, and hexadecimal ones with a plus sign after the prefix, which the grammar does not have.
-/

namespace Keyhold

namespace Text

/-- Whether a character is the digit of a base with the given value. -/
def IsDigit (base : Nat) (c : Char) (value : Nat) : Prop :=
  value < base ∧ (c = value.digitChar ∨ c = value.digitChar.toUpper)

instance (base : Nat) (c : Char) (value : Nat) : Decidable (IsDigit base c value) :=
  inferInstanceAs (Decidable (_ ∧ _))

/-- Whether a text is one or more digits of a base that write the given number. -/
def Writes (base : Nat) (text : List Char) (value : Nat) : Prop :=
  text ≠ [] ∧ ∃ digits, List.Forall₂ (IsDigit base) text digits ∧
    Nat.ofDigits base digits.reverse = value

/-- The numerals with their values: decimal digits, which a plus sign may come before, and
hexadecimal digits after a prefix. -/
inductive Numeral : List Char → Nat → Prop
  | decimal {digits : List Char} {value : Nat} : Writes 10 digits value → Numeral digits value
  | positive {digits : List Char} {value : Nat} : Writes 10 digits value →
      Numeral ('+' :: digits) value
  | hexadecimal {x : Char} {digits : List Char} {value : Nat} : x = 'x' ∨ x = 'X' →
      Writes 16 digits value → Numeral ('0' :: x :: digits) value

/-- Whether a text is a hexadecimal numeral but for a plus sign between its prefix and its
digits. -/
def SignedHexadecimal (text : List Char) (value : Nat) : Prop :=
  ∃ x digits, (x = 'x' ∨ x = 'X') ∧ text = '0' :: x :: '+' :: digits ∧ Writes 16 digits value

variable {base value soFar : Nat} {c : Char} {text rest : List Char} {code : UInt16}

/-! ## Digits -/

/-- The characters that have a value are ASCII. -/
theorem toNat_lt_of_digitValue? (found : digitValue? c = some value) : c.toNat < 128 := by
  rw [digitValue?] at found
  split at found
  · rename_i range
    have bound : c.toNat ≤ 57 := range.2
    omega
  · split at found
    · rename_i range
      have bound : c.toNat ≤ 102 := range.2
      omega
    · split at found
      · rename_i range
        have bound : c.toNat ≤ 70 := range.2
        omega
      · contradiction

/-- The value of a character is that of the digit that it is. -/
theorem digitValue?_eq_some_iff : digitValue? c = some value ↔ IsDigit 16 c value := by
  constructor
  · intro found
    have ascii : ∀ code < 128, ∀ value ∈ digitValue? (Char.ofNat code),
        IsDigit 16 (Char.ofNat code) value := by decide +kernel
    have digit := ascii c.toNat (toNat_lt_of_digitValue? found)
    rw [Char.ofNat_toNat] at digit
    exact digit value found
  · have digits : ∀ value < 16, digitValue? value.digitChar = some value ∧
        digitValue? value.digitChar.toUpper = some value := by decide
    rintro ⟨small, rfl | rfl⟩
    · exact (digits value small).1
    · exact (digits value small).2

/-- The value of a digit of a base up to sixteen. -/
theorem digitOf?_eq_some_iff (small : base ≤ 16) :
    digitOf? base c = some value ↔ IsDigit base c value := by
  rw [digitOf?, Option.filter_eq_some_iff, digitValue?_eq_some_iff, decide_eq_true_eq, IsDigit,
    IsDigit]
  constructor
  · rintro ⟨⟨_, spelled⟩, below⟩
    exact ⟨below, spelled⟩
  · rintro ⟨below, spelled⟩
    exact ⟨⟨Nat.lt_of_lt_of_le below small, spelled⟩, below⟩

/-- Signs and prefixes are no digits. -/
theorem not_isDigit_plus : ¬ IsDigit 16 '+' value := by
  rw [← digitValue?_eq_some_iff]
  exact nofun

/-- The letter of a hexadecimal prefix is no decimal digit. -/
theorem not_isDigit_x {x : Char} (isX : x = 'x' ∨ x = 'X') : ¬ IsDigit 10 x value := by
  rw [← digitOf?_eq_some_iff (by decide)]
  rcases isX with rfl | rfl
  · exact nofun
  · exact nofun

/-! ## Numbers -/

/-- The next digit makes one number of itself and what has been read before it. -/
theorem ofDigits_next (base digit soFar : Nat) (others : List Nat) :
    Nat.ofDigits base ((digit :: others).reverse ++ [soFar]) =
      Nat.ofDigits base (others.reverse ++ [soFar * base + digit]) := by
  have two : Nat.ofDigits base [digit, soFar] = soFar * base + digit := by
    rw [Nat.ofDigits_cons, Nat.ofDigits_singleton, Nat.mul_comm, Nat.add_comm]
  rw [List.reverse_cons, List.append_assoc, List.singleton_append, Nat.ofDigits_append,
    Nat.ofDigits_append, two, Nat.ofDigits_singleton]

/-- Further digits are appended to the number that has been read so far. -/
theorem digits?_eq_some_iff (small : base ≤ 16) : digits? base soFar text = some value ↔
    ∃ digits, List.Forall₂ (IsDigit base) text digits ∧
      Nat.ofDigits base (digits.reverse ++ [soFar]) = value := by
  induction text generalizing soFar with
  | nil =>
    rw [digits?, Option.some.injEq]
    constructor
    · intro same
      exact ⟨[], .nil, by rw [← same]; exact Nat.ofDigits_singleton⟩
    · rintro ⟨digits, none, written⟩
      cases none
      rw [← written]
      exact Nat.ofDigits_singleton.symm
  | cons first rest ih =>
    rw [digits?, Option.bind_eq_some_iff]
    constructor
    · rintro ⟨digit, own, further⟩
      obtain ⟨others, spelled, written⟩ := ih.mp further
      refine ⟨digit :: others, .cons ((digitOf?_eq_some_iff small).mp own) spelled, ?_⟩
      rw [ofDigits_next, written]
    · rintro ⟨digits, spelled, written⟩
      cases spelled with
      | cons own others =>
        refine ⟨_, (digitOf?_eq_some_iff small).mpr own, ih.mpr ⟨_, others, ?_⟩⟩
        rw [← ofDigits_next, written]

/-- A text is read as a number exactly when it is digits that write the number. -/
theorem natural?_eq_some_iff (small : base ≤ 16) :
    natural? base text = some value ↔ Writes base text value := by
  have zeros : ∀ digits : List Nat,
      Nat.ofDigits base (digits.reverse ++ [0]) = Nat.ofDigits base digits.reverse := by
    intro digits
    rw [Nat.ofDigits_append, Nat.ofDigits_singleton, Nat.mul_zero, Nat.add_zero]
  cases text with
  | nil => simp [natural?, Writes]
  | cons first rest =>
    rw [natural?, digits?_eq_some_iff small, Writes]
    · simp only [zeros, ne_eq, reduceCtorEq, not_false_eq_true, true_and]
    · nofun

/-- A sign is no digit, so a text that begins with one is not digits alone. -/
theorem not_writes_plus (small : base ≤ 16) : ¬ Writes base ('+' :: rest) value := by
  rintro ⟨_, _, spelled, _⟩
  cases spelled with
  | cons own _ => exact not_isDigit_plus ⟨Nat.lt_of_lt_of_le own.1 small, own.2⟩

/-- A text is read as an unsigned number exactly when it is digits, or digits after a plus sign. -/
theorem unsigned?_eq_some_iff (small : base ≤ 16) : unsigned? base text = some value ↔
    Writes base text value ∨ ∃ digits, text = '+' :: digits ∧ Writes base digits value := by
  unfold unsigned?
  split
  · rename_i digits
    rw [natural?_eq_some_iff small]
    constructor
    · intro written
      exact .inr ⟨digits, rfl, written⟩
    · rintro (written | ⟨_, same, written⟩)
      · exact absurd written (not_writes_plus small)
      · cases same
        exact written
  · rename_i unsigned
    rw [natural?_eq_some_iff small]
    constructor
    · exact .inl
    · rintro (written | ⟨digits, same, _⟩)
      · exact written
      · exact absurd same (unsigned digits)

/-- An unsigned number is read as a code exactly when it is the number of the code. -/
theorem word16?_eq_some_iff :
    word16? base text = some code ↔ unsigned? base text = some code.toNat := by
  rw [word16?, Option.bind_eq_some_iff]
  constructor
  · rintro ⟨value, read, fits⟩
    obtain ⟨bound, same⟩ := Option.ite_none_right_eq_some.mp fits
    obtain rfl : UInt16.ofNat value = code := Option.some.inj same
    rw [UInt16.toNat_ofNat_of_lt' bound]
    exact read
  · intro read
    refine ⟨code.toNat, read, ?_⟩
    rw [if_pos code.toNat_lt, UInt16.ofNat_toNat]

end Text

namespace Key

open Text

variable {text digits : List Char} {code : UInt16} {value : Nat} {x : Char}

/-- After the prefix, a plus sign may come before the hexadecimal digits. -/
theorem hexadecimal_iff (isX : x = 'x' ∨ x = 'X') :
    word16? 16 digits = some code ↔
      Numeral ('0' :: x :: digits) code.toNat ∨
        SignedHexadecimal ('0' :: x :: digits) code.toNat := by
  rw [word16?_eq_some_iff, unsigned?_eq_some_iff (Nat.le_refl 16)]
  constructor
  · rintro (written | ⟨signed, rfl, written⟩)
    · exact .inl (.hexadecimal isX written)
    · exact .inr ⟨x, signed, isX, rfl, written⟩
  · rintro (numeral | ⟨_, signed, _, same, written⟩)
    · cases numeral with
      | decimal written =>
        obtain ⟨_, _, spelled, _⟩ := written
        cases spelled with
        | cons _ others =>
          cases others with
          | cons own _ => exact absurd own (not_isDigit_x isX)
      | hexadecimal _ written => exact .inl written
    · cases same
      exact .inr ⟨signed, rfl, written⟩

/-- The texts that are read as codes are the numerals of the codes, and the hexadecimal ones with a
plus sign after the prefix. -/
theorem codeOfNumeral?_eq_some_iff : codeOfNumeral? text = some code ↔
    Numeral text code.toNat ∨ SignedHexadecimal text code.toNat := by
  unfold codeOfNumeral?
  split
  · exact hexadecimal_iff (.inl rfl)
  · exact hexadecimal_iff (.inr rfl)
  · rename_i lower upper
    have noPrefix : ∀ x digits, x = 'x' ∨ x = 'X' → text ≠ '0' :: x :: digits := by
      rintro x digits (rfl | rfl)
      · exact lower digits
      · exact upper digits
    rw [word16?_eq_some_iff, unsigned?_eq_some_iff (by decide)]
    constructor
    · rintro (written | ⟨digits, rfl, written⟩)
      · exact .inl (.decimal written)
      · exact .inl (.positive written)
    · rintro (numeral | ⟨x, digits, isX, same, _⟩)
      · cases numeral with
        | decimal written => exact .inl written
        | positive written => exact .inr ⟨_, rfl, written⟩
        | hexadecimal isX _ => exact absurd rfl (noPrefix _ _ isX)
      · exact absurd same (noPrefix _ _ isX)

end Key

end Keyhold
