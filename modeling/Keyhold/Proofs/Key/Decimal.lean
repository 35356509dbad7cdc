import Keyhold.Key
import Mathlib.Data.List.Basic

/-!
# Codes in decimal

A code written in decimal is read back as the key of this code. Nothing of the text is lost on the
way: its digits are no blanks, it begins with a digit and so is taken as a number, and no letter
in it makes it hexadecimal.
-/

namespace Keyhold

namespace Text

variable {c : Char} {text : List Char}

/-- The characters that are decimal digits. -/
theorem toNat_of_isDigit (digit : c.isDigit = true) : 48 ≤ c.toNat ∧ c.toNat ≤ 57 :=
  Char.isDigit_iff_toNat.mp digit

/-- The value of a decimal digit. -/
theorem digitOf?_of_isDigit (digit : c.isDigit = true) :
    digitOf? 10 c = some (c.toNat - '0'.toNat) := by
  have range : '0' ≤ c ∧ c ≤ '9' := Char.isDigit_iff_toNat.mp digit
  have small : c.toNat - '0'.toNat < 10 := by
    have bounds := toNat_of_isDigit digit
    show c.toNat - 48 < 10
    omega
  rw [digitOf?, digitValue?, if_pos range, Option.filter_some, decide_eq_true small, if_pos rfl]

/-- Decimal digits go on with the number that has been read so far. -/
theorem digits?_of_isDigit {soFar : Nat} (digits : ∀ c ∈ text, c.isDigit = true) :
    digits? 10 soFar text = some (Nat.ofDigitChars 10 text soFar) := by
  induction text generalizing soFar with
  | nil => rfl
  | cons first rest ih =>
    obtain ⟨digit, others⟩ := List.forall_mem_cons.mp digits
    rw [digits?, digitOf?_of_isDigit digit, Option.bind_some, ih others, Nat.ofDigitChars,
      Nat.ofDigitChars, List.foldl_cons, Nat.mul_comm]

/-- Decimal digits without a sign denote a number. -/
theorem unsigned?_of_isDigit (digits : ∀ c ∈ text, c.isDigit = true) (nonempty : text ≠ []) :
    unsigned? 10 text = some (Nat.ofDigitChars 10 text 0) := by
  cases text with
  | nil => exact absurd rfl nonempty
  | cons first rest =>
    have unsigned : first ≠ '+' := by
      rintro rfl
      exact absurd (digits _ List.mem_cons_self) (by decide)
    rw [unsigned?, natural?, digits?_of_isDigit digits]
    · nofun
    · rintro _ ⟨⟩
      contradiction

/-- No digit is blank, by their numbers. -/
theorem isBlank_of_isDigit (digit : c.isDigit = true) : isBlank c = false := by
  have bounds := toNat_of_isDigit digit
  have code : c.val.toNat = c.toNat := rfl
  simp only [isBlank, UInt32.le_iff_toNat_le, ← UInt32.toNat_inj, UInt32.reduceToNat, code,
    Bool.or_eq_false_iff, Bool.and_eq_false_imp, decide_eq_true_eq, decide_eq_false_iff_not,
    Nat.not_le, beq_eq_false_iff_ne, ne_eq]
  omega

/-- No blanks are taken off where there are none. -/
theorem dropWhile_of_solid (solid : ∀ c ∈ text, isBlank c = false) :
    text.dropWhile isBlank = text := by
  cases text with
  | nil => rfl
  | cons first rest =>
    have visible : ¬ isBlank first = true := by
      rw [solid first List.mem_cons_self]
      exact Bool.false_ne_true
    exact List.dropWhile_cons_of_neg visible

/-- A text without blanks stays as it is. -/
theorem trim_of_solid (solid : ∀ c ∈ text, isBlank c = false) : trim text = text := by
  have backwards : ∀ c ∈ text.reverse, isBlank c = false := fun c member =>
    solid c (List.mem_reverse.mp member)
  rw [trim, dropWhile_of_solid solid, dropWhile_of_solid backwards, List.reverse_reverse]

/-- A number is written with decimal digits. -/
theorem isDigit_toDigits (number : Nat) : ∀ c ∈ Nat.toDigits 10 number, c.isDigit = true := by
  intro c member
  exact Nat.isDigit_of_mem_toDigits (by decide) (by decide) member

/-- The digits of a code are read as the code. -/
theorem word16?_toDigits (code : UInt16) : word16? 10 (Nat.toDigits 10 code.toNat) = some code := by
  have number : unsigned? 10 (Nat.toDigits 10 code.toNat) = some code.toNat := by
    rw [unsigned?_of_isDigit (isDigit_toDigits _) Nat.toDigits_ne_nil,
      Nat.ofDigitChars_toDigits (by decide) (by decide)]
  rw [word16?, number, Option.bind_some, if_pos code.toNat_lt, UInt16.ofNat_toNat]

end Text

namespace Key

variable {text : List Char}

/-- A text of digits is taken as a number. -/
theorem looksNumeric_of_isDigit (digits : ∀ c ∈ text, c.isDigit = true) (nonempty : text ≠ []) :
    looksNumeric text = true := by
  cases text with
  | nil => exact absurd rfl nonempty
  | cons first rest =>
    have range : '0' ≤ first ∧ first ≤ '9' :=
      Char.isDigit_iff_toNat.mp (digits first List.mem_cons_self)
    simp [looksNumeric, range]

/-- Digits alone are no hexadecimal number. -/
theorem codeOfNumeral?_of_isDigit (digits : ∀ c ∈ text, c.isDigit = true) :
    codeOfNumeral? text = Text.word16? 10 text := by
  unfold codeOfNumeral?
  split
  · exact absurd (digits 'x' (by simp)) (by decide)
  · exact absurd (digits 'X' (by simp)) (by decide)
  · rfl

/-- A code written in decimal is read as the key of the code. -/
theorem ofText_toString (code : UInt16) : ofText (toString code.toNat) = .ok (ofCode code) := by
  have digits := Text.isDigit_toDigits code.toNat
  have written : (toString code.toNat).toList = Nat.toDigits 10 code.toNat := Nat.toList_repr
  have solid : Text.trim (Nat.toDigits 10 code.toNat) = Nat.toDigits 10 code.toNat :=
    Text.trim_of_solid fun c member => Text.isBlank_of_isDigit (digits c member)
  rw [ofText, written, solid, ofTrimmed,
    if_pos (looksNumeric_of_isDigit digits Nat.toDigits_ne_nil),
    codeOfNumeral?_of_isDigit digits, Text.word16?_toDigits]

end Key

end Keyhold
