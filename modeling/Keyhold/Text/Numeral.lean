/-!
# Unsigned numerals

Reading a whole text as an unsigned number in a base up to sixteen. An optional plus sign may
come first; at least one digit is needed, and every further character must be a digit.
-/

namespace Keyhold.Text

/-- The value of an ASCII digit in bases up to sixteen. -/
def digitValue? (c : Char) : Option Nat :=
  if '0' ≤ c ∧ c ≤ '9' then some (c.toNat - '0'.toNat)
  else if 'a' ≤ c ∧ c ≤ 'f' then some (c.toNat - 'a'.toNat + 10)
  else if 'A' ≤ c ∧ c ≤ 'F' then some (c.toNat - 'A'.toNat + 10)
  else none

/-- The value of a digit of the given base. -/
def digitOf? (base : Nat) (c : Char) : Option Nat :=
  (digitValue? c).filter (· < base)

/-- The number that further digits make of what has been read so far. -/
def digits? (base : Nat) (soFar : Nat) : List Char → Option Nat
  | [] => some soFar
  | c :: rest => (digitOf? base c).bind fun digit => digits? base (soFar * base + digit) rest

/-- The number that a text of one or more digits denotes. -/
def natural? (base : Nat) : List Char → Option Nat
  | [] => none
  | text => digits? base 0 text

/-- The number that a text denotes, with an optional plus sign before the digits. -/
def unsigned? (base : Nat) : List Char → Option Nat
  | '+' :: rest => natural? base rest
  | text => natural? base text

/-- An unsigned numeral that fits in 16 bits. -/
def word16? (base : Nat) (text : List Char) : Option UInt16 :=
  (unsigned? base text).bind fun value =>
    if value < 65536 then some (UInt16.ofNat value) else none

/-- An unsigned decimal numeral that fits in 64 bits. -/
def word64? (text : List Char) : Option UInt64 :=
  (unsigned? 10 text).bind fun value =>
    if value < 18446744073709551616 then some (UInt64.ofNat value) else none

end Keyhold.Text
