import Keyhold.Text.Numeral
import Keyhold.Toml.Reader

/-!
# TOML numbers

Integers are decimal with an optional sign and without leading zeros, or have a prefix for base
sixteen, eight or two and no sign; they fit in 64 bits. A float adds a fraction, an exponent or
both to a decimal integer, or names infinity or the absence of a number. Digits may be grouped
by single underscores.
-/

namespace Keyhold.Toml.Numeral

open Reader

/-- A digit of a base. -/
def isDigit (base : Nat) (c : Char) : Bool := (Text.digitOf? base c).isSome

/-- A decimal digit other than zero. -/
def isLeading (c : Char) : Bool := isDigit 10 c && c != '0'

/-- A further digit, perhaps after an underscore. -/
def further (base : Nat) : Reader Char := do
  let _ ← optional (exactly '_')
  one (isDigit base)

/-- Digits of a base with underscores between them; only the digits are kept. -/
def digits (base : Nat) : Reader (List Char) := do
  let first ← one (isDigit base)
  let rest ← repeated (further base)
  pure (first :: rest)

/-- Decimal digits without a leading zero. -/
def decimals : Reader (List Char) := do
  match ← optional (one isLeading) with
  | some first => pure (first :: (← repeated (further 10)))
  | none => pure [← one (· == '0')]

/-- A sign, if there is one: whether it is the minus sign. -/
def sign : Reader Bool := do
  let found ← optional (one fun c => c == '+' || c == '-')
  pure (found == some '-')

/-- The number that digits denote. -/
def numberOf (base : Nat) (digits : List Char) : Nat := (Text.natural? base digits).getD 0

/-- A number with its sign. -/
def signed (negative : Bool) (magnitude : Nat) : Int :=
  if negative then -(magnitude : Int) else magnitude

/-- A number, if it fits in 64 bits. -/
def bounded (number : Int) : Reader Int :=
  if -9223372036854775808 ≤ number ∧ number < 9223372036854775808 then pure number else refuse

/-- An integer after the prefix of its base. -/
def based (mark : Char) (base : Nat) : Reader Int := do
  spelled ['0', mark]
  bounded (numberOf base (← digits base))

/-- A decimal integer. -/
def decimal : Reader Int := do
  let negative ← sign
  bounded (signed negative (numberOf 10 (← decimals)))

/-- An integer in any base. -/
def integer : Reader Int := based 'x' 16 <|> based 'o' 8 <|> based 'b' 2 <|> decimal

/-- The least number that is nearer to the range above all finite floats of 64 bits than to the
greatest of them. -/
def floatCeiling : Nat := Nat.pow 2 1024 - Nat.pow 2 970

/-- Whether a number `digits · 10 ^ exponent` is too great for a float of 64 bits. -/
def isTooGreat (digits : List Char) (exponent : Int) : Bool :=
  let magnitude := numberOf 10 digits
  if magnitude = 0 then false
  else if 0 ≤ exponent then
    400 < exponent || floatCeiling ≤ magnitude * Nat.pow 10 exponent.toNat
  else if digits.length < exponent.natAbs then false
  else floatCeiling * Nat.pow 10 exponent.natAbs ≤ magnitude

/-- The digits of a fraction. -/
def fraction : Reader (List Char) := do
  exactly '.'
  digits 10

/-- An exponent. -/
def exponent : Reader Int := do
  let _ ← one fun c => c == 'e' || c == 'E'
  let negative ← sign
  pure (signed negative (numberOf 10 (← digits 10)))

/-- What makes a float of an integer: the digits of its fraction and its exponent. -/
def floatTail : Reader (List Char × Int) :=
  (do pure ([], ← exponent)) <|> do
    let places ← fraction
    let power ← optional exponent
    pure (places, power.getD 0)

/-- A float in digits. One too great for 64 bits is refused, unless it is negative. -/
def pointed : Reader Unit := do
  let negative ← sign
  let whole ← decimals
  let (places, power) ← floatTail
  if !negative && isTooGreat (whole ++ places) (power - places.length) then refuse

/-- A float that is no number in digits. -/
def special : Reader Unit := do
  let _ ← sign
  spelled ['i', 'n', 'f'] <|> spelled ['n', 'a', 'n']

/-- A float, as it is spelled. -/
def float : Reader String := do
  let (_, text) ← spelling (pointed <|> special)
  pure (String.ofList text)

end Keyhold.Toml.Numeral
