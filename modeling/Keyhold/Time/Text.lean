import Keyhold.Time

/-!
# The text of a span

A span is written in the largest unit of which it holds at least one, with the exact
fraction and no trailing zeros: `59.998s`, `999.999µs`, `0ns`.
-/

namespace Keyhold

namespace Span

/-- The digits of a fraction below `10 ^ width`, without trailing zeros. -/
def fractionDigits (fraction width : Nat) : List Char :=
  let digits := (toString fraction).toList
  let padded := List.replicate (width - digits.length) '0' ++ digits
  (padded.reverse.dropWhile (· == '0')).reverse

/-- A count of nanoseconds in a unit of `10 ^ width` nanoseconds. -/
def inUnit (nanos width : Nat) (unit : String) : String :=
  let whole := toString (nanos / Nat.pow 10 width)
  match fractionDigits (nanos % Nat.pow 10 width) width with
  | [] => whole ++ unit
  | digits => whole ++ "." ++ String.ofList digits ++ unit

/-- The span in its largest unit, as log messages show it. -/
def text (span : Span) : String :=
  if 1000000000 ≤ span.nanos then inUnit span.nanos 9 "s"
  else if 1000000 ≤ span.nanos then inUnit span.nanos 6 "ms"
  else if 1000 ≤ span.nanos then inUnit span.nanos 3 "µs"
  else toString span.nanos ++ "ns"

end Span

end Keyhold
