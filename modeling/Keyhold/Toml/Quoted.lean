import Keyhold.Text.Numeral
import Keyhold.Toml.Reader

/-!
# TOML strings

The four spellings of a text: in double quotes, where a backslash begins an escape, and in
single quotes, where every character stands for itself, each on one line or, with tripled
quotes, over several. A text over several lines loses a line end directly after its opening and
may hold up to two quotes in a row, also at its very end.
-/

namespace Keyhold.Toml.Quoted

open Reader

/-- A character that stands for itself between double quotes. -/
def isPlain (c : Char) : Bool := isCommentary c && c != '"' && c != '\\'

/-- A character that stands for itself between single quotes. -/
def isLiteral (c : Char) : Bool := isCommentary c && c != '\''

/-- The number that hexadecimal digits denote, as a character. -/
def character? (digits : List Char) : Option Char :=
  (Text.natural? 16 digits).bind fun code =>
    if code.isValidChar then some (Char.ofNat code) else none

/-- A character given by a number of hexadecimal digits. -/
def numbered (width : Nat) : Reader Char := do
  let digits ← times (fun c => (Text.digitOf? 16 c).isSome) width
  match character? digits with
  | some c => pure c
  | none => refuse

/-- What follows the backslash of an escape. -/
def escaped : Reader Char := do
  match ← one fun _ => true with
  | 'b' => pure (Char.ofNat 8)
  | 'f' => pure (Char.ofNat 12)
  | 'n' => pure '\n'
  | 'r' => pure '\r'
  | 't' => pure '\t'
  | 'u' => numbered 4
  | 'U' => numbered 8
  | '\\' => pure '\\'
  | '"' => pure '"'
  | _ => refuse

/-- An escape. -/
def escape : Reader Char := do
  exactly '\\'
  escaped

/-- A text in double quotes on one line. -/
def basic : Reader (List Char) := do
  exactly '"'
  let content ← repeated (one isPlain <|> escape)
  exactly '"'
  pure content

/-- A text in single quotes on one line. -/
def literal : Reader (List Char) := do
  exactly '\''
  let content ← run isLiteral
  exactly '\''
  pure content

/-- A backslash that hides the line end after it and the blanks up to the next text. -/
def continuation : Reader Unit := do
  exactly '\\'
  gap
  newline
  let _ ← repeated ((do let _ ← run1 isGap) <|> newline)

/-- One or two quotes inside a text over several lines. -/
def innerQuotes (quote : Char) : Reader (List Char) := do
  let quotes ← run1 (· == quote)
  if quotes.length ≤ 2 then pure quotes else refuse

/-- The closing quotes of a text over several lines, and up to two quotes that still belong to
the text. -/
def closingQuotes (quote : Char) : Reader (List Char) := do
  let quotes ← run (· == quote)
  if 3 ≤ quotes.length ∧ quotes.length ≤ 5 then pure (quotes.drop 3) else refuse

/-- A line end inside a text over several lines. -/
def innerLineEnd : Reader (List Char) := do
  newline
  pure ['\n']

/-- A text over several lines, made of pieces between tripled quotes. -/
def multiline (quote : Char) (piece : Reader (List Char)) : Reader (List Char) := do
  spelled [quote, quote, quote]
  let _ ← optional newline
  let pieces ← repeated (piece <|> innerLineEnd <|> innerQuotes quote)
  let last ← closingQuotes quote
  pure (pieces.flatten ++ last)

/-- A text in double quotes over several lines. -/
def multilineBasic : Reader (List Char) :=
  multiline '"' <| run1 isPlain <|> (do continuation; pure []) <|> (do pure [← escape])

/-- A text in single quotes over several lines. -/
def multilineLiteral : Reader (List Char) := multiline '\'' (run1 isLiteral)

/-- A text on one line. -/
def line : Reader String := do
  pure (String.ofList (← basic <|> literal))

/-- A text in any spelling. A text over several lines is looked for first, since two quotes
alone also make an empty text. -/
def any : Reader String := do
  pure (String.ofList (← multilineBasic <|> basic <|> multilineLiteral <|> literal))

end Keyhold.Toml.Quoted
