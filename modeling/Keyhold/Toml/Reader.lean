/-!
# Readers

A reader takes something off the front of a text or refuses it. The combinators here are all
that the grammar of TOML needs: single characters, runs of characters, choice and repetition.
A choice starts again where the refused alternative started.
-/

namespace Keyhold.Toml

/-- Takes something off the front of a text, or refuses the text. -/
abbrev Reader := StateT (List Char) Option

namespace Reader

variable {α β : Type}

/-- Refuses every text. -/
def refuse : Reader α := fun _ => none

/-- One character of a class. -/
def one (accept : Char → Bool) : Reader Char
  | [] => none
  | c :: rest => if accept c then some (c, rest) else none

/-- One given character. -/
def exactly (c : Char) : Reader Unit := do
  let _ ← one (· == c)

/-- A given run of characters. -/
def spelled : List Char → Reader Unit
  | [] => pure ()
  | c :: rest => do
    exactly c
    spelled rest

/-- All characters up to the first one outside a class. -/
def run (accept : Char → Bool) : Reader (List Char) := fun text =>
  some (text.takeWhile accept, text.dropWhile accept)

/-- A run of at least one character. -/
def run1 (accept : Char → Bool) : Reader (List Char) := do
  let first ← one accept
  let rest ← run accept
  pure (first :: rest)

/-- A given number of characters of a class. -/
def times (accept : Char → Bool) : Nat → Reader (List Char)
  | 0 => pure []
  | count + 1 => do
    let first ← one accept
    let rest ← times accept count
    pure (first :: rest)

/-- Repeats a reader until it refuses, at most the given number of times. -/
def repeatUpTo (reader : Reader α) : Nat → List Char → List α × List Char
  | 0, text => ([], text)
  | limit + 1, text =>
    match reader text with
    | none => ([], text)
    | some (first, rest) =>
      let (others, rest) := repeatUpTo reader limit rest
      (first :: others, rest)

/-- Repeats a reader until it refuses. The reader takes at least one character each time, so
the length of the text bounds the number of repetitions. -/
def repeated (reader : Reader α) : Reader (List α) := fun text =>
  some (repeatUpTo reader text.length text)

/-- One or more readings with something between every two. -/
def separated (reader : Reader α) (separator : Reader β) : Reader (List α) := do
  let first ← reader
  let rest ← repeated do
    let _ ← separator
    reader
  pure (first :: rest)

/-- What a reader takes, together with the text it takes it from. -/
def spelling (reader : Reader α) : Reader (α × List Char) := fun text =>
  (reader text).map fun (result, rest) =>
    ((result, text.take (text.length - rest.length)), rest)

/-- The end of the text. -/
def atEnd : Reader Unit
  | [] => some ((), [])
  | _ :: _ => none

/-- Reads a whole text. -/
def whole? (reader : Reader α) (text : List Char) : Option α :=
  match reader text with
  | some (result, []) => some result
  | _ => none

/-! ## Blanks, line ends and comments -/

/-- A blank inside a line. -/
def isGap (c : Char) : Bool := c == ' ' || c == '\t'

/-- A character outside ASCII. -/
def isForeign (c : Char) : Bool := 0x80 ≤ c.val

/-- A character that may stand in a comment. -/
def isCommentary (c : Char) : Bool :=
  c == '\t' || (0x20 ≤ c.val && c.val ≤ 0x7e) || isForeign c

/-- Blanks, if any. -/
def gap : Reader Unit := do
  let _ ← run isGap

/-- A line end: a line feed, alone or after a carriage return. -/
def newline : Reader Unit := exactly '\n' <|> spelled ['\r', '\n']

/-- A comment up to the end of its line. -/
def comment : Reader Unit := do
  exactly '#'
  let _ ← run isCommentary

/-- What may follow a statement on its line. -/
def lineRest : Reader Unit := do
  gap
  let _ ← optional comment
  newline <|> atEnd

/-- Blanks, line ends and comments, as they may stand between the elements of an array. -/
def spread : Reader Unit := do
  let _ ← repeated <|
    (do let _ ← run1 isGap) <|> newline <|> (do comment; newline)

end Reader

end Keyhold.Toml
