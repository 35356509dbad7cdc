import Keyhold.Toml.Entries
import Keyhold.Toml.Moment
import Keyhold.Toml.Numeral
import Keyhold.Toml.Quoted

/-!
# TOML statements

A document is a sequence of statements: a header opens a table or an element of an array of
tables, and an assignment sets a key in the table opened last. This module reads keys, values
and statements; what they mean together is the business of the document.
-/

namespace Keyhold.Toml

open Reader

/-- A statement of a document. -/
inductive Statement where
  /-- Sets a value at a dotted key. -/
  | assign (keys : List String) (value : Value)
  /-- Opens the table at a path. -/
  | table (keys : List String)
  /-- Opens a new element of the array of tables at a path. -/
  | element (keys : List String)
  deriving Repr, Inhabited

namespace Statement

/-- Nothing nests this deep: neither the keys of a path nor arrays and inline tables. -/
def depthLimit : Nat := 80

/-- A character of a key without quotes. -/
def isBare (c : Char) : Bool :=
  ('A' ≤ c && c ≤ 'Z') || ('a' ≤ c && c ≤ 'z') || ('0' ≤ c && c ≤ '9') || c == '_' || c == '-'

/-- One key with the blanks around it. -/
def simpleKey : Reader String := do
  gap
  let key ← Quoted.line <|> (do pure (String.ofList (← run1 isBare)))
  gap
  pure key

/-- Keys with dots between them. -/
def keys : Reader (List String) := do
  let path ← separated simpleKey (exactly '.')
  if path.length < depthLimit then pure path else refuse

/-- A truth value. -/
def boolean : Reader Bool :=
  (do spelled "true".toList; pure true) <|> (do spelled "false".toList; pure false)

/-- A value that holds no other values. -/
def scalar : Reader Value :=
  (do pure (.text (← Quoted.any))) <|> (do pure (.boolean (← boolean))) <|>
    (do pure (.moment (← Moment.any))) <|> (do pure (.float (← Numeral.float))) <|>
    (do pure (.integer (← Numeral.integer)))

/-- The inside of an array of values. A comma may follow the last one. -/
def arrayOf (value : Reader Value) : Reader Value := do
  exactly '['
  let elements ← optional <| separated (do spread; let element ← value; spread; pure element)
    (exactly ',')
  if elements.isSome then
    let _ ← optional (exactly ',')
  spread
  exactly ']'
  pure (.array (elements.getD []))

/-- A value after its keys. -/
def assignment (value : Reader Value) : Reader (List String × Value) := do
  let path ← keys
  exactly '='
  gap
  pure (path, ← value)

/-- A table between braces, on one line. -/
def inlineOf (value : Reader Value) : Reader Value := do
  exactly '\x7b'
  let assignments ← optional <|
    separated (do let entry ← assignment value; gap; pure entry) (exactly ',')
  gap
  exactly '\x7d'
  match Entries.ofAssignments (assignments.getD []) with
  | some entries => pure (.table .inline entries)
  | none => refuse

/-- A value with at most the given nesting of arrays and inline tables. -/
def valueUpTo : Nat → Reader Value
  | 0 => scalar
  | depth + 1 => arrayOf (valueUpTo depth) <|> inlineOf (valueUpTo depth) <|> scalar

/-- A value. -/
def value : Reader Value := valueUpTo (depthLimit - 1)

/-- A header that opens an element of an array of tables. -/
def elementHeader : Reader Statement := do
  spelled ['[', '[']
  let path ← keys
  spelled [']', ']']
  pure (.element path)

/-- A header that opens a table. -/
def tableHeader : Reader Statement := do
  exactly '['
  let path ← keys
  exactly ']'
  pure (.table path)

/-- An assignment. -/
def assigned : Reader Statement := do
  let (path, value) ← assignment value
  pure (.assign path value)

/-- One line: empty, a comment, or a statement. -/
def line : Reader (Option Statement) :=
  (do newline; pure none) <|> (do comment; newline <|> atEnd; pure none) <|> do
    let statement ← elementHeader <|> tableHeader <|> assigned
    lineRest
    pure (some statement)

/-- All statements of a document. A byte order mark before them is skipped. -/
def all : Reader (List Statement) := do
  let _ ← optional (exactly (Char.ofNat 0xfeff))
  gap
  let lines ← repeated (do let found ← line; gap; pure found)
  pure (lines.filterMap id)

end Statement

end Keyhold.Toml
