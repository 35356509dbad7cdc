/-!
# TOML values

The values of a TOML document. A table remembers how it came to be, because that decides
whether later lines may add to it. Floats, dates and times are kept as they are spelled:
nothing in the library computes with them.
-/

namespace Keyhold.Toml

/-- How a table came to be. -/
inductive Origin where
  /-- Written between braces; complete. -/
  | inline
  /-- Opened by a header of its own. -/
  | header
  /-- Named on the way by a header of a table inside it. -/
  | implied
  /-- Named on the way by a dotted key. -/
  | dotted
  deriving DecidableEq, Repr, Inhabited

/-- A TOML value. -/
inductive Value where
  | text (content : String)
  | integer (number : Int)
  | float (spelling : String)
  | moment (spelling : String)
  | boolean (flag : Bool)
  /-- An array written between brackets. -/
  | array (elements : List Value)
  /-- A table, as keys and values in the order of their appearance. -/
  | table (origin : Origin) (entries : List (String × Value))
  /-- An array whose elements are tables opened by headers. -/
  | tables (elements : List (List (String × Value)))
  deriving Repr, Inhabited

/-- The content of a table. -/
abbrev Entries := List (String × Value)

namespace Value

/-- The entries of a table, however it was written. -/
def entries? : Value → Option Entries
  | .table _ entries => some entries
  | _ => none

/-- The elements of an array, however it was written. -/
def elements? : Value → Option (List Value)
  | .array elements => some elements
  | .tables elements => some (elements.map fun entries => .table .header entries)
  | _ => none

/-- The content of a text. -/
def text? : Value → Option String
  | .text content => some content
  | _ => none

/-- An integer. -/
def integer? : Value → Option Int
  | .integer number => some number
  | _ => none

/-- A truth value. -/
def boolean? : Value → Option Bool
  | .boolean flag => some flag
  | _ => none

end Value

end Keyhold.Toml
