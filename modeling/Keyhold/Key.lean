import Keyhold.Key.Names
import Keyhold.Text.Blank
import Keyhold.Text.Numeral

/-!
# Keys

A key is an event code together with the name it is shown under, if it has one. As text it is
either a number or a name. A text that begins with a digit or a sign is always taken as a
number, so the digit keys need their prefix (`KEY_1`); any other text is looked up among the
key names and keeps its own spelling.
-/

namespace Keyhold

/-- A key: its event code and the name it is shown under. -/
structure Key where
  code : UInt16
  name : Option String
  deriving DecidableEq, Repr, Inhabited

/-- Why a text does not denote a key. The text is given without surrounding blanks. -/
inductive KeyTextError where
  | outOfRange (text : String)
  | unknownName (text : String)
  deriving DecidableEq, Repr

namespace KeyTextError

/-- The error as shown to the user. -/
def message : KeyTextError → String
  | .outOfRange text => "key code out of range (0-65535): " ++ text
  | .unknownName text => "unknown key name: " ++ text

end KeyTextError

namespace Key

/-- A key without a name. -/
def ofCode (code : UInt16) : Key := ⟨code, none⟩

/-- Whether a trimmed text is taken as a number rather than as a name. -/
def looksNumeric : List Char → Bool
  | [] => false
  | c :: _ => ('0' ≤ c && c ≤ '9') || c == '-' || c == '+'

/-- The code that a numeric text denotes, in hexadecimal after `0x` or `0X` and in decimal
otherwise. -/
def codeOfNumeral? : List Char → Option UInt16
  | '0' :: 'x' :: digits => Text.word16? 16 digits
  | '0' :: 'X' :: digits => Text.word16? 16 digits
  | digits => Text.word16? 10 digits

/-- The key that a trimmed text denotes. -/
def ofTrimmed (text : List Char) : Except KeyTextError Key :=
  if looksNumeric text then
    match codeOfNumeral? text with
    | some code => .ok (ofCode code)
    | none => .error (.outOfRange (String.ofList text))
  else
    match codeNamed? (searchName text) with
    | some code => .ok ⟨code, some (String.ofList text)⟩
    | none => .error (.unknownName (String.ofList text))

/-- The key that a text denotes; blanks around it do not matter. -/
def ofText (text : String) : Except KeyTextError Key := ofTrimmed (Text.trim text.toList)

/-- The code of a key name, which may be surrounded by blanks. -/
def codeOfName? (text : String) : Option UInt16 :=
  codeNamed? (searchName (Text.trim text.toList))

/-- A code together with the name it goes by, if any. -/
def textWith (name : Option String) (code : UInt16) : String :=
  match name with
  | some name => name ++ " (" ++ toString code.toNat ++ ")"
  | none => toString code.toNat

/-- The key as shown to the user. -/
def text (key : Key) : String := textWith key.name key.code

/-- The label of a key in messages: its own name, else the usual name of its code. -/
def label (key : Key) : String := textWith (key.name.or (nameOf? key.code)) key.code

end Key

end Keyhold
