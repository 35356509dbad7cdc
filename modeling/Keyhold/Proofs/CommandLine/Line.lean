import Keyhold.Proofs.CommandLine.Places

/-!
# How command lines are written

`Line` says which occurrences of values a command line has, by the way in which it is written. A
value is in an argument behind its switch, or attached to it, and before, between and behind the
switches with values there may be flags, letters of flags that share a dash, and arguments without
switch. The letters of flags may also come before the letter of a switch that takes a value.
`Writes` says which steps a command line gives.

A parser is taken to be lawful: on a command line that it takes, it finds these occurrences and
gives each of them a place (`Parser.Lawful`). What else it does, and which command lines it takes,
is left open.
-/

namespace Keyhold.CommandLine

/-- Whether a text is no switch by its form: a dash comes first only if it is a dash alone. -/
def IsPlain (text : String) : Prop := text.toList.head? = some '-' → text = "-"

/-- Whether a character is the letter of a flag. -/
def IsFlagLetter (c : Char) : Prop := ∃ flag, Switch.ofLetter? c = some (.flag flag)

/-- The argument that has letters after one dash. -/
def cluster (letters : List Char) : String := String.ofList ('-' :: letters)

/-- Whether characters behind the letter of a switch attach a value to it: the value itself, or the
value behind an equals sign. -/
def Attaches (text : String) (rest : List Char) : Prop :=
  rest = '=' :: text.toList ∨ rest = text.toList ∧ rest ≠ [] ∧ rest.head? ≠ some '='

/-- The arguments that give a switch its value. The switch has its long name, or its letter with
flags before it; the value is in an argument of its own or attached. -/
inductive GivesValue (switch : ValueSwitch) (text : String) : List String → Prop
  | long {name : String} : Switch.ofName? name = some (.value switch) → IsPlain text →
      GivesValue switch text ["--" ++ name, text]
  | letter {flags : List Char} {c : Char} : (∀ flag ∈ flags, IsFlagLetter flag) →
      Switch.ofLetter? c = some (.value switch) → IsPlain text →
      GivesValue switch text [cluster (flags ++ [c]), text]
  | longAttached {name : String} : Switch.ofName? name = some (.value switch) →
      GivesValue switch text ["--" ++ name ++ "=" ++ text]
  | letterAttached {flags : List Char} {c : Char} {rest : List Char} :
      (∀ flag ∈ flags, IsFlagLetter flag) → Switch.ofLetter? c = some (.value switch) →
      Attaches text rest → GivesValue switch text [cluster (flags ++ c :: rest)]

/-- The arguments that give no value. -/
inductive Aside : String → Prop
  | flag {name : String} {flag : Flag} : Switch.ofName? name = some (.flag flag) →
      Aside ("--" ++ name)
  | flags {letters : List Char} : letters ≠ [] → (∀ c ∈ letters, IsFlagLetter c) →
      Aside (cluster letters)
  | stray {text : String} : IsPlain text → Aside text

/-- The command lines that have occurrences of values in an order. -/
inductive Line : List Occurrence → List String → Prop
  | nil : Line [] []
  | strays (texts : List String) : Line [] ("--" :: texts)
  | value {switch : ValueSwitch} {text : String} {tokens : List String}
      {occurrences : List Occurrence} {arguments : List String} : GivesValue switch text tokens →
      Line occurrences arguments → Line (⟨switch, text⟩ :: occurrences) (tokens ++ arguments)
  | aside {token : String} {occurrences : List Occurrence} {arguments : List String} :
      Aside token → Line occurrences arguments → Line occurrences (token :: arguments)

/-- Whether a command line gives steps in an order. -/
def Writes (steps : List StepText) (arguments : List String) : Prop :=
  ∃ occurrences, Line occurrences arguments ∧ Means occurrences steps

/-- What is assumed of a parser: of every command line that it takes, it lists the occurrences, each
with a place of its own that is later than those before it. -/
def Parser.Lawful (parse : Parser) : Prop :=
  ∀ occurrences arguments findings, Line occurrences arguments →
    parse arguments = .ok findings →
    ∃ placed : List Placed, placed.map Placed.occurrence = occurrences ∧ findings.Lists placed

end Keyhold.CommandLine
