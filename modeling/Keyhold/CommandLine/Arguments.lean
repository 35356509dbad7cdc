import Keyhold.CommandLine.Findings
import Keyhold.CommandLine.Switch
import Keyhold.Text.Numeral

/-!
# Reading the arguments

The parser that the program runs with (`reader`); the program itself takes any parser.

Arguments are read from left to right. A switch that takes a value may have it attached, as in
`-t500`, `-t=500` or `--time=500`, or may find it in the next argument, which then must not
begin with a dash unless it is a dash alone. Letters may share one dash. After `--` no argument
is a switch.

A value in an argument of its own is entered only once the next known switch, an argument
without switch, or the end is reached. Up to then a mistake in it goes unnoticed, and another
mistake may decide first.

Everything that is entered takes the next place on the command line; a switch that has a value
takes one for itself before the one of the value.
-/

namespace Keyhold.CommandLine

/-- One more value of a switch, at its place. -/
def Occurrences.add {α : Type} (occurrences : Occurrences α) (place : Nat) (value : α) :
    Occurrences α :=
  ⟨some (occurrences.values.getD [] ++ [value]), some (occurrences.places.getD [] ++ [place])⟩

namespace Findings

/-- The greatest verbosity that is counted. -/
def verbosityLimit : Nat := 255

/-- Reads the value of a switch as a path. -/
def path (text : String) : Except UsageError Path :=
  if text.isEmpty then .error .noValue else .ok ⟨text⟩

/-- Reads the value of a switch as a count of milliseconds. -/
def millis (text : String) : Except UsageError UInt64 :=
  match Text.word64? text.toList with
  | some count => .ok count
  | none => .error .badNumber

/-- Refuses a switch that was given before. -/
def once (before : Bool) : Except UsageError Unit := if before then .error .repeated else .ok ()

/-- Enters the value of a switch at its place. -/
def accept (findings : Findings) (place : Nat) (switch : ValueSwitch) (text : String) :
    Except UsageError Findings :=
  match switch with
  | .input => do .ok { findings with inputs := findings.inputs ++ [← path text] }
  | .inputWait => do .ok { findings with waited := findings.waited ++ [← path text] }
  | .short => .ok { findings with shorts := findings.shorts.add place text }
  | .long => .ok { findings with longs := findings.longs.add place text }
  | .time => do .ok { findings with times := findings.times.add place (← millis text) }
  | .action => .ok { findings with actions := findings.actions.add place text }
  | .exitAction => .ok { findings with exitActions := findings.exitActions.add place text }
  | .config => do
    once findings.config.isSome
    .ok { findings with config := some (← path text) }
  | .debounce => do
    once findings.debounce.isSome
    .ok { findings with debounce := some (← millis text) }

/-- Enters a flag. -/
def raise (findings : Findings) : Flag → Except UsageError Findings
  | .syncActions => do
    once findings.syncActions
    .ok { findings with syncActions := true }
  | .checkConfig => do
    once findings.checkConfig
    .ok { findings with checkConfig := true }
  | .listDevices => do
    once findings.listDevices
    .ok { findings with listDevices := true }
  | .testMode => do
    once findings.testMode
    .ok { findings with testMode := true }
  | .verbose => .ok { findings with verbosity := min (findings.verbosity + 1) verbosityLimit }
  | .help => .error .help
  | .version => .error .version

/-- Enters an argument that belongs to no switch. -/
def addStray (findings : Findings) (text : String) : Findings :=
  { findings with strays := findings.strays ++ [text] }

end Findings

/-- A switch whose value is not entered yet, with the value once it has been found. -/
structure Pending where
  switch : ValueSwitch
  value : Option String
  deriving DecidableEq, Repr

/-- The state between two arguments. -/
structure Progress where
  findings : Findings
  /-- The last place that has been taken. -/
  place : Nat
  pending : Option Pending
  /-- Whether all further arguments belong to no switch. -/
  onlyStrays : Bool
  deriving DecidableEq, Repr

/-- An argument by its form. -/
inductive ArgumentForm where
  /-- The end of the switches. -/
  | separator
  /-- A long name with the value attached to it, if any. -/
  | long (name : String) (value : Option String)
  /-- Letters after one dash, and perhaps a value. -/
  | letters (text : List Char)
  /-- Anything else. -/
  | plain
  deriving DecidableEq, Repr

namespace ArgumentForm

/-- Splits a text at its first equals sign. -/
def splitValue (text : List Char) : String × Option String :=
  let name := text.takeWhile (· != '=')
  match text.dropWhile (· != '=') with
  | [] => (String.ofList name, none)
  | _ :: value => (String.ofList name, some (String.ofList value))

/-- The form of an argument. -/
def ofText (text : String) : ArgumentForm :=
  match text.toList with
  | ['-', '-'] => .separator
  | '-' :: '-' :: rest => .long (splitValue rest).1 (splitValue rest).2
  | '-' :: c :: rest => .letters (c :: rest)
  | _ => .plain

/-- The value attached to a letter; an equals sign before it is dropped. -/
def attached? : List Char → Option String
  | [] => none
  | '=' :: value => some (String.ofList value)
  | value => some (String.ofList value)

end ArgumentForm

namespace Progress

/-- The state before the first argument. -/
def start : Progress := ⟨.empty, 0, none, false⟩

/-- Enters the value of a switch. -/
def enter (progress : Progress) (switch : ValueSwitch) (value : String) :
    Except UsageError Progress := do
  let place := progress.place + 2
  let findings ← progress.findings.accept place switch value
  .ok { progress with findings := findings, place := place }

/-- Enters the value of the pending switch. -/
def settle (progress : Progress) : Except UsageError Progress :=
  match progress.pending with
  | none => .ok progress
  | some ⟨_, none⟩ => .error .noValue
  | some ⟨switch, some value⟩ => { progress with pending := none }.enter switch value

/-- Reads a switch that takes a value. -/
def valueSwitch (progress : Progress) (switch : ValueSwitch) (attached : Option String) :
    Except UsageError Progress := do
  let progress ← progress.settle
  match attached with
  | some value => progress.enter switch value
  | none => .ok { progress with pending := some ⟨switch, none⟩ }

/-- Reads a flag. -/
def flag (progress : Progress) (flag : Flag) : Except UsageError Progress := do
  let progress ← progress.settle
  let findings ← progress.findings.raise flag
  .ok { progress with findings := findings, place := progress.place + 1 }

/-- Reads a long name. -/
def long (progress : Progress) (name : String) (attached : Option String) :
    Except UsageError Progress :=
  match Switch.ofName? name with
  | none => .error .unknown
  | some (.value switch) => progress.valueSwitch switch attached
  | some (.flag flag) =>
    if attached.isSome then .error .unwantedValue else progress.flag flag

/-- Reads letters after one dash. What follows the letter of a switch with a value is that
value. -/
def letters (progress : Progress) : List Char → Except UsageError Progress
  | [] => .ok progress
  | c :: rest =>
    match Switch.ofLetter? c with
    | none => .error .unknown
    | some (.value switch) => progress.valueSwitch switch (ArgumentForm.attached? rest)
    | some (.flag flag) => do (← progress.flag flag).letters rest

/-- Reads an argument that belongs to no switch. -/
def stray (progress : Progress) (text : String) : Except UsageError Progress := do
  let progress ← progress.settle
  .ok { progress with
    findings := progress.findings.addStray text, place := progress.place + 1 }

/-- Reads an argument that is no switch: the value that a switch waits for, or a stray one. -/
def plain (progress : Progress) (text : String) : Except UsageError Progress :=
  match progress.pending with
  | some ⟨switch, none⟩ => .ok { progress with pending := some ⟨switch, some text⟩ }
  | _ => progress.stray text

/-- Reads one argument. -/
def argument (progress : Progress) (text : String) : Except UsageError Progress :=
  if progress.onlyStrays then progress.stray text
  else
    match ArgumentForm.ofText text with
    | .separator => .ok { progress with onlyStrays := true }
    | .long name attached => progress.long name attached
    | .letters cluster => progress.letters cluster
    | .plain => progress.plain text

/-- Reads arguments in order. -/
def arguments (progress : Progress) : List String → Except UsageError Progress
  | [] => .ok progress
  | text :: rest => do (← progress.argument text).arguments rest

end Progress

/-- Reads a command line. -/
def reader : Parser := fun arguments => do
  let progress ← Progress.start.arguments arguments
  let progress ← progress.settle
  .ok progress.findings

namespace Options

/-- What a command line asks for. -/
def ofArguments (arguments : List String) : Except UsageError Options := do
  let findings ← reader arguments
  .ok findings.options

end Options

end Keyhold.CommandLine
