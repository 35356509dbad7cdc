import Keyhold.Application
import Keyhold.CommandLine.Arguments

/-!
# The program

What the program does from its arguments to its exit code: it shows its version, lists devices,
shows the configuration, or runs the daemon. What its arguments say is told by a parser.
-/

namespace Keyhold

open Keyhold.CommandLine
open Keyhold.System

/-- What a run of the program leaves behind. -/
structure ProgramResult where
  /-- What is printed. -/
  output : String
  /-- What is printed as an error. -/
  complaint : String
  exitCode : Nat
  deriving DecidableEq, Repr, Inhabited

namespace Program

/-- The name and version of the program. -/
def versionLine : String := "buttond 0.2.0\n"

/-- The exit code when the arguments are wrong. -/
def usageCode : Nat := 2

/-- The exit code when the program fails. -/
def failureCode : Nat := 1

/-- The result when the arguments are not carried out. -/
def usageResult : UsageError → ProgramResult
  | .version => ⟨versionLine, "", 0⟩
  | .help => ⟨"", "", 0⟩
  | _ => ⟨"", "", usageCode⟩

/-- The result of what was asked for. -/
def resultOf : Except ApplicationError String → ProgramResult
  | .ok output => ⟨output, "", 0⟩
  | .error error => ⟨"", error.report, failureCode⟩

/-- Carries out what a configured application is asked for. -/
def perform (application : Application) (limit : Nat) :
    Routine (Except ApplicationError String) := do
  if application.options.checkConfig then pure application.overview
  else
    match ← application.run limit with
    | .ok _ => pure (.ok "")
    | .error error => pure (.error error)

/-- Carries out options. -/
def carryOut (options : Options) (ownFile : Path) (limit : Nat) :
    Routine (Except ApplicationError String) := do
  if options.listDevices then
    let devices ← ListedDevice.all
    pure (deviceLines devices)
  else
    match ← Application.load options ownFile with
    | .error error => pure (.error error)
    | .ok application => perform application limit

/-- Runs the program on its arguments as a parser takes them, with the daemon taking at most a
number of turns. -/
def runWith (parse : Parser) (arguments : List String) (ownFile : Path) (limit : Nat) :
    Routine ProgramResult := do
  match parse arguments with
  | .error error => pure (usageResult error)
  | .ok findings =>
    let result ← carryOut findings.options ownFile limit
    pure (resultOf result)

/-- Runs the program on its arguments. -/
def run (arguments : List String) (ownFile : Path) (limit : Nat) : Routine ProgramResult :=
  runWith reader arguments ownFile limit

end Program

end Keyhold
