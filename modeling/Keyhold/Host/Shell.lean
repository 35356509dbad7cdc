import Keyhold.Host.Tree
import Keyhold.System.Request
import Keyhold.Text.Numeral

/-!
# The shell of a simulated host

A small part of the shell language, enough to see commands run: simple commands joined by `;`,
`&&` and `||`, the words `true`, `false`, `:`, `exit`, `echo` and `kill`, and redirection from
files and to the end of files. Words may be quoted. A command is run at once, and one that reads
from a named pipe waits for ever.
-/

namespace Keyhold.Host

open Keyhold.System

/-- A token of a command. -/
inductive Token where
  | word (text : String)
  | next
  | both
  | either
  | append
  | input
  deriving DecidableEq, Repr

/-- How a command is joined to the one before it. -/
inductive Joint where
  | always
  | onSuccess
  | onFailure
  deriving DecidableEq, Repr

/-- A simple command: its words and its redirections. -/
structure SimpleCommand where
  words : List String
  appends : Option String
  reads : Option String
  deriving DecidableEq, Repr, Inhabited

namespace Shell

/-- The tokens with a finished word in front, if one was begun. Its characters come in reverse. -/
def emit (word : Option (List Char)) (tokens : List Token) : List Token :=
  match word with
  | some reversed => .word (String.ofList reversed.reverse) :: tokens
  | none => tokens

/-- Whether a character begins and ends a quotation. -/
def isQuote (c : Char) : Bool := c == '"' || c == Char.ofNat 39

/-- Whether a character ends a word and means nothing else. Parentheses around a command only
group it. -/
def isBreak (c : Char) : Bool := c == ' ' || c == '\t' || c == '(' || c == ')'

/-- Splits a command into tokens, given the quotation and the word that have been begun. -/
def tokens : Option Char → Option (List Char) → List Char → List Token
  | _, word, [] => emit word []
  | none, word, '>' :: '>' :: rest => emit word (.append :: tokens none none rest)
  | none, word, '&' :: '&' :: rest => emit word (.both :: tokens none none rest)
  | none, word, '|' :: '|' :: rest => emit word (.either :: tokens none none rest)
  | none, word, c :: rest =>
    if isQuote c then tokens (some c) (some (word.getD [])) rest
    else if isBreak c then emit word (tokens none none rest)
    else if c = ';' ∨ c = '\n' then emit word (.next :: tokens none none rest)
    else if c = '<' then emit word (.input :: tokens none none rest)
    else tokens none (some (c :: word.getD [])) rest
  | some quote, word, c :: rest =>
    if c = quote then tokens none word rest
    else tokens (some quote) (some (c :: word.getD [])) rest

/-- Collects simple commands, each with the joint before it. -/
def commands (joint : Joint) (command : SimpleCommand) :
    List Token → List (Joint × SimpleCommand)
  | [] => [(joint, command)]
  | .append :: .word file :: rest => commands joint { command with appends := some file } rest
  | .input :: .word file :: rest => commands joint { command with reads := some file } rest
  | .word text :: rest => commands joint { command with words := command.words ++ [text] } rest
  | .next :: rest => (joint, command) :: commands .always ⟨[], none, none⟩ rest
  | .both :: rest => (joint, command) :: commands .onSuccess ⟨[], none, none⟩ rest
  | .either :: rest => (joint, command) :: commands .onFailure ⟨[], none, none⟩ rest
  | _ :: rest => commands joint command rest

/-- How a command leaves the shell. -/
inductive Effect where
  /-- The shell goes on with this status. -/
  | status (code : Nat)
  /-- The shell ends. -/
  | finished (status : ExitStatus)
  /-- The shell waits for ever. -/
  | waiting
  deriving DecidableEq, Repr

/-- The status of a command that cannot be found. -/
def notFound : Nat := 127

/-- The status of a command that cannot be set up. -/
def badSetup : Nat := 2

/-- The number of a signal given by number or by name, after a dash. -/
def signalOf? (text : String) : Option Nat :=
  match text.toList with
  | '-' :: rest =>
    (Text.natural? 10 rest).or
      ((ExitStatus.signalNames.idxOf? ("SIG" ++ String.ofList rest)).map (· + 1))
  | _ => none

/-- What the words of a command do. -/
def perform (last : Nat) : List String → Effect
  | [] => .status 0
  | ["exit"] => .finished (.exited last)
  | "exit" :: code :: _ =>
    match Text.natural? 10 code.toList with
    | some code => .finished (.exited (code % 256))
    | none => .finished (.exited badSetup)
  | ["kill", "$$"] => .finished (.killed terminateSignal)
  | ["kill", signal, "$$"] =>
    match signalOf? signal with
    | some signal => .finished (.killed signal)
    | none => .status 1
  | "true" :: _ => .status 0
  | ":" :: _ => .status 0
  | "false" :: _ => .status 1
  | "echo" :: _ => .status 0
  | _ => .status notFound

/-- What the words of a command write. -/
def output : List String → String
  | "echo" :: words => " ".intercalate words ++ "\n"
  | _ => ""

/-- Whether reading from a file would wait for ever; none if the file cannot be opened. -/
def waits? (tree : Tree) : Option String → Option Bool
  | none => some false
  | some file =>
    match tree.find ⟨file⟩ with
    | .ok (_, .namedPipe) => some true
    | .ok _ => some false
    | .error _ => none

/-- Writes what a command has to write; none if the file cannot be opened. -/
def write? (tree : Tree) (text : String) : Option String → Option (Tree × List Touch)
  | none => some (tree, [])
  | some file => (tree.append ⟨file⟩ text.toUTF8.toList).toOption

/-- Runs a simple command. -/
def runSimple (tree : Tree) (last : Nat) (command : SimpleCommand) :
    Tree × List Touch × Effect :=
  match waits? tree command.reads with
  | none => (tree, [], .status badSetup)
  | some true => (tree, [], .waiting)
  | some false =>
    match write? tree (output command.words) command.appends with
    | none => (tree, [], .status badSetup)
    | some (tree, touched) => (tree, touched, perform last command.words)

/-- Whether a command runs after a status. -/
def goesOn (last : Nat) : Joint → Bool
  | .always => true
  | .onSuccess => last == 0
  | .onFailure => last != 0

/-- Runs commands in order. No status means that the shell waits for ever. -/
def runAll (tree : Tree) (last : Nat) :
    List (Joint × SimpleCommand) → Tree × List Touch × Option ExitStatus
  | [] => (tree, [], some (.exited last))
  | (joint, command) :: rest =>
    if goesOn last joint then
      match runSimple tree last command with
      | (tree, touched, .finished status) => (tree, touched, some status)
      | (tree, touched, .waiting) => (tree, touched, none)
      | (tree, touched, .status code) =>
        let (tree, further, status) := runAll tree code rest
        (tree, touched ++ further, status)
    else runAll tree last rest

/-- Runs a command text. -/
def run (tree : Tree) (text : String) : Tree × List Touch × Option ExitStatus :=
  runAll tree 0 (commands .always ⟨[], none, none⟩ (tokens none none text.toList))

end Shell

end Keyhold.Host
