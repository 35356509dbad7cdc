import Keyhold.Path
import Keyhold.Toml.Document

/-!
# Settings of a configuration file

The content of a configuration file before its keys and kinds are looked up. Every field has
one type and no other fields are allowed. The record of a key or an action may also be written
as an array of its fields in their order; there, what follows the last field does not matter.
-/

namespace Keyhold.Config

open Keyhold.Toml

/-- A key as the file names it. -/
inductive KeyReference where
  | number (code : Int)
  | name (text : String)
  deriving DecidableEq, Repr

/-- An action of a key in the file. -/
structure ActionSetting where
  kind : String
  time : Option UInt64
  command : String
  exits : Bool
  deriving DecidableEq, Repr

/-- A key in the file. -/
structure KeySetting where
  key : KeyReference
  name : Option String
  actions : List ActionSetting
  deriving DecidableEq, Repr

/-- The whole file. -/
structure Settings where
  debounce : Option UInt64
  inputs : List Path
  waited : List Path
  keys : List KeySetting
  deriving DecidableEq, Repr

/-- Reads a field that may be absent; one that is there must be right. -/
def absentOr {α : Type} (read : Value → Option α) : Option Value → Option (Option α)
  | none => some none
  | some value => (read value).map some

/-- Reads an array of values that are all of one type. -/
def all {α : Type} (read : Value → Option α) (value : Value) : Option (List α) :=
  value.elements?.bind fun elements => elements.mapM read

/-- Reads a count of milliseconds: an integer that is not negative. -/
def millis? (value : Value) : Option UInt64 :=
  value.integer?.bind fun number =>
    if 0 ≤ number then some (UInt64.ofNat number.toNat) else none

/-- The fields of a table in the given order; a field of another name is refused. -/
def named? (names : List String) (entries : Entries) : Option (List (Option Value)) :=
  if entries.all fun entry => names.contains entry.1 then
    some (names.map fun name => entries.value? name)
  else none

/-- The fields of a record. As an array it must reach up to the given count of fields. -/
def fields? (names : List String) (least : Nat) (value : Value) :
    Option (List (Option Value)) :=
  match value.entries? with
  | some entries => named? names entries
  | none =>
    value.elements?.bind fun elements =>
      if least ≤ elements.length then
        some (names.zipIdx.map fun entry => elements[entry.2]?)
      else none

/-- Reads how a key is named. -/
def keyReference? : Value → Option KeyReference
  | .integer number => some (.number number)
  | .text content => some (.name content)
  | _ => none

namespace ActionSetting

/-- The fields of an action; all but the last have to be there in an array. -/
def fieldNames : List String := ["kind", "time_ms", "command", "exit_after"]

/-- Reads an action. -/
def ofValue? (value : Value) : Option ActionSetting := do
  match ← fields? fieldNames 3 value with
  | [kind, time, command, exits] =>
    let kind ← kind.bind Value.text?
    let time ← absentOr millis? time
    let command ← command.bind Value.text?
    let exits ← absentOr Value.boolean? exits
    some ⟨kind, time, command, exits.getD false⟩
  | _ => none

end ActionSetting

namespace KeySetting

/-- The fields of a key; the first two have to be there in an array. -/
def fieldNames : List String := ["code", "name", "action"]

/-- Reads a key. -/
def ofValue? (value : Value) : Option KeySetting := do
  match ← fields? fieldNames 2 value with
  | [code, name, actions] =>
    let key ← code.bind keyReference?
    let name ← absentOr Value.text? name
    let actions ← absentOr (all ActionSetting.ofValue?) actions
    some ⟨key, name, actions.getD []⟩
  | _ => none

end KeySetting

namespace Settings

/-- The fields of the file. -/
def fieldNames : List String := ["debounce_ms", "inputs", "wait_inputs", "key"]

/-- Reads a path. -/
def path? (value : Value) : Option Path := value.text?.map Path.mk

/-- Reads the outermost table. -/
def ofEntries? (entries : Entries) : Option Settings := do
  match ← named? fieldNames entries with
  | [debounce, inputs, waited, keys] =>
    let debounce ← absentOr millis? debounce
    let inputs ← absentOr (all path?) inputs
    let waited ← absentOr (all path?) waited
    let keys ← absentOr (all KeySetting.ofValue?) keys
    some ⟨debounce, inputs.getD [], waited.getD [], keys.getD []⟩
  | _ => none

/-- Reads the text of a file. -/
def ofText? (text : String) : Option Settings := (Document.ofText? text).bind ofEntries?

end Settings

end Keyhold.Config
