import Keyhold.Toml.Value

/-!
# Entering values into tables

A document is a sequence of lines that each add something to a growing table. The rules keep
every table and every value from being defined twice: a key can be set once, a header opens its
table once, and dotted keys add only to tables that dotted keys made. On its way a header or a
key passes through the last element of an array of tables.
-/

namespace Keyhold.Toml

namespace Entries

/-- The value of a key. -/
def value? (entries : Entries) (key : String) : Option Value := entries.lookup key

/-- The entries with the value of a key changed in its place, or added at the end. -/
def set (key : String) (value : Value) : Entries → Entries
  | [] => [(key, value)]
  | (other, old) :: rest =>
    if other = key then (key, value) :: rest else (other, old) :: set key value rest

/-- The last element of an array of tables with an update applied. -/
def updateLast (update : Entries → Option Entries) (elements : List Entries) :
    Option (List Entries) :=
  elements.getLast?.bind fun last =>
    (update last).map fun changed => elements.dropLast ++ [changed]

/-- Applies an update to the table that a header passes through on its way, which comes to be if
nothing is there. -/
def pass (key : String) (update : Entries → Option Entries) (entries : Entries) :
    Option Entries :=
  match entries.value? key with
  | none => (update []).map fun inner => entries.set key (.table .implied inner)
  | some (.table .inline _) => none
  | some (.table origin inner) =>
    (update inner).map fun inner => entries.set key (.table origin inner)
  | some (.tables elements) =>
    (updateLast update elements).map fun elements => entries.set key (.tables elements)
  | some _ => none

/-- Applies an update to the table at a path of headers. -/
def descend (update : Entries → Option Entries) : List String → Entries → Option Entries
  | [], entries => update entries
  | key :: rest, entries => pass key (descend update rest) entries

/-- Opens a table under a key: a new one, or one so far only implied. -/
def openTable (key : String) (entries : Entries) : Option Entries :=
  match entries.value? key with
  | none => some (entries.set key (.table .header []))
  | some (.table .implied inner) => some (entries.set key (.table .header inner))
  | some _ => none

/-- Opens a new element of an array of tables under a key. -/
def openElement (key : String) (entries : Entries) : Option Entries :=
  match entries.value? key with
  | none => some (entries.set key (.tables [[]]))
  | some (.tables elements) => some (entries.set key (.tables (elements ++ [[]])))
  | some _ => none

/-- Sets a key that has no value yet. -/
def define (key : String) (value : Value) (entries : Entries) : Option Entries :=
  match entries.value? key with
  | none => some (entries ++ [(key, value)])
  | some _ => none

/-- Sets the value at a dotted key. The last table on the way must itself come from dotted
keys; those before it must not have been opened by a header. -/
def assign (value : Value) : List String → Entries → Option Entries
  | [], _ => none
  | [key], entries => define key value entries
  | key :: next :: rest, entries =>
    match entries.value? key with
    | none =>
      (assign value (next :: rest) []).map fun inner => entries.set key (.table .dotted inner)
    | some (.table .dotted inner) =>
      (assign value (next :: rest) inner).map fun inner =>
        entries.set key (.table .dotted inner)
    | some (.table .implied inner) =>
      if rest.isEmpty then none
      else
        (assign value (next :: rest) inner).map fun inner =>
          entries.set key (.table .implied inner)
    | some (.tables elements) =>
      if rest.isEmpty then none
      else
        (updateLast (assign value (next :: rest)) elements).map fun elements =>
          entries.set key (.tables elements)
    | some _ => none

/-- The entries that assignments make, in order. -/
def ofAssignments (assignments : List (List String × Value)) : Option Entries :=
  assignments.foldlM (fun entries (keys, value) => assign value keys entries) []

end Entries

end Keyhold.Toml
