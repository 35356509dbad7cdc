import Keyhold.Toml.Statement

/-!
# TOML documents

The table that a text denotes. Statements are entered in order: an assignment goes into the
table opened by the last header, or into the outermost table before any header.
-/

namespace Keyhold.Toml

/-- A document while its statements are entered: the outermost table, and the path of the table
that assignments go into. -/
structure Document where
  root : Entries
  place : List String
  deriving Repr, Inhabited

namespace Document

/-- The document without statements. -/
def empty : Document := ⟨[], []⟩

/-- Follows a header: an update of the last key of its path. -/
def followHeader (document : Document) (keys : List String)
    (update : String → Entries → Option Entries) : Option Document := do
  let last ← keys.getLast?
  let root ← Entries.descend (update last) keys.dropLast document.root
  some ⟨root, keys⟩

/-- Enters a statement, if nothing forbids it. -/
def enter (document : Document) : Statement → Option Document
  | .assign keys value => do
    let root ← Entries.descend (Entries.assign value keys) document.place document.root
    some { document with root := root }
  | .table keys => document.followHeader keys Entries.openTable
  | .element keys => document.followHeader keys Entries.openElement

/-- The table that a text denotes, if the text is a TOML document. -/
def ofText? (text : String) : Option Entries := do
  let statements ← Statement.all.whole? text.toList
  let document ← statements.foldlM enter empty
  some document.root

end Document

end Keyhold.Toml
