import Keyhold.Path
import Keyhold.System.Error

/-!
# The file tree of a simulated host

Directories, regular files, device nodes and named pipes, numbered so that a node stays the
same when it is renamed. Every change of the tree tells which places it touched; from that the
host knows whom to notify. A path is looked up from the root if it begins with a slash and from
the working directory otherwise.
-/

namespace Keyhold.Host

open Keyhold.System

/-- What stands at a place of the tree. -/
inductive Node where
  | directory (parent : Nat) (entries : List (String × Nat))
  | file (content : List UInt8)
  /-- The node of a numbered device. -/
  | device (device : Nat)
  | namedPipe
  deriving DecidableEq, Repr, Inhabited

namespace Node

/-- Whether the node is a directory. -/
def isDirectory : Node → Bool
  | .directory _ _ => true
  | _ => false

end Node

/-- A place that a change has touched. -/
inductive Touch where
  /-- An entry that came into a directory or changed its mode. -/
  | entry (directory : Nat) (name : String)
  /-- A node that changed its mode. -/
  | mode (node : Nat)
  /-- A node that is gone. -/
  | gone (node : Nat)
  deriving DecidableEq, Repr

/-- A file tree: its nodes by number, and where relative paths begin. -/
structure Tree where
  nodes : List Node
  here : Nat
  deriving DecidableEq, Repr, Inhabited

namespace Tree

/-- The number of the outermost directory. -/
def root : Nat := 0

/-- The tree of one empty directory. -/
def empty : Tree := ⟨[.directory root []], root⟩

/-- The node with a number. -/
def node? (tree : Tree) (number : Nat) : Option Node := tree.nodes[number]?

/-- The tree with another node under a number. -/
def setNode (tree : Tree) (number : Nat) (node : Node) : Tree :=
  { tree with nodes := tree.nodes.set number node }

/-- The greatest length of a name in bytes. -/
def nameLimit : Nat := 255

/-- The least length of a path in bytes that is too long. -/
def pathLimit : Nat := 4096

/-- Looks up one piece of a path in a directory. -/
def lookup (parent number : Nat) (entries : List (String × Nat)) (piece : String) :
    Except OsError Nat :=
  if piece = "" ∨ piece = "." then .ok number
  else if piece = ".." then .ok parent
  else if nameLimit < piece.utf8ByteSize then .error .nameTooLong
  else
    match entries.lookup piece with
    | some next => .ok next
    | none => .error .noEntry

/-- Follows pieces of a path from a node. -/
def walk (tree : Tree) (number : Nat) : List String → Except OsError Nat
  | [] => .ok number
  | piece :: rest =>
    match tree.node? number with
    | some (.directory parent entries) =>
      match lookup parent number entries piece with
      | .ok next => tree.walk next rest
      | .error cause => .error cause
    | _ => .error .notDirectory

/-- The pieces of a path. -/
def piecesOf (path : Path) : List String := (Path.pieces path.text.toList).map String.ofList

/-- Where a path begins. -/
def startOf (tree : Tree) (path : Path) : Nat :=
  match path.text.toList with
  | '/' :: _ => root
  | _ => tree.here

/-- The number of the node at a path. -/
def resolve (tree : Tree) (path : Path) : Except OsError Nat :=
  if path.hasNul then .error .nulInName
  else if path.text.isEmpty then .error .noEntry
  else if pathLimit ≤ path.text.utf8ByteSize then .error .nameTooLong
  else tree.walk (tree.startOf path) (piecesOf path)

/-- The node at a path, with its number. -/
def find (tree : Tree) (path : Path) : Except OsError (Nat × Node) :=
  match tree.resolve path with
  | .error cause => .error cause
  | .ok number =>
    match tree.node? number with
    | some node => .ok (number, node)
    | none => .error .noEntry

/-- Adds an entry for a node to a directory, or lets an entry name another node. -/
def link (tree : Tree) (directory : Nat) (name : String) (number : Nat) : Tree :=
  match tree.node? directory with
  | some (.directory parent entries) =>
    tree.setNode directory
      (.directory parent ((entries.filter fun entry => entry.1 != name) ++ [(name, number)]))
  | _ => tree

/-- Removes an entry from a directory. -/
def unlink (tree : Tree) (directory : Nat) (name : String) : Tree :=
  match tree.node? directory with
  | some (.directory parent entries) =>
    tree.setNode directory (.directory parent (entries.filter fun entry => entry.1 != name))
  | _ => tree

/-- Adds a new node under a name in a directory. -/
def add (tree : Tree) (directory : Nat) (name : String) (node : Node) :
    Tree × List Touch :=
  let number := tree.nodes.length
  (({ tree with nodes := tree.nodes ++ [node] } : Tree).link directory name number,
    [.entry directory name])

/-- Follows names from a directory and makes the directories that are missing. -/
def makeDirectories (tree : Tree) (number : Nat) :
    List String → Option (Tree × Nat × List Touch)
  | [] => some (tree, number, [])
  | name :: rest =>
    match tree.node? number with
    | some (.directory parent entries) =>
      match lookup parent number entries name with
      | .ok next => tree.makeDirectories next rest
      | .error _ =>
        let (wider, touched) := tree.add number name (.directory number [])
        (wider.makeDirectories tree.nodes.length rest).map fun (tree, last, further) =>
          (tree, last, touched ++ further)
    | _ => none

/-- The directory of a path, made if it is missing, and the last name of the path. -/
def makeParents (tree : Tree) (path : Path) : Option (Tree × Nat × String × List Touch) :=
  match (piecesOf path).filter (fun piece => piece != "" && piece != ".") with
  | [] => none
  | first :: rest =>
    let names := first :: rest
    (tree.makeDirectories (tree.startOf path) names.dropLast).map
      fun (tree, directory, touched) => (tree, directory, names.getLast?.getD "", touched)

/-- Puts a node that is no directory at a path. A node that stands there is rewritten, which
touches nothing; else the node is new. Nothing happens where a directory is in the way. -/
def put (tree : Tree) (path : Path) (node : Node) : Tree × List Touch :=
  match tree.makeParents path with
  | none => (tree, [])
  | some (wider, directory, name, touched) =>
    match wider.walk directory [name] with
    | .ok number =>
      match wider.node? number with
      | some (.directory _ _) => (tree, [])
      | _ => (wider.setNode number node, touched)
    | .error _ =>
      let (tree, further) := wider.add directory name node
      (tree, touched ++ further)

/-- Makes a directory at a path, with those that it stands in. -/
def putDirectory (tree : Tree) (path : Path) : Tree × List Touch :=
  let names := (piecesOf path).filter fun piece => piece != ""
  match tree.makeDirectories (tree.startOf path) names with
  | some (wider, _, touched) => (wider, touched)
  | none => (tree, [])

/-- The nodes from a place of the tree downwards, down to a limit of levels. -/
def downwards (tree : Tree) : Nat → Nat → List Nat
  | 0, number => [number]
  | limit + 1, number =>
    match tree.node? number with
    | some (.directory _ entries) =>
      entries.flatMap (fun entry => tree.downwards limit entry.2) ++ [number]
    | _ => [number]

/-- The directory and the name under which a path names its node. -/
def placeOf (tree : Tree) (path : Path) : Except OsError (Nat × String) :=
  match path.fileName? with
  | none => .error .noEntry
  | some name =>
    match tree.resolve path.directory with
    | .ok directory => .ok (directory, name)
    | .error cause => .error cause

/-- Removes what stands at a path, with everything below it. -/
def remove (tree : Tree) (path : Path) : Tree × List Touch :=
  match tree.placeOf path, tree.resolve path with
  | .ok (directory, name), .ok number =>
    (tree.unlink directory name, (tree.downwards tree.nodes.length number).map .gone)
  | _, _ => (tree, [])

/-- The node with another directory above it. -/
def moveUnder (tree : Tree) (number directory : Nat) : Tree :=
  match tree.node? number with
  | some (.directory _ entries) => tree.setNode number (.directory directory entries)
  | _ => tree

/-- Gives what stands at a path another path. What stood there before is gone. -/
def rename (tree : Tree) (path target : Path) : Tree × List Touch :=
  match tree.placeOf path, tree.resolve path, tree.placeOf target with
  | .ok (directory, name), .ok number, .ok (place, newName) =>
    let replaced := match tree.resolve target with
      | .ok old => if old = number then [] else [Touch.gone old]
      | .error _ => []
    (((tree.unlink directory name).link place newName number).moveUnder number place,
      replaced ++ [.entry place newName])
  | _, _, _ => (tree, [])

/-- Changes the mode of the node at a path. -/
def changeMode (tree : Tree) (path : Path) : List Touch :=
  match tree.placeOf path, tree.resolve path with
  | .ok (directory, name), .ok number => [.entry directory name, .mode number]
  | _, _ => []

/-- The content of a regular file; a device node has none. -/
def contentOf : Node → Except OsError (List UInt8)
  | .file content => .ok content
  | .directory _ _ => .error .isDirectory
  | .device _ => .ok []
  | .namedPipe => .ok []

/-- Reads the bytes of a file. -/
def readBytes (tree : Tree) (path : Path) : Except OsError (List UInt8) :=
  match tree.find path with
  | .ok (_, node) => contentOf node
  | .error cause => .error cause

/-- Reads a file as text. -/
def readText (tree : Tree) (path : Path) : Except OsError String :=
  match tree.readBytes path with
  | .ok bytes =>
    match String.fromUTF8? ⟨bytes.toArray⟩ with
    | some text => .ok text
    | none => .error .notUnicode
  | .error cause => .error cause

/-- Whether a path names a regular file. -/
def isFile (tree : Tree) (path : Path) : Bool :=
  match tree.find path with
  | .ok (_, .file _) => true
  | .ok (_, .device _) => true
  | _ => false

/-- The names in a directory. -/
def names (tree : Tree) (path : Path) : Except OsError (List String) :=
  match tree.find path with
  | .ok (_, .directory _ entries) => .ok (entries.map (·.1))
  | .ok _ => .error .notDirectory
  | .error cause => .error cause

/-- Adds bytes at the end of a file, which comes to be if nothing is there. -/
def append (tree : Tree) (path : Path) (bytes : List UInt8) :
    Except OsError (Tree × List Touch) :=
  match tree.find path with
  | .ok (number, .file content) => .ok (tree.setNode number (.file (content ++ bytes)), [])
  | .ok (_, .directory _ _) => .error .isDirectory
  | .ok _ => .ok (tree, [])
  | .error .noEntry =>
    match tree.placeOf path with
    | .ok (directory, name) => .ok (tree.add directory name (.file bytes))
    | .error cause => .error cause
  | .error cause => .error cause

end Tree

end Keyhold.Host
