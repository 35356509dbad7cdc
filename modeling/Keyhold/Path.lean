/-!
# Paths

A path is a text of pieces separated by slashes. Empty pieces and single dots between or after
other pieces mean nothing, so the last real piece names the file and what stands before it is
the directory. A leading slash, or a leading single dot, belongs to the directory.
-/

namespace Keyhold

/-- A file system path as it was written. -/
structure Path where
  text : String
  deriving DecidableEq, Repr, Inhabited

namespace Path

/-- The pieces of a text between slashes. -/
def pieces (text : List Char) : List (List Char) :=
  text.foldr
    (fun c parts =>
      if c = '/' then [] :: parts
      else match parts with
        | [] => [[c]]
        | first :: rest => (c :: first) :: rest)
    [[]]

/-- Whether a piece means nothing where it stands. -/
def isIdle (piece : List Char) : Bool := piece.isEmpty || piece == ['.']

/-- The pieces without idle ones at the end, last piece first. -/
def backwards (parts : List (List Char)) : List (List Char) := parts.reverse.dropWhile isIdle

/-- Pieces joined by slashes. -/
def join (parts : List (List Char)) : List Char := List.intercalate ['/'] parts

/-- What a path begins with. -/
inductive Anchor where
  | root
  | here
  | relative
  deriving DecidableEq, Repr

/-- The anchor of a path and the pieces after it. -/
def split (path : Path) : Anchor × List (List Char) :=
  match pieces path.text.toList with
  | [] => (.relative, [])
  | [] :: [] => (.relative, [])
  | [] :: rest => (.root, rest)
  | ['.'] :: rest => (.here, rest)
  | parts => (.relative, parts)

/-- The name of the file, if the path ends in one. -/
def fileName? (path : Path) : Option String :=
  match backwards path.split.2 with
  | [] => none
  | last :: _ => if last == ['.', '.'] then none else some (String.ofList last)

/-- The directory before the last piece of the path; none if there is no such piece. -/
def parent? (path : Path) : Option Path :=
  match path.split, backwards path.split.2 with
  | (.root, _), [] => none
  | (.here, _), [] => some ⟨""⟩
  | (.relative, _), [] => none
  | (anchor, _), _ :: before =>
    let front := join ((before.dropWhile isIdle).reverse)
    match anchor with
    | .root => some ⟨String.ofList ('/' :: front)⟩
    | .here => some ⟨String.ofList (if front.isEmpty then ['.'] else '.' :: '/' :: front)⟩
    | .relative => some ⟨String.ofList front⟩

/-- The directory in which the file of the path stands, as the system is asked for it. -/
def directory (path : Path) : Path :=
  match path.parent? with
  | some parent => if parent.text.isEmpty then ⟨"."⟩ else parent
  | none => ⟨"."⟩

/-- Whether the path has a NUL character, which no file name can have. -/
def hasNul (path : Path) : Bool := path.text.toList.contains (Char.ofNat 0)

/-- A path below another one. -/
def below (path : Path) (name : String) : Path := ⟨path.text ++ "/" ++ name⟩

end Path

end Keyhold
