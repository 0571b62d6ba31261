import ScriptBuild.Path.Basic

/-!
# Parts of paths

The directory part, the file name and the extension of a path, and a path below another. The
directory part is a text again: the start of the path up to its last segment, without the slashes
and `.` pieces in between.
-/

namespace ScriptBuild.Path

set_option autoImplicit false

/-- A piece that stands for no segment. -/
def isIdle (piece : List Char) : Bool := (Segment.ofPiece? piece).isNone

def dropIdleEnd (pieces : List (List Char)) : List (List Char) :=
  (pieces.reverse.dropWhile isIdle).reverse

/-- The pieces before the last one that stands for a segment, if there is such a one. -/
def initialPieces? (pieces : List (List Char)) : Option (List (List Char)) :=
  match dropIdleEnd pieces with
  | [] => none
  | significant => some (dropIdleEnd significant.dropLast)

def joinPieces (pieces : List (List Char)) : List Char := List.intercalate ['/'] pieces

def parentText? : List Char → Option (List Char)
  | '/' :: rest => (initialPieces? (Text.pieces '/' rest)).map fun ps => '/' :: joinPieces ps
  | cs =>
    match Text.pieces '/' cs with
    | ['.'] :: rest =>
      match initialPieces? rest with
      | none => some []
      | some ps => some (joinPieces (['.'] :: ps))
    | pieces => (initialPieces? pieces).map joinPieces

/-- The directory part of a path; it is empty for a bare file name. -/
def parent? (p : Path) : Option Path :=
  (parentText? p.text.toList).map fun cs => ⟨String.ofList cs⟩

def fileName? (p : Path) : Option String :=
  match p.segments.getLast? with
  | some (.name text) => some text
  | _ => none

/-- The text after the last dot of a file name, the dot not being its first character. -/
def extensionOf? (name : String) : Option String :=
  let reversed := name.toList.reverse
  match reversed.dropWhile (· ≠ '.') with
  | '.' :: _ :: _ => some (String.ofList (reversed.takeWhile (· ≠ '.')).reverse)
  | _ => none

def extension? (p : Path) : Option String := p.fileName?.bind extensionOf?

def sameIgnoringCase (a b : String) : Bool :=
  a.toList.map Char.toLower == b.toList.map Char.toLower

def hasExtension (p : Path) (extension : String) : Bool :=
  p.extension?.any fun found => sameIgnoringCase found extension

/-- A path below another; an absolute path replaces the one before it. -/
def join (p q : Path) : Path :=
  match q.text.toList with
  | '/' :: _ => q
  | below =>
    match p.text.toList.getLast? with
    | none => q
    | some '/' => ⟨String.ofList (p.text.toList ++ below)⟩
    | some _ => ⟨String.ofList (p.text.toList ++ '/' :: below)⟩

end ScriptBuild.Path
