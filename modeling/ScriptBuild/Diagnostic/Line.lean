import ScriptBuild.Diagnostic.Basic
import ScriptBuild.Text.Blank
import ScriptBuild.Text.Word

/-!
# Lines of compiler output

A line of output is a diagnostic in one of three forms, tried in this order:

* located: `file(line,column): severity code: message`;
* unlocated: `severity code: message`;
* related: `file(line,column): message`, where the message holds the related-symbol marker.

White space is allowed at the start, around the colons and at the end, and is required after the
severity. A file name may hold blanks and parentheses. Of several ways to read a line, the one that
takes the most white space off its start is preferred, and among those the shortest file name.
-/

namespace ScriptBuild.Diagnostic

set_option autoImplicit false

def decimal (digits : List Char) : Nat :=
  digits.foldl (fun n c => 10 * n + (c.toNat - '0'.toNat)) 0

/-- The number that digits stand for in a place; 0 if it does not fit into 32 bits or is not
written in ASCII digits. -/
def placeNumber (digits : List Char) : UInt32 :=
  if digits.all Char.isDigit && decimal digits < UInt32.size then UInt32.ofNat (decimal digits) else 0

def run? (p : Char → Bool) (cs : List Char) : Option (List Char × List Char) :=
  match cs.takeWhile p with
  | [] => none
  | taken => some (taken, cs.dropWhile p)

def skip? (c : Char) : List Char → Option (List Char)
  | [] => none
  | d :: rest => if d = c then some rest else none

/-- Reads `(line,column)` and a colon, and gives the text after the colon. -/
def place? (cs : List Char) : Option ((UInt32 × UInt32) × List Char) := do
  let afterOpen ← skip? '(' cs
  let (line, afterLine) ← run? Text.isDigit afterOpen
  let afterComma ← skip? ',' afterLine
  let (column, afterColumn) ← run? Text.isDigit afterComma
  let afterClose ← skip? ')' afterColumn
  let rest ← skip? ':' (Text.dropBlank afterClose)
  return ((placeNumber line, placeNumber column), rest)

def severity? : List Char → Option (Severity × List Char)
  | 'e' :: 'r' :: 'r' :: 'o' :: 'r' :: rest => some (.error, rest)
  | 'w' :: 'a' :: 'r' :: 'n' :: 'i' :: 'n' :: 'g' :: rest => some (.warning, rest)
  | _ => none

structure Finding where
  severity : Severity
  code : String
  message : String
  deriving DecidableEq, Repr

/-- Reads `severity code: message` up to the end of the line. -/
def finding? (cs : List Char) : Option Finding := do
  let (severity, afterSeverity) ← severity? cs
  let (_, atCode) ← run? Text.isBlank afterSeverity
  let (code, afterCode) ← run? Text.isWord atCode
  let message ← skip? ':' (Text.dropBlank afterCode)
  return ⟨severity, String.ofList code, String.ofList (Text.trim message)⟩

/-- The rests of a line after white space is taken off its start, the shortest rest first. -/
def unindented : List Char → List (List Char)
  | [] => [[]]
  | c :: rest => if Text.isBlank c then unindented rest ++ [c :: rest] else [c :: rest]

/-- Splits a text after its shortest non-empty part whose rest is readable. -/
def shortest? {α : Type} (read? : List Char → Option α) : List Char → Option (List Char × α)
  | [] => none
  | c :: rest =>
    match read? rest with
    | some a => some ([c], a)
    | none => (shortest? read? rest).map fun (taken, a) => (c :: taken, a)

def withFile? {α : Type} (read? : List Char → Option α) (line : List Char) :
    Option (List Char × α) :=
  (unindented line).findSome? (shortest? read?)

def locatedTail? (cs : List Char) : Option ((UInt32 × UInt32) × Finding) := do
  let (place, rest) ← place? cs
  let finding ← finding? (Text.dropBlank rest)
  return (place, finding)

def relatedTail? (cs : List Char) : Option ((UInt32 × UInt32) × String) := do
  let (place, rest) ← place? cs
  return (place, String.ofList (Text.trim rest))

/-- A recognised line: a diagnostic by itself, or a place that belongs to the entry before it. -/
inductive Line
  | complete (d : Diagnostic)
  | related (file : Path) (line column : UInt32) (message : String)
  deriving DecidableEq, Repr

def located? (line : List Char) : Option Diagnostic :=
  (withFile? locatedTail? line).map fun (file, (l, c), finding) =>
    ⟨⟨String.ofList file⟩, l, c, finding.severity, finding.code, finding.message⟩

def unlocated? (line : List Char) : Option Diagnostic :=
  (finding? (Text.dropBlank line)).map fun finding =>
    ⟨⟨""⟩, 0, 0, finding.severity, finding.code, finding.message⟩

def related? (line : List Char) : Option Line :=
  match withFile? relatedTail? line with
  | none => none
  | some (file, (l, c), message) =>
    if marksRelated message then some (.related ⟨String.ofList file⟩ l c message) else none

def line? (line : List Char) : Option Line :=
  match located? line with
  | some d => some (.complete d)
  | none =>
    match unlocated? line with
    | some d => some (.complete d)
    | none => related? line

end ScriptBuild.Diagnostic
