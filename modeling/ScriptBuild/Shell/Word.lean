/-!
# Shell words

The words of a shell script: literal text, quoted or not, and the values of variables, from which a
part that matches a pattern may be cut off at either end. In a pattern an unquoted star stands for
any text, and an unquoted question mark for any character.
-/

namespace ScriptBuild.Shell

set_option autoImplicit false

inductive Glob
  | char (c : Char)
  | anyChar
  | anyText
  deriving DecidableEq, Repr

namespace Glob

def ofUnquoted (c : Char) : Glob :=
  if c = '*' then .anyText else if c = '?' then .anyChar else .char c

def restsAfter : Glob → List Char → List (List Char)
  | .char c, d :: rest => if c = d then [rest] else []
  | .anyChar, _ :: rest => [rest]
  | .anyText, [] => [[]]
  | .anyText, c :: rest => (c :: rest) :: restsAfter .anyText rest
  | _, [] => []

def rests : List Glob → List Char → List (List Char)
  | [], cs => [cs]
  | glob :: globs, cs => (restsAfter glob cs).flatMap (rests globs)

def accepts (globs : List Glob) (cs : List Char) : Bool := (rests globs cs).any List.isEmpty

end Glob

/-- What is cut off a value: the shortest or the longest matching part, at the start or the end. -/
inductive Cut
  | whole
  | start (longest : Bool) (pattern : List Glob)
  | finish (longest : Bool) (pattern : List Glob)
  deriving DecidableEq, Repr

namespace Cut

def pick (longer : Bool) (a b : List Char) : List Char :=
  if (a.length < b.length) == longer then b else a

def atStart (longest : Bool) (pattern : List Glob) (cs : List Char) : List Char :=
  match Glob.rests pattern cs with
  | [] => cs
  | rest :: others => others.foldl (pick !longest) rest

def apply : Cut → List Char → List Char
  | .whole, cs => cs
  | .start longest pattern, cs => atStart longest pattern cs
  | .finish longest pattern, cs => (atStart longest pattern.reverse cs.reverse).reverse

end Cut

inductive Part
  | literal (text : List Char) (quoted : Bool)
  | value (name : String) (cut : Cut) (quoted : Bool)
  /-- All arguments of the script, each a word of its own. -/
  | arguments
  deriving DecidableEq, Repr

abbrev Word := List Part

namespace Word

def literal? : Word → Option (List Char)
  | [] => some []
  | .literal text _ :: rest => (literal? rest).map (text ++ ·)
  | _ => none

/-- The text of a word without quotes or variables: only such a word can be a keyword. -/
def plain? (w : Word) : Option String :=
  match w with
  | [.literal text false] => some (String.ofList text)
  | _ => none

end Word

end ScriptBuild.Shell
