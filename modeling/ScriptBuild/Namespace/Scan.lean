import ScriptBuild.Namespace.Declaration
import ScriptBuild.Namespace.Set
import ScriptBuild.Text.Line
import ScriptBuild.Text.Word

/-!
# Scanning scripts for imports

A script is read line by line. Within a line, declarations are looked for from left to right, each
search beginning where the declaration before it ended. A declaration counts only in statement
position: nothing but white space, or the end of a statement or block, comes before it. One that
stands elsewhere is passed over as a whole.
-/

namespace ScriptBuild.Scan

set_option autoImplicit false

/-- The characters after which a statement may begin. -/
def endsStatement (c : Char) : Bool := c == ';' || c == '{' || c == '}'

/-- The declaration at the start of a text, provided the keyword does not continue a word. -/
def declaration? (inWord : Bool) (cs : List Char) : Option (String × List Char) :=
  if inWord then none else Declaration.read? cs

theorem length_of_declaration? {inWord : Bool} {cs rest : List Char} {name : String}
    (h : declaration? inWord cs = some (name, rest)) : rest.length < cs.length := by
  unfold declaration? at h
  split at h
  · simp at h
  · exact Declaration.length_of_read? h

/-- The names declared in the rest of a line. The flags describe the part before it: whether it
ends within a word, and whether, less the white space at its end, it is empty or ends a statement. -/
def namesFrom (inWord atStatement : Bool) : List Char → List String
  | [] => []
  | c :: rest =>
    match _h : declaration? inWord (c :: rest) with
    | some (name, after) =>
      (if atStatement then [name] else []) ++ namesFrom false true after
    | none =>
      namesFrom (Text.isWord c) (if Text.isBlank c then atStatement else endsStatement c) rest
termination_by cs => cs.length
decreasing_by
  · exact length_of_declaration? (by assumption)
  · simp

def lineNames (line : List Char) : List String := namesFrom false true line

def text (cs : List Char) : NamespaceSet :=
  NamespaceSet.ofList ((Text.lines cs).flatMap lineNames)

/-- The namespaces declared in the contents of a file; ill-formed octets become replacement
characters. -/
def contents (bytes : Bytes) : NamespaceSet := text (Text.decodeLossy bytes)

end ScriptBuild.Scan
