import ScriptBuild.Diagnostic.Line
import ScriptBuild.Text.Line
import ScriptBuild.Text.Utf8

/-!
# Compiler listings

The diagnostics in the console output of a compiler, line by line. Lines that are no diagnostics
are passed over. A related place has the severity and code of the entry before it; before the
first entry it counts as an error without a code.
-/

namespace ScriptBuild.Diagnostic

set_option autoImplicit false

def Line.after (previous : Option Diagnostic) : Line → Diagnostic
  | .complete d => d
  | .related file line column message =>
    match previous with
    | some d => ⟨file, line, column, d.severity, d.code, message⟩
    | none => ⟨file, line, column, .error, "", message⟩

def entries (previous : Option Diagnostic) : List Line → List Diagnostic
  | [] => []
  | line :: rest => line.after previous :: entries (some (line.after previous)) rest

def recognised (cs : List Char) : List Line := (Text.lines cs).filterMap line?

def ofText (cs : List Char) : List Diagnostic := entries none (recognised cs)

/-- The diagnostics stated in console output; ill-formed octets become replacement characters. -/
def ofOutput (bytes : Bytes) : List Diagnostic := ofText (Text.decodeLossy bytes)

@[simp] theorem entries_nil (previous : Option Diagnostic) : entries previous [] = [] := rfl

@[simp] theorem entries_cons (previous : Option Diagnostic) (line : Line) (rest : List Line) :
    entries previous (line :: rest) =
      line.after previous :: entries (some (line.after previous)) rest := rfl

end ScriptBuild.Diagnostic
