import ScriptBuild.File.Error

/-!
# Module metadata

What is known of a library module without loading its code: its name and the types it declares,
and the faults for which a module image is refused.
-/

namespace ScriptBuild

set_option autoImplicit false

/-- A type that a library module declares; a type in the global namespace has none. -/
structure TypeDeclaration where
  name : String
  space : Option String
  deriving DecidableEq, Repr, Inhabited

structure Metadata where
  name : Option String
  types : List TypeDeclaration
  deriving DecidableEq, Repr, Inhabited

/-- The first fault met in reading a module image from its start. -/
inductive Metadata.Fault
  | truncated
  | malformed
  | mismatched
  | unreadable
  deriving DecidableEq, Repr

inductive LoadError
  | unopened (cause : FileError)
  | invalid (fault : Metadata.Fault)
  deriving DecidableEq, Repr

def Metadata.Fault.description : Metadata.Fault → String
  | truncated => "the image ends too early"
  | malformed => "the image is not JSON"
  | mismatched => "the image has another shape"
  | unreadable => "the image cannot be read"

/-- The text by which a library file that cannot be loaded is reported. How a fault is put into words
is left to the reader of JSON, which knows more of it than its kind. -/
def LoadError.message (e : LoadError)
    (wording : Metadata.Fault → String := Metadata.Fault.description) : String :=
  match e with
  | .unopened cause => "I/O error: " ++ cause.message
  | .invalid fault => "Invalid module metadata: " ++ wording fault

end ScriptBuild
