import ScriptBuild.Path.Basic

/-!
# Compiler invocations

What a compiler is asked to do, and the command line by which an external compiler is asked for it:
the arguments set by the user, the switches, the references, then the sources.
-/

namespace ScriptBuild

set_option autoImplicit false

structure Invocation where
  /-- Whether a program is wanted; otherwise a library module is. -/
  executable : Bool
  debugInfo : Bool
  /-- Whether the module is kept in memory instead of being written to `output`. -/
  inMemory : Bool
  output : Option Path
  references : List Path
  sources : List Path
  deriving DecidableEq, Repr

namespace Invocation

def targetSwitch (invocation : Invocation) : String :=
  if invocation.executable then "-target:exe" else "-target:library"

def debugSwitch (invocation : Invocation) : String :=
  if invocation.debugInfo then "-debug" else "-debug-"

def outputSwitch (output : Path) : String := "-out:" ++ output.text

def referenceSwitch (reference : Path) : String := "-r:" ++ reference.text

/-- The arguments of an external compiler, after those set by the user. -/
def arguments (invocation : Invocation) (extra : List String) (output : Path) : List String :=
  extra ++ [invocation.targetSwitch, invocation.debugSwitch, outputSwitch output] ++
    invocation.references.map referenceSwitch ++ invocation.sources.map Path.text

end Invocation

end ScriptBuild
