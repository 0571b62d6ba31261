import ScriptBuild.Build.Invocation
import ScriptBuild.Diagnostic.Basic
import ScriptBuild.File.System

/-!
# Compiler backends

A backend carries out an invocation on the files: it gives a module, or none, with diagnostics, or
it fails for a reason that lies outside the sources. A backend may remember things from one
invocation to the next.
-/

namespace ScriptBuild

set_option autoImplicit false

structure CompiledModule where
  image : Bytes
  location : Option Path
  deriving DecidableEq, Repr

def CompiledModule.isEmpty (m : CompiledModule) : Bool := m.image.isEmpty

structure BackendOutput where
  module : Option CompiledModule
  diagnostics : List Diagnostic
  deriving DecidableEq, Repr

def BackendOutput.hasErrors (output : BackendOutput) : Bool :=
  output.diagnostics.any Diagnostic.isError

/-- Why a backend fails for reasons outside the sources. -/
inductive BackendFault
  | launch (program : String) (cause : FileError)
  /-- The compiler failed and stated no diagnostic. -/
  | failed (status : String) (complaint : String)
  | misconfigured (reason : String)
  | files (cause : FileError)
  deriving DecidableEq, Repr

namespace BackendFault

def message : BackendFault → String
  | .launch program cause =>
    "Failed to launch compiler '" ++ program ++ "': " ++ cause.message
  | .failed status complaint =>
    "Compiler exited with " ++ status ++ " without reporting diagnostics: " ++ complaint
  | .misconfigured reason => "Invalid backend configuration: " ++ reason
  | .files cause => "Backend I/O error: " ++ cause.message

def cause? : BackendFault → Option FileError
  | .launch _ cause => some cause
  | .failed _ _ => none
  | .misconfigured _ => none
  | .files cause => some cause

end BackendFault

structure Outcome (Memory Error Answer : Type) where
  answer : Except Error Answer
  files : FileSystem
  memory : Memory

/-- A compiler backend that remembers a value of the given type. -/
abbrev Backend (Memory : Type) :=
  Invocation → FileSystem → Memory → Outcome Memory BackendFault BackendOutput

end ScriptBuild
