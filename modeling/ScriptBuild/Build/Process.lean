import ScriptBuild.Build.Backend
import ScriptBuild.Diagnostic.Listing
import ScriptBuild.File.Access

/-!
# Running an external compiler

The backend that starts a program. What stands at the output path is removed before the start, so a
module found there afterwards is the work of this run. In memory builds write to a directory for
passing use, which is removed in any case. The diagnostics are those of the standard output followed
by those of the standard error. A program ends with a number; its end by a signal is left out.
-/

namespace ScriptBuild

set_option autoImplicit false

structure Exit where
  status : Nat
  stdout : Bytes
  stderr : Bytes
  files : FileSystem

/-- The programs at hand: what starting one with arguments does to the files. -/
abbrev Toolchain := FileSystem → String → List String → Except FileError Exit

structure ExternalCompiler where
  program : String
  extra : List String
  deriving DecidableEq, Repr

namespace ExternalCompiler

def memoryModuleName : Path := ⟨"module.dll"⟩

/-- Removes what an earlier build has left at a path. -/
def removeStale (fs : FileSystem) (path : Path) : Except FileError FileSystem :=
  match fs.removeFile path with
  | .ok removed => .ok removed
  | .error .notFound => .ok fs
  | .error e => .error e

def readModule (fs : FileSystem) (path : Path) (location : Option Path) :
    Except FileError (Option CompiledModule) :=
  match fs.read path with
  | .ok image => .ok (some ⟨image, location⟩)
  | .error .notFound => .ok none
  | .error e => .error e

def diagnostics (exit : Exit) : List Diagnostic :=
  Diagnostic.ofOutput exit.stdout ++ Diagnostic.ofOutput exit.stderr

def conclude (exit : Exit) (path : Path) (location : Option Path) :
    Except BackendFault BackendOutput :=
  let found := diagnostics exit
  if exit.status ≠ 0 && found.isEmpty then
    .error (.failed ("exit status: " ++ toString exit.status)
      (String.ofList (Text.trim (Text.decodeLossy exit.stderr))))
  else if exit.status ≠ 0 || found.any Diagnostic.isError then .ok ⟨none, found⟩
  else
    match readModule exit.files path location with
    | .ok produced => .ok ⟨produced, found⟩
    | .error e => .error (.files e)

def runTo (compiler : ExternalCompiler) (tools : Toolchain) (invocation : Invocation)
    (fs : FileSystem) (path : Path) (location : Option Path) :
    Except BackendFault BackendOutput × FileSystem :=
  match removeStale fs path with
  | .error e => (.error (.files e), fs)
  | .ok cleared =>
    match tools cleared compiler.program (invocation.arguments compiler.extra path) with
    | .error e => (.error (.launch compiler.program e), cleared)
    | .ok exit => (conclude exit path location, exit.files)

def compile (compiler : ExternalCompiler) (tools : Toolchain) (invocation : Invocation)
    (fs : FileSystem) : Except BackendFault BackendOutput × FileSystem :=
  if invocation.inMemory then
    match fs.makeScratch with
    | .error e => (.error (.files e), fs)
    | .ok (directory, place, made) =>
      let (answer, after) :=
        compiler.runTo tools invocation made (directory.join memoryModuleName) none
      (answer, after.eraseBelow place)
  else
    match invocation.output with
    | none => (.error (.misconfigured "disk-mode compile requires an output path"), fs)
    | some path => compiler.runTo tools invocation fs path (some path)

def backend (compiler : ExternalCompiler) (tools : Toolchain) : Backend Unit :=
  fun invocation fs _ =>
    let (answer, files) := compiler.compile tools invocation fs
    ⟨answer, files, ()⟩

end ExternalCompiler

end ScriptBuild
