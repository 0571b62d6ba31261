import ScriptBuild.Build.Backend
import ScriptBuild.File.Access
import ScriptBuild.Namespace.Scan
import ScriptBuild.Reference.Resolution

/-!
# Building a module from scripts

A build reads the scripts, resolves the namespaces they import, and has a backend compile them. It
fails before the backend is asked if there is no script, if a script cannot be read, or if the
directory of the output cannot be made; otherwise it succeeds if the backend gives a module with
contents and no error.
-/

namespace ScriptBuild

set_option autoImplicit false

inductive BuildError
  | noSources
  | unreadableSource (source : Path) (cause : FileError)
  | outputDirectory (directory : Path) (cause : FileError)
  | backend (fault : BackendFault)
  /-- The backend ran and gave no usable module. -/
  | compilation (diagnostics : List Diagnostic)
  deriving DecidableEq, Repr

namespace BuildError

def message : BuildError → String
  | .noSources => "No source files were given"
  | .unreadableSource source cause =>
    "Cannot read source file " ++ source.text ++ ": " ++ cause.message
  | .outputDirectory directory cause =>
    "Cannot create output directory " ++ directory.text ++ ": " ++ cause.message
  | .backend fault => fault.message
  | .compilation diagnostics => Diagnostic.report diagnostics

def cause? : BuildError → Option FileError
  | .noSources => none
  | .unreadableSource _ cause => some cause
  | .outputDirectory _ cause => some cause
  | .backend fault => fault.cause?
  | .compilation _ => none

end BuildError

/-- What builds share: the index, the modules loaded by the host, and the options. -/
structure Compiler where
  index : ModuleIndex
  loaded : List Path
  options : BuildOptions

namespace Compiler

def scanSource (fs : FileSystem) (found : NamespaceSet) (source : Path) :
    Except BuildError NamespaceSet :=
  match fs.read source with
  | .ok contents => .ok (found.merge (Scan.contents contents))
  | .error cause => .error (.unreadableSource source cause)

def scanSources (fs : FileSystem) (sources : List Path) : Except BuildError NamespaceSet :=
  sources.foldlM (scanSource fs) NamespaceSet.empty

def resolveSources (compiler : Compiler) (fs : FileSystem) (sources : List Path) :
    Except BuildError Resolution := do
  let namespaces ← scanSources fs sources
  return Resolution.ofNamespaces compiler.index namespaces compiler.loaded

def makeOutputDirectory (fs : FileSystem) (output : Path) : Except BuildError Unit × FileSystem :=
  match output.parent? with
  | none => (.ok (), fs)
  | some directory =>
    let (made, after) := fs.makeDirectories directory
    (made.mapError (.outputDirectory directory), after)

def invocation (compiler : Compiler) (output : Path) (sources : List Path)
    (resolution : Resolution) : Invocation where
  executable := false
  debugInfo := compiler.options.mode.hasDebugInfo
  inMemory := compiler.options.mode.isInMemory
  output := if compiler.options.mode.isInMemory then none else some output
  references := (resolution.references compiler.options.policy).locations
  sources := sources

def judge (output : BackendOutput) : Except BuildError CompiledModule :=
  match output.module with
  | some m =>
    if !output.hasErrors && !m.isEmpty then .ok m else .error (.compilation output.diagnostics)
  | none => .error (.compilation output.diagnostics)

/-- All that comes before the backend is asked: its invocation, and the files as they are then. -/
def prepare (compiler : Compiler) (fs : FileSystem) (output : Path) (sources : List Path) :
    Except BuildError Invocation × FileSystem :=
  if sources.isEmpty then (.error .noSources, fs)
  else
    match compiler.resolveSources fs sources with
    | .error e => (.error e, fs)
    | .ok resolution =>
      let invocation := compiler.invocation output sources resolution
      if invocation.inMemory then (.ok invocation, fs)
      else
        match makeOutputDirectory fs output with
        | (.error e, after) => (.error e, after)
        | (.ok (), after) => (.ok invocation, after)

/-- Builds a module from scripts. In release mode nothing is written to the output path. -/
def compile {Memory : Type} (compiler : Compiler) (backend : Backend Memory) (output : Path)
    (sources : List Path) (fs : FileSystem) (memory : Memory) :
    Outcome Memory BuildError CompiledModule :=
  match compiler.prepare fs output sources with
  | (.error e, after) => ⟨.error e, after, memory⟩
  | (.ok invocation, after) =>
    let ran := backend invocation after memory
    match ran.answer with
    | .error fault => ⟨.error (.backend fault), ran.files, ran.memory⟩
    | .ok produced => ⟨judge produced, ran.files, ran.memory⟩

end Compiler

end ScriptBuild
