import ScriptBuild.Build.Compiler
import ScriptBuild.Build.Process
import ScriptBuild.Index.Walk

/-!
# The log

What a run tells of itself on standard error, in the order in which it happens: modules that are set
aside, the index, a mode that is not understood, the build and its end, and, for whoever looks for
faults, what the namespaces resolve to and what the external compiler is asked. The events follow
from the same data as the build. Which of them are shown, and what stands around their texts, such
as times, is up to a logger.
-/

namespace ScriptBuild

set_option autoImplicit false

inductive Level
  | debug
  | info
  | warn
  deriving DecidableEq, Repr

inductive Event
  | moduleSkipped (skipped : SkippedModule)
  | indexed (modules : Nat) (root : Path) (skipped : Nat)
  | modeIgnored (reason : OptionError) (used : BuildMode)
  | compiling (sources : Nat) (output : Path) (mode : BuildMode)
  | notExported (name : String)
  | resolved (namespaces modules : Nat)
  | unresolved (names : List String)
  | running (program : String) (sources references : Nat)
  | exited (status : Nat)
  | compiled (length : Nat)
  | failed (errors : Nat)
  deriving DecidableEq, Repr

namespace Event

def level : Event → Level
  | moduleSkipped _ => .warn
  | indexed _ _ _ => .info
  | modeIgnored _ _ => .warn
  | compiling _ _ _ => .info
  | notExported _ => .debug
  | resolved _ _ => .debug
  | unresolved _ => .debug
  | running _ _ _ => .debug
  | exited _ => .debug
  | compiled _ => .info
  | failed _ => .debug

def isNotable (e : Event) : Bool := e.level ≠ .debug

/-- The text of an event, where the faults of module images are put into words by the reader of
JSON. What a resolution has taken of time comes after its text. -/
def text (wording : Path → Metadata.Fault → String) : Event → String
  | moduleSkipped skipped =>
    "Skipping library module " ++ skipped.path.text ++ ": " ++
      skipped.reason.message (wording skipped.path)
  | indexed modules root skipped =>
    "Indexed " ++ toString modules ++ " library modules under " ++ root.text ++ " (" ++
      toString skipped ++ " skipped)"
  | modeIgnored reason used =>
    "Ignoring " ++ BuildMode.environmentVariable ++ ": " ++ reason.message ++ "; using " ++
      used.word ++ " build"
  | compiling sources output mode =>
    "Compiling " ++ toString sources ++ " sources into " ++ output.text ++ " (" ++ mode.word ++
      " build)"
  | notExported name => "No indexed module exports namespace '" ++ name ++ "'"
  | resolved namespaces modules =>
    "Resolved " ++ toString namespaces ++ " namespaces to " ++ toString modules ++ " modules in "
  | unresolved names => "Unresolved namespaces: " ++ ", ".intercalate names
  | running program sources references =>
    "Running " ++ program ++ " with " ++ toString sources ++ " sources and " ++
      toString references ++ " references"
  | exited status => "Compiler exited with exit status: " ++ toString status
  | compiled length => "Compiled " ++ toString length ++ " bytes"
  | failed errors => "Compilation failed with " ++ toString errors ++ " errors"

end Event

/-- A way to write events: which are shown, how the faults of module images are put into words, and
what stands before and after the text of the event that comes n-th. -/
structure Logger where
  shows : Event → Bool
  wording : Path → Metadata.Fault → String
  before : Nat → Event → String
  after : Nat → Event → String

namespace Logger

def off : Logger := ⟨fun _ => false, fun _ => Metadata.Fault.description, fun _ _ => "", fun _ _ => ""⟩

def line (logger : Logger) (e : Event) (n : Nat) : Bytes :=
  if logger.shows e then
    Text.utf8 (logger.before n e ++ e.text logger.wording ++ logger.after n e ++ "\n")
  else []

def write (logger : Logger) (log : List Event) : Bytes :=
  log.zipIdx.flatMap fun (e, n) => logger.line e n

end Logger

def ModuleIndex.log (index : ModuleIndex) (root : Path) : List Event :=
  index.skipped.map .moduleSkipped ++ [.indexed index.size root index.skipped.length]

def BuildMode.log (profile : Profile) : Option String → List Event
  | none => []
  | some value =>
    match ofWord value with
    | .ok _ => []
    | .error reason => [.modeIgnored reason (.ofProfile profile)]

def Resolution.log (r : Resolution) (namespaces : NamespaceSet) : List Event :=
  r.unresolved.map .notExported ++ [.resolved namespaces.size r.matched.length] ++
    if r.unresolved.isEmpty then [] else [.unresolved r.unresolved]

namespace ExternalCompiler

/-- What is logged once the compiler has exited: nothing if its module is looked for, or if there is
no diagnostic to go by. -/
def exitLog (exit : Exit) : List Event :=
  let found := diagnostics exit
  if exit.status ≠ 0 && found.isEmpty then []
  else if exit.status ≠ 0 || found.any Diagnostic.isError then [.exited exit.status]
  else []

def runLog (compiler : ExternalCompiler) (tools : Toolchain) (invocation : Invocation)
    (fs : FileSystem) (path : Path) : List Event :=
  match removeStale fs path with
  | .error _ => []
  | .ok cleared =>
    .running compiler.program invocation.sources.length invocation.references.length ::
      match tools cleared compiler.program (invocation.arguments compiler.extra path) with
      | .error _ => []
      | .ok exit => exitLog exit

def log (compiler : ExternalCompiler) (tools : Toolchain) (invocation : Invocation)
    (fs : FileSystem) : List Event :=
  if invocation.inMemory then
    match fs.makeScratch with
    | .error _ => []
    | .ok (directory, _, made) =>
      compiler.runLog tools invocation made (directory.join memoryModuleName)
  else
    match invocation.output with
    | none => []
    | some path => compiler.runLog tools invocation fs path

end ExternalCompiler

namespace Compiler

def prepareLog (compiler : Compiler) (fs : FileSystem) (output : Path) (sources : List Path) :
    List Event :=
  if sources.isEmpty then []
  else
    .compiling sources.length output compiler.options.mode ::
      match scanSources fs sources with
      | .error _ => []
      | .ok namespaces =>
        (Resolution.ofNamespaces compiler.index namespaces compiler.loaded).log namespaces

def judgeLog : Except BackendFault BackendOutput → List Event
  | .error _ => []
  | .ok output =>
    match judge output with
    | .ok m => [.compiled m.image.length]
    | .error _ => [.failed (Diagnostic.errorCount output.diagnostics)]

def log (compiler : Compiler) (external : ExternalCompiler) (tools : Toolchain) (output : Path)
    (sources : List Path) (fs : FileSystem) : List Event :=
  compiler.prepareLog fs output sources ++
    match compiler.prepare fs output sources with
    | (.error _, _) => []
    | (.ok invocation, after) =>
      external.log tools invocation after ++ judgeLog (external.compile tools invocation after).1

end Compiler

end ScriptBuild
