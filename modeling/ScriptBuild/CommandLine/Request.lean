import ScriptBuild.Build.Options
import ScriptBuild.CommandLine.Argument
import ScriptBuild.Index.Walk

/-!
# Command line requests

What a command line asks for. The arguments are taken from left to right, and the first one that
cannot be accepted, or that asks for a text, decides; whether anything is missing is looked at last.
-/

namespace ScriptBuild.CommandLine

set_option autoImplicit false

structure Request where
  sources : List Path
  output : Path
  indexRoot : Path
  extension : String
  loaded : List Path
  /-- The build mode, if it is not left to the environment. -/
  mode : Option BuildMode
  policy : ReferencePolicy
  compiler : String
  deriving DecidableEq, Repr

def defaultCompiler : String := "csc"

def Parameter.default? : Parameter → Option String
  | .extension => some ModuleIndex.defaultExtension
  | .policy => some ReferencePolicy.loadedAndMatched.word
  | .compiler => some defaultCompiler
  | _ => none

/-- A request as far as it has been given. -/
structure Draft where
  sources : List Path := []
  output : Option Path := none
  indexRoot : Option Path := none
  extension : Option String := none
  loaded : List Path := []
  mode : Option BuildMode := none
  policy : Option ReferencePolicy := none
  compiler : Option String := none
  deriving DecidableEq, Repr

inductive Refusal
  | asked (f : Flag)
  | misused (e : UsageError)
  deriving DecidableEq, Repr

def sourcesWritten : String := "<FILE>..."

def pathOf (written text : String) : Except UsageError Path :=
  if text = "" then .error (.emptyValue written) else .ok ⟨text⟩

/-- A value for a parameter that takes one only. -/
def once {α : Type} (p : Parameter) (present : Option α) (value : Except UsageError α) :
    Except UsageError (Option α) :=
  if present.isSome then .error (.repeated p) else value.map some

namespace Draft

def set (d : Draft) (p : Parameter) (text : String) : Except UsageError Draft := do
  match p with
  | .output => return { d with output := ← once p d.output (pathOf p.written text) }
  | .indexRoot => return { d with indexRoot := ← once p d.indexRoot (pathOf p.written text) }
  | .extension => return { d with extension := ← once p d.extension (.ok text) }
  | .loaded => return { d with loaded := d.loaded ++ [← pathOf p.written text] }
  | .mode =>
    let mode := (BuildMode.ofWord text).mapError fun e => .invalidValue p text e.message
    return { d with mode := ← once p d.mode mode }
  | .policy =>
    let policy := (ReferencePolicy.ofWord text).mapError fun e => .invalidValue p text e.message
    return { d with policy := ← once p d.policy policy }
  | .compiler => return { d with compiler := ← once p d.compiler (.ok text) }

def take (d : Draft) : Item → Except Refusal Draft
  | .source text =>
    match pathOf sourcesWritten text with
    | .ok path => .ok { d with sources := d.sources ++ [path] }
    | .error e => .error (.misused e)
  | .setting p value => (d.set p value).mapError .misused
  | .flag f => .error (.asked f)
  | .fault e => .error (.misused e)

def missing (d : Draft) : List String :=
  (if d.output.isNone then [Parameter.output.written] else []) ++
    (if d.indexRoot.isNone then [Parameter.indexRoot.written] else []) ++
    (if d.sources.isEmpty then [sourcesWritten] else [])

def finish (d : Draft) : Except Refusal Request :=
  match d.output, d.indexRoot, d.sources with
  | some output, some indexRoot, _ :: _ =>
    .ok {
      sources := d.sources
      output
      indexRoot
      extension := d.extension.getD ModuleIndex.defaultExtension
      loaded := d.loaded
      mode := d.mode
      policy := d.policy.getD .loadedAndMatched
      compiler := d.compiler.getD defaultCompiler }
  | _, _, _ => .error (.misused (.missingArguments d.missing))

end Draft

def Request.ofArguments (args : List String) : Except Refusal Request := do
  let draft ← (itemsOf args).foldlM Draft.take {}
  draft.finish

end ScriptBuild.CommandLine
