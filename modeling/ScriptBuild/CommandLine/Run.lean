import ScriptBuild.Build.Log
import ScriptBuild.CommandLine.Request

/-!
# Running the command line

The whole program as a function of the files, the value of the environment variable and the
arguments, and of two things that are fixed beforehand: the profile it was built under and the
logger. The status is 0 if a module is built or a text was asked for, 1 if the sources do not
compile, and 2 in all other cases. On standard error the log comes first, and then the text, if
there is one, by which the program ends.
-/

namespace ScriptBuild.CommandLine

set_option autoImplicit false

def programName : String := "scriptforgec"

def programVersion : String := "0.1.0"

def summary : String :=
  "scriptforge - compiles script sources into a library module with resolved references"

def Parameter.summary : Parameter → String
  | .output => "Output module path"
  | .indexRoot => "Root directory of the library module index"
  | .extension => "File extension of library modules"
  | .loaded => "Module loaded by the host runtime (always referenced)"
  | .mode =>
    "Build mode: debug or release (defaults to $" ++ BuildMode.environmentVariable ++ ")"
  | .policy => "Reference policy: matched or loaded"
  | .compiler => "Compiler executable"

def Flag.summary : Flag → String
  | .help => "Print help"
  | .version => "Print version"

/-- A line of the help text: the letter, the long form, and what it is for. -/
def helpLine (letter : Option Char) (written text : String) : String :=
  let name :=
    match letter with
    | some c => "  -" ++ String.singleton c ++ ", " ++ written
    | none => "      " ++ written
  name.pushn ' ' (31 - name.length) ++ text ++ "\n"

def Parameter.helpLine (p : Parameter) : String :=
  let note :=
    match p.default? with
    | some value => " [default: " ++ value ++ "]"
    | none => ""
  CommandLine.helpLine p.letter? p.written (p.summary ++ note)

def Flag.helpLine (f : Flag) : String :=
  CommandLine.helpLine (some f.letter) ("--" ++ f.long) f.summary

def usage : String :=
  "Usage: " ++ programName ++ " [OPTIONS] " ++ Parameter.output.written ++ " " ++
    Parameter.indexRoot.written ++ " " ++ sourcesWritten ++ "\n"

def helpText : String :=
  summary ++ "\n\n" ++ usage ++ "\nArguments:\n  " ++ sourcesWritten ++
    "  Script source files\n\nOptions:\n" ++ String.join (Parameter.all.map Parameter.helpLine) ++
    String.join (Flag.all.map Flag.helpLine)

def Flag.text : Flag → String
  | .help => helpText
  | .version => programName ++ " " ++ programVersion ++ "\n"

def UsageError.report (e : UsageError) : String :=
  "error: " ++ e.message ++ "\n\n" ++ usage ++ "\nFor more information, try '--help'.\n"

def successText (m : CompiledModule) : String :=
  let place :=
    match m.location with
    | some path => path.text
    | none => "in memory"
  "Compiled " ++ place ++ " (" ++ toString m.image.length ++ " bytes)\n"

def errorText (message : String) (cause? : Option FileError) : String :=
  let cause :=
    match cause? with
    | some cause => ": " ++ cause.message
    | none => ""
  "Error: " ++ message ++ cause ++ "\n"

def failureText (e : BuildError) : String := errorText e.message e.cause?

def indexFailureText (e : IndexError) : String :=
  errorText ("failed to build module index: " ++ e.message) e.cause?

/-- The status by which a build ends, its text on standard output, and the text that standard error
ends with. -/
def verdict : Except BuildError CompiledModule → Nat × String × String
  | .ok m => (0, successText m, "")
  | .error (.compilation diagnostics) => (1, "", Diagnostic.report diagnostics ++ "\n")
  | .error e => (2, "", failureText e)

namespace Request

def compilerWith (request : Request) (index : ModuleIndex) (environment : Option String)
    (profile : Profile) : Compiler where
  index := index
  loaded := request.loaded
  options :=
    (BuildOptions.ofEnvironment environment profile).override request.mode (some request.policy)

def log (request : Request) (index : ModuleIndex) (tools : Toolchain)
    (environment : Option String) (fs : FileSystem) (profile : Profile) : List Event :=
  index.log request.indexRoot ++ BuildMode.log profile environment ++
    (request.compilerWith index environment profile).log ⟨request.compiler, []⟩ tools
      request.output request.sources fs

def run (request : Request) (tools : Toolchain) (environment : Option String) (fs : FileSystem)
    (profile : Profile) (logger : Logger) : Exit :=
  match ModuleIndex.build fs .image request.extension request.indexRoot with
  | .error e => ⟨2, [], Text.utf8 (indexFailureText e), fs⟩
  | .ok index =>
    let backend := ExternalCompiler.backend ⟨request.compiler, []⟩ tools
    let built := (request.compilerWith index environment profile).compile backend request.output
      request.sources fs ()
    let (status, out, err) := verdict built.answer
    let log := request.log index tools environment fs profile
    ⟨status, Text.utf8 out, logger.write log ++ Text.utf8 err, built.files⟩

end Request

def run (tools : Toolchain) (environment : Option String) (args : List String) (fs : FileSystem)
    (profile : Profile := .development) (logger : Logger := .off) : Exit :=
  match Request.ofArguments args with
  | .error (.asked f) => ⟨0, Text.utf8 f.text, [], fs⟩
  | .error (.misused e) => ⟨2, [], Text.utf8 e.report, fs⟩
  | .ok request => request.run tools environment fs profile logger

end ScriptBuild.CommandLine
