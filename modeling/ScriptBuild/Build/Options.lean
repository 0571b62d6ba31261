import ScriptBuild.Text.Blank

/-!
# Build options

How the output of a build is produced and which modules it refers to. Both choices are read from
words, without regard to the case of ASCII letters or to white space around them.
-/

namespace ScriptBuild

set_option autoImplicit false

/-- How the program itself is built: with debug assertions, or optimised and without them. -/
inductive Profile
  | development
  | optimised
  deriving DecidableEq, Repr

inductive BuildMode
  /-- With debug information, written to disk. -/
  | debug
  /-- Without debug information, kept in memory. -/
  | release
  deriving DecidableEq, Repr

inductive ReferencePolicy
  /-- The modules loaded by the host. -/
  | loadedOnly
  /-- Those, and the modules of the index that export an imported namespace. -/
  | loadedAndMatched
  deriving DecidableEq, Repr

inductive OptionError
  | unknownMode (word : String)
  | unknownPolicy (word : String)
  deriving DecidableEq, Repr

def OptionError.message : OptionError → String
  | .unknownMode word =>
    "unknown build mode '" ++ word ++ "' (expected 'debug' or 'release')"
  | .unknownPolicy word =>
    "unknown reference policy '" ++ word ++ "' (expected 'loaded' or 'matched')"

/-- A word without the white space around it, its ASCII letters in lower case. -/
def plainWord (s : String) : String := String.ofList ((Text.trim s.toList).map Char.toLower)

namespace BuildMode

def hasDebugInfo : BuildMode → Bool
  | .debug => true
  | .release => false

def isInMemory : BuildMode → Bool
  | .debug => false
  | .release => true

def word : BuildMode → String
  | .debug => "debug"
  | .release => "release"

def ofWord (s : String) : Except OptionError BuildMode :=
  let plain := plainWord s
  if plain = "debug" then .ok .debug
  else if plain = "release" then .ok .release
  else .error (.unknownMode plain)

def environmentVariable : String := "SCRIPTFORGE_BUILD_MODE"

/-- The default mode: the one like the build of the program itself. -/
def ofProfile : Profile → BuildMode
  | .development => .debug
  | .optimised => .release

/-- The mode that a value of the environment variable chooses, or else the default mode. -/
def ofEnvironment (value : Option String) (profile : Profile := .development) : BuildMode :=
  match value with
  | none => ofProfile profile
  | some value =>
    match ofWord value with
    | .ok mode => mode
    | .error _ => ofProfile profile

end BuildMode

namespace ReferencePolicy

instance : Inhabited ReferencePolicy := ⟨.loadedAndMatched⟩

def word : ReferencePolicy → String
  | .loadedOnly => "loaded"
  | .loadedAndMatched => "matched"

def ofWord (s : String) : Except OptionError ReferencePolicy :=
  let plain := plainWord s
  if plain = "loaded" || plain = "loaded-only" then .ok .loadedOnly
  else if plain = "matched" || plain = "loaded-and-matched" then .ok .loadedAndMatched
  else .error (.unknownPolicy plain)

end ReferencePolicy

structure BuildOptions where
  mode : BuildMode
  policy : ReferencePolicy
  deriving DecidableEq, Repr

namespace BuildOptions

def ofProfile (profile : Profile) : BuildOptions := ⟨.ofProfile profile, .loadedAndMatched⟩

instance : EmptyCollection BuildOptions := ⟨ofProfile .development⟩

/-- The options when only the environment variable has a say. -/
def ofEnvironment (value : Option String) (profile : Profile := .development) : BuildOptions :=
  { ofProfile profile with mode := .ofEnvironment value profile }

def override (options : BuildOptions) (mode : Option BuildMode) (policy : Option ReferencePolicy) :
    BuildOptions :=
  ⟨mode.getD options.mode, policy.getD options.policy⟩

end BuildOptions

end ScriptBuild
