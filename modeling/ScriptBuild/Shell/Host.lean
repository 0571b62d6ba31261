import ScriptBuild.Build.Process
import ScriptBuild.Shell.Run

/-!
# Starting programs

The shell and the utilities are installed under their names. Any other program is a file that is
marked as one and begins with a line that names an installed interpreter.
-/

namespace ScriptBuild.Shell

set_option autoImplicit false

def runScript (fs : FileSystem) (name : String) (arguments : List String) (contents : Bytes) :
    Exit :=
  match Script.ofText? (Text.decodeLossy contents) with
  | none => ⟨2, [], Text.utf8 (name ++ ": 1: Syntax error\n"), fs⟩
  | some script =>
    let s := runCommands {} { name, arguments, files := fs } script
    ⟨s.status, s.stdout, s.stderr, s.files⟩

def refuse (fs : FileSystem) (reason : String) : Exit :=
  ⟨2, [], Text.utf8 ("sh: 0: " ++ reason ++ "\n"), fs⟩

def runShell (fs : FileSystem) : List String → Exit
  | [] => ⟨0, [], [], fs⟩
  | ["-c"] => refuse fs "-c requires an argument"
  | "-c" :: script :: arguments =>
    runScript fs (arguments.head?.getD "sh") arguments.tail (Text.utf8 script)
  | file :: arguments =>
    match file.toList with
    | '-' :: option :: _ => refuse fs ("Illegal option -" ++ String.singleton option)
    | _ =>
      match fs.read ⟨file⟩ with
      | .ok contents => runScript fs file arguments contents
      | .error e => refuse fs (Session.openError false file e)

def runInstalled? (fs : FileSystem) (name : String) (arguments : List String) : Option Exit :=
  if name = "sh" then some (runShell fs arguments)
  else
    (runUtility? name arguments [] fs).map fun effect =>
      ⟨effect.status, effect.out, effect.err, effect.files⟩

def installationDirectories : List Path := [⟨"/bin"⟩, ⟨"/usr/bin"⟩]

def installedName? (p : Path) : Option String :=
  if installationDirectories.any fun directory => p.parent? == some directory then p.fileName?
  else none

/-- The interpreter that the first line of a program names, and an argument for it. -/
def interpreter? (cs : List Char) : Option (Path × Option String) :=
  match cs with
  | '#' :: '!' :: rest =>
    let line := Text.trim (rest.takeWhile (· ≠ '\n'))
    let isGap (c : Char) : Bool := c == ' ' || c == '\t'
    let argument := (line.dropWhile fun c => !isGap c).dropWhile isGap
    some (⟨String.ofList (line.takeWhile fun c => !isGap c)⟩,
      if argument.isEmpty then none else some (String.ofList argument))
  | _ => none

def startFile (fs : FileSystem) (program : Path) (arguments : List String) :
    Except FileError Exit := do
  match ← fs.lookUp program with
  | .file contents true =>
    match interpreter? (Text.decodeLossy contents) with
    | none => throw .notExecutableFormat
    | some (interpreter, option) =>
      match (installedName? interpreter).bind fun name =>
          runInstalled? fs name (option.toList ++ program.text :: arguments) with
      | some exit => return exit
      | none => throw .notFound
  | _ => throw .permissionDenied

/-- The programs of a host. A program given with a slash is a path, any other one a name. -/
def host : Toolchain := fun fs program arguments =>
  let name := if program.contains '/' then installedName? ⟨program⟩ else some program
  match name.bind fun name => runInstalled? fs name arguments with
  | some exit => .ok exit
  | none =>
    if program.contains '/' then startFile fs ⟨program⟩ arguments else .error .notFound

end ScriptBuild.Shell
