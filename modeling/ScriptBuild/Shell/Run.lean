import ScriptBuild.Shell.Reader
import ScriptBuild.Shell.Utility

/-!
# Running shell scripts

Commands are run in order until one asks for the end of the script. Loops go over words that are
known when they begin, so every script ends.
-/

namespace ScriptBuild.Shell

set_option autoImplicit false

inductive Sink
  | stdout
  | stderr
  | file (place : Location)
  deriving DecidableEq, Repr

structure Streams where
  out : Sink := .stdout
  err : Sink := .stderr
  input : Bytes := []

structure Session where
  /-- The name by which the script complains. -/
  name : String
  arguments : List String
  files : FileSystem
  values : List (String × String) := []
  line : Nat := 1
  status : Nat := 0
  finished : Bool := false
  stdout : Bytes := []
  stderr : Bytes := []

namespace Session

def emit (s : Session) (sink : Sink) (bytes : Bytes) : Session :=
  match sink with
  | .stdout => { s with stdout := s.stdout ++ bytes }
  | .stderr => { s with stderr := s.stderr ++ bytes }
  | .file place => { s with files := s.files.appendAt place bytes }

def complain (s : Session) (streams : Streams) (text : String) : Session :=
  s.emit streams.err (Text.utf8 (s.name ++ ": " ++ toString s.line ++ ": " ++ text ++ "\n"))

def assign (s : Session) (name value : String) : Session :=
  { s with values := (name, value) :: s.values.filter fun entry => entry.1 ≠ name }

def value (s : Session) (name : String) : String :=
  match name with
  | "#" => toString s.arguments.length
  | "?" => toString s.status
  | "0" => s.name
  | "*" => " ".intercalate s.arguments
  | name =>
    match name.toNat? with
    | some n => (s.arguments[n - 1]?).getD ""
    | none => (s.values.lookup name).getD ""

def text (s : Session) (w : Word) : List Char :=
  w.flatMap fun
    | .literal text _ => text
    | .value name cut _ => cut.apply (s.value name).toList
    | .arguments => (s.value "*").toList

def pattern (s : Session) (w : Word) : List Glob :=
  w.flatMap fun
    | .literal text true => text.map Glob.char
    | .literal text false => text.map Glob.ofUnquoted
    | .value name cut true => (cut.apply (s.value name).toList).map Glob.char
    | .value name cut false => (cut.apply (s.value name).toList).map Glob.ofUnquoted
    | .arguments => (s.value "*").toList.map Glob.char

/-- Adds fields to a word: the first goes to the end of the field that has been begun. -/
def addFields (begun : List (List Char) × Option (List Char)) (fields : List (List Char)) :
    List (List Char) × Option (List Char) :=
  fields.foldl (fun (done, current, isFirst) field =>
    if isFirst then (done, some (current.getD [] ++ field), false)
    else (done ++ current.toList, some field, false)) (begun.1, begun.2, true)
  |> fun (done, current, _) => (done, current)

def blankPieces (cs : List Char) : List (List Char) :=
  (Text.pieces ' ' (cs.map fun c => if c = '\t' || c = '\n' then ' ' else c)).filter (· ≠ [])

/-- The fields that a word gives: values outside quotes are split at blanks. -/
def fields (s : Session) (w : Word) : List String :=
  let (done, current) := w.foldl (fun begun part =>
    match part with
    | .literal text _ => addFields begun [text]
    | .value name cut true => addFields begun [cut.apply (s.value name).toList]
    | .value name cut false => addFields begun (blankPieces (cut.apply (s.value name).toList))
    | .arguments => addFields begun (s.arguments.map String.toList)) ([], none)
  (done ++ current.toList).map String.ofList

def openError (creating : Bool) (path : String) (e : FileError) : String :=
  let reason :=
    if e = .notFound || e = .notADirectory then
      if creating then "Directory nonexistent" else "No such file"
    else e.description
  (if creating then "cannot create " else "cannot open ") ++ path ++ ": " ++ reason

def redirect (s : Session) (streams : Streams) :
    List Redirection → Except Session (Session × Streams)
  | [] => .ok (s, streams)
  | .toFile stream append target :: rest =>
    let path := String.ofList (s.text target)
    match s.files.openForWriting ⟨path⟩ (!append) with
    | .error e => .error (s.complain streams (openError true path e))
    | .ok (place, opened) =>
      let s := { s with files := opened }
      match stream with
      | .out => s.redirect { streams with out := .file place } rest
      | .err => s.redirect { streams with err := .file place } rest
  | .toStream stream other :: rest =>
    let sink := match other with
      | .out => streams.out
      | .err => streams.err
    match stream with
    | .out => s.redirect { streams with out := sink } rest
    | .err => s.redirect { streams with err := sink } rest
  | .fromFile source :: rest =>
    let path := String.ofList (s.text source)
    match s.files.read ⟨path⟩ with
    | .error e => .error (s.complain streams (openError false path e))
    | .ok contents => s.redirect { streams with input := contents } rest
  | .fromText text :: rest => s.redirect { streams with input := Text.encode text } rest

def exit (s : Session) (status : Nat) : Session :=
  { s with status := status % 256, finished := true }

def runWords (s : Session) (streams : Streams) : List String → Session
  | [] => { s with status := 0 }
  | name :: args =>
    match name with
    | ":" => { s with status := 0 }
    | "exit" =>
      match args with
      | [] => s.exit s.status
      | status :: _ =>
        match status.toNat? with
        | some n => s.exit n
        | none => (s.complain streams ("exit: Illegal number: " ++ status)).exit 2
    | name =>
      match runUtility? name args streams.input s.files with
      | some effect =>
        let s := { s with files := effect.files, status := effect.status }
        (s.emit streams.out effect.out).emit streams.err effect.err
      | none => { s.complain streams (name ++ ": not found") with status := 127 }

def assignAll (s : Session) (assignments : List (String × Word)) : Session :=
  assignments.foldl (fun s (name, w) => s.assign name (String.ofList (s.text w))) s

/-- Runs a simple command. A redirection that fails ends the script if it belongs to a command that
the shell cannot do without. -/
def runSimple (s : Session) (streams : Streams) (line : Nat) (assignments : List (String × Word))
    (words : List Word) (redirections : List Redirection) : Session :=
  let s := { s with line := line }
  let fields := words.flatMap s.fields
  match s.redirect streams redirections with
  | .error s =>
    if fields.head? = some ":" || fields.head? = some "exit" then s.exit 2
    else { s with status := 2 }
  | .ok (s, inner) => (s.assignAll assignments).runWords inner fields

end Session

def matchesAny (s : Session) (patterns : List Word) (subject : List Char) : Bool :=
  patterns.any fun w => Glob.accepts (s.pattern w) subject

mutual

def runCommand (streams : Streams) (s : Session) : Command → Session
  | .simple line assignments words redirections =>
    s.runSimple streams line assignments words redirections
  | .loop name items body redirections =>
    match s.redirect streams redirections with
    | .error s => { s with status := 2 }
    | .ok (s, inner) =>
      (items.flatMap s.fields).foldl (fun s item =>
        if s.finished then s else runCommands inner (s.assign name item) body)
        { s with status := 0 }
  | .choice subject branches redirections =>
    match s.redirect streams redirections with
    | .error s => { s with status := 2 }
    | .ok (s, inner) => runBranches inner { s with status := 0 } (s.text subject) branches
  | .andThen first onSuccess second =>
    let after := runCommand streams s first
    if after.finished || (after.status == 0) != onSuccess then after
    else runCommand streams after second

def runCommands (streams : Streams) (s : Session) : List Command → Session
  | [] => s
  | c :: rest =>
    let after := runCommand streams s c
    if after.finished then after else runCommands streams after rest

def runBranches (streams : Streams) (s : Session) (subject : List Char) :
    List (List Word × List Command) → Session
  | [] => s
  | (patterns, body) :: rest =>
    if matchesAny s patterns subject then runCommands streams s body
    else runBranches streams s subject rest

end

end ScriptBuild.Shell
