import ScriptBuild.File.Access

/-!
# Utilities

The programs that shell scripts use most: showing and printing text, and removing, making and
copying files. Each takes its arguments and what it reads, and tells what it writes, its status and
the files as it leaves them.
-/

namespace ScriptBuild.Shell

set_option autoImplicit false

structure Effect where
  files : FileSystem
  out : Bytes := []
  err : Bytes := []
  status : Nat := 0

namespace Effect

/-- Adds one more effect; the status is that of the last failure. -/
def andAlso (first second : Effect) : Effect :=
  ⟨second.files, first.out ++ second.out, first.err ++ second.err,
    if second.status = 0 then first.status else second.status⟩

def onEach (action : FileSystem → String → Effect) (fs : FileSystem) (args : List String) : Effect :=
  args.foldl (fun done arg => done.andAlso (action done.files arg)) { files := fs }

def failure (fs : FileSystem) (complaint : String) : Effect :=
  { files := fs, err := Text.utf8 (complaint ++ "\n"), status := 1 }

def ofResult (fs : FileSystem) (complaint : String) : Except FileError FileSystem → Effect
  | .ok changed => { files := changed }
  | .error e => failure fs (complaint ++ ": " ++ e.description)

end Effect

inductive FormatPiece
  | octet (b : UInt8)
  | char (c : Char)
  | argument
  deriving DecidableEq, Repr

inductive FormatMode
  | plain
  | backslash
  | octal (count value : Nat)
  deriving DecidableEq, Repr

def controlCharacter? (c : Char) : Option Char :=
  match c with
  | 'a' => some '\x07'
  | 'b' => some '\x08'
  | 'f' => some '\x0c'
  | 'n' => some '\n'
  | 'r' => some '\r'
  | 't' => some '\t'
  | 'v' => some '\x0b'
  | '\\' => some '\\'
  | _ => none

def octalDigit? (c : Char) : Option Nat :=
  if '0' ≤ c && c ≤ '7' then some (c.toNat - '0'.toNat) else none

/-- The pieces of a format, in which a backslash begins an escape. -/
def formatPieces : FormatMode → List Char → List FormatPiece
  | .plain, [] => []
  | .backslash, [] => [.char '\\']
  | .octal _ value, [] => [.octet value.toUInt8]
  | .plain, c :: rest =>
    if c = '\\' then formatPieces .backslash rest
    else if c = '%' then
      match rest with
      | 's' :: rest => .argument :: formatPieces .plain rest
      | '%' :: rest => .char '%' :: formatPieces .plain rest
      | rest => .char '%' :: formatPieces .plain rest
    else .char c :: formatPieces .plain rest
  | .backslash, c :: rest =>
    match octalDigit? c with
    | some digit => formatPieces (.octal 1 digit) rest
    | none =>
      match controlCharacter? c with
      | some d => .char d :: formatPieces .plain rest
      | none => .char '\\' :: .char c :: formatPieces .plain rest
  | .octal count value, c :: rest =>
    match if count < 3 then octalDigit? c else none with
    | some digit => formatPieces (.octal (count + 1) (value * 8 + digit)) rest
    | none => .octet value.toUInt8 :: formatPieces .plain (c :: rest)
termination_by mode cs => (cs.length, if mode matches .octal _ _ then 1 else 0)

def writePieces : List FormatPiece → List String → Bytes
  | [], _ => []
  | .octet b :: rest, args => b :: writePieces rest args
  | .char c :: rest, args => String.utf8EncodeChar c ++ writePieces rest args
  | .argument :: rest, args =>
    Text.utf8 (args.head?.getD "") ++ writePieces rest args.tail

/-- Writes a format over and over until the arguments are used up, and at least once. -/
def printFormat (format : String) (args : List String) : Bytes :=
  let pieces := formatPieces .plain format.toList
  let width := pieces.count .argument
  let rounds := if width = 0 then 1 else max 1 ((args.length + width - 1) / width)
  (List.range rounds).flatMap fun round => writePieces pieces (args.drop (round * width))

def echo (args : List String) : Bytes :=
  let (lineEnd, words) : Bytes × List String :=
    match args with
    | "-n" :: rest => ([], rest)
    | words => (Text.utf8 "\n", words)
  let text := (" ".intercalate words).toList.flatMap fun c => if c = '%' then ['%', '%'] else [c]
  writePieces (formatPieces .plain text) [] ++ lineEnd

/-- The letters of the options before the other arguments, and these. -/
def splitOptions (args : List String) : List Char × List String :=
  let isOption (arg : String) : Bool := arg.toList.head? == some '-' && arg ≠ "-"
  ((args.takeWhile isOption).flatMap fun arg => arg.toList.tail, args.dropWhile isOption)

def showFiles (fs : FileSystem) (input : Bytes) (args : List String) : Effect :=
  if args.isEmpty then { files := fs, out := input }
  else
    Effect.onEach (fun fs arg =>
      if arg = "-" then { files := fs, out := input }
      else
        match fs.read ⟨arg⟩ with
        | .ok contents => { files := fs, out := contents }
        | .error e => .failure fs ("cat: " ++ arg ++ ": " ++ e.description)) fs args

def removeFiles (fs : FileSystem) (args : List String) : Effect :=
  let (options, names) := splitOptions args
  Effect.onEach (fun fs name =>
    match fs.removeFile ⟨name⟩ with
    | .ok removed => { files := removed }
    | .error .notFound =>
      if options.contains 'f' then { files := fs }
      else .failure fs ("rm: cannot remove '" ++ name ++ "': " ++ FileError.notFound.description)
    | .error .isADirectory =>
      match options.any ['r', 'R'].contains, fs.locate false (Path.dropSlashes ⟨name⟩) with
      | true, .ok place => { files := fs.eraseBelow place.location }
      | _, _ =>
        .failure fs ("rm: cannot remove '" ++ name ++ "': " ++ FileError.isADirectory.description)
    | .error e => .failure fs ("rm: cannot remove '" ++ name ++ "': " ++ e.description)) fs names

def makeDirectories (fs : FileSystem) (args : List String) : Effect :=
  let (options, names) := splitOptions args
  Effect.onEach (fun fs name =>
    let complaint := "mkdir: cannot create directory '" ++ name ++ "'"
    if options.contains 'p' then
      match fs.makeDirectories ⟨name⟩ with
      | (.ok (), made) => { files := made }
      | (.error e, made) => .ofResult made complaint (.error e)
    else .ofResult fs complaint (fs.makeDirectory ⟨name⟩)) fs names

def copyFile (fs : FileSystem) (source target : String) : Effect :=
  match fs.read ⟨source⟩ with
  | .error e => .failure fs ("cp: cannot stat '" ++ source ++ "': " ++ e.description)
  | .ok contents =>
    let path : Path :=
      if fs.isDirectory ⟨target⟩ then Path.join ⟨target⟩ ⟨(Path.fileName? ⟨source⟩).getD ""⟩
      else ⟨target⟩
    .ofResult fs ("cp: cannot create regular file '" ++ path.text ++ "'") (fs.write path contents)

def touchFile (fs : FileSystem) (name : String) : Effect :=
  .ofResult fs ("touch: cannot touch '" ++ name ++ "'")
    (if fs.isDirectory ⟨name⟩ then .ok fs else (fs.openForWriting ⟨name⟩ false).map Prod.snd)

def runUtility? (name : String) (args : List String) (input : Bytes) (fs : FileSystem) :
    Option Effect :=
  match name with
  | "true" => some { files := fs }
  | "false" => some { files := fs, status := 1 }
  | "echo" => some { files := fs, out := echo args }
  | "printf" => some { files := fs, out := printFormat (args.head?.getD "") args.tail }
  | "cat" => some (showFiles fs input args)
  | "rm" => some (removeFiles fs args)
  | "mkdir" => some (makeDirectories fs args)
  | "touch" => some (.onEach touchFile fs args)
  | "cp" =>
    match (splitOptions args).2 with
    | [source, target] => some (copyFile fs source target)
    | _ => some (.failure fs "cp: missing file operand")
  | "ln" =>
    match splitOptions args with
    | (['s'], [target, name]) =>
      some (.ofResult fs ("ln: failed to create symbolic link '" ++ name ++ "'")
        (fs.makeLink ⟨name⟩ ⟨target⟩))
    | _ => some (.failure fs "ln: missing file operand")
  | _ => none

end ScriptBuild.Shell
