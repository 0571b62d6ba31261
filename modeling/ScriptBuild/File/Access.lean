import ScriptBuild.File.Lookup

/-!
# Operations on files

Reading, writing, removing and listing through paths, with the errors that the operating system
gives. An operation that fails leaves the files as they are; the one exception is the making of a
chain of directories, which keeps the directories it has made. Directories for passing use are made
in one place and get a name longer than the others there, where an operating system draws one.
-/

namespace ScriptBuild

set_option autoImplicit false

namespace Path

/-- Whether the path ends with a slash that follows a name. -/
def endsWithSlash (p : Path) : Bool :=
  match p.text.toList.reverse with
  | '/' :: rest => rest.any (· ≠ '/')
  | _ => false

def dropSlashes (p : Path) : Path :=
  if p.endsWithSlash then ⟨String.ofList (p.text.toList.reverse.dropWhile (· == '/')).reverse⟩ else p

/-- The directory parts of a path, each the directory part of the one before, at most as many as
given, and without the empty path at the end. -/
def ancestorsUpTo : Nat → Path → List Path
  | 0, _ => []
  | n + 1, p =>
    match p.parent? with
    | none => []
    | some parent => if parent.text = "" then [] else parent :: ancestorsUpTo n parent

def chain (p : Path) : List Path := p :: ancestorsUpTo p.segments.length p

end Path

namespace FileSystem

def read (fs : FileSystem) (p : Path) : Except FileError Bytes := do
  match ← fs.lookUp p with
  | .file contents _ => return contents
  | _ => throw .isADirectory

def list (fs : FileSystem) (p : Path) : Except FileError (List String) := do
  let place ← fs.locate true p
  match fs.node? place.location with
  | some .directory => return fs.children place.location
  | some _ => throw .notADirectory
  | none => throw .notFound

def makeDirectory (fs : FileSystem) (p : Path) : Except FileError FileSystem := do
  match ← fs.locate false p.dropSlashes with
  | .inside _ => throw .alreadyExists
  | .entry directory name =>
    match fs.node? (directory ++ [name]) with
    | some _ => throw .alreadyExists
    | none => return fs.put (directory ++ [name]) .directory

/-- Makes the first directory of a chain, and before that the rest of the chain as far as it is
missing. An existing directory is as good as one made. -/
def makeChain (fs : FileSystem) : List Path → Except FileError Unit × FileSystem
  | [] => (.ok (), fs)
  | p :: parents =>
    match fs.makeDirectory p with
    | .ok made => (.ok (), made)
    | .error .notFound =>
      match fs.makeChain parents with
      | (.error e, after) => (.error e, after)
      | (.ok (), after) =>
        match after.makeDirectory p with
        | .ok made => (.ok (), made)
        | .error e => (if after.isDirectory p then .ok () else .error e, after)
    | .error e => (if fs.isDirectory p then .ok () else .error e, fs)

def makeDirectories (fs : FileSystem) (p : Path) : Except FileError Unit × FileSystem :=
  if p.text = "" then (.ok (), fs) else fs.makeChain p.chain

/-- Removes an entry that is not a directory; a link is removed itself. -/
def removeFile (fs : FileSystem) (p : Path) : Except FileError FileSystem := do
  match ← fs.locate false p.dropSlashes with
  | .inside _ => throw .isADirectory
  | .entry directory name =>
    match fs.node? (directory ++ [name]) with
    | none => throw .notFound
    | some .directory => throw .isADirectory
    | some _ =>
      if p.endsWithSlash then throw .notADirectory else return fs.erase (directory ++ [name])

/-- Opens a file for writing: makes an empty file if there is none, and empties an existing one if
asked to. Gives the location that is written to. -/
def openForWriting (fs : FileSystem) (p : Path) (truncate : Bool) :
    Except FileError (Location × FileSystem) := do
  if p.endsWithSlash then
    let _ ← fs.locate false p.dropSlashes
    throw .isADirectory
  match ← fs.locate true p with
  | .inside _ => throw .isADirectory
  | .entry directory name =>
    let place := directory ++ [name]
    match fs.node? place with
    | none => return (place, fs.put place (.file [] false))
    | some (.file _ executable) =>
      return (place, if truncate then fs.put place (.file [] executable) else fs)
    | some _ => throw .isADirectory

def appendAt (fs : FileSystem) (place : Location) (bytes : Bytes) : FileSystem :=
  match fs.node? place with
  | some (.file contents executable) => fs.put place (.file (contents ++ bytes) executable)
  | _ => fs

def write (fs : FileSystem) (p : Path) (bytes : Bytes) : Except FileError FileSystem := do
  let (place, opened) ← fs.openForWriting p true
  return opened.appendAt place bytes

def makeExecutable (fs : FileSystem) (p : Path) : Except FileError FileSystem := do
  let place ← fs.locate true p
  match fs.node? place.location with
  | some (.file contents _) => return fs.put place.location (.file contents true)
  | some _ => return fs
  | none => throw .notFound

def makeLink (fs : FileSystem) (p target : Path) : Except FileError FileSystem := do
  if target.text = "" then throw .notFound
  match ← fs.locate false p with
  | .inside _ => throw .alreadyExists
  | .entry directory name =>
    match fs.node? (directory ++ [name]) with
    | some _ => throw .alreadyExists
    | none => return fs.put (directory ++ [name]) (.link target)

/-- A name that no entry of the list has: it is longer than all of them together. -/
def freshName (names : List String) : String :=
  let total := names.foldr (fun name n => name.length + n) 0
  String.ofList ('.' :: 't' :: List.replicate total 't')

def scratchRoot : Path := ⟨"/tmp"⟩

def makeScratch (fs : FileSystem) : Except FileError (Path × Location × FileSystem) := do
  let names ← fs.list scratchRoot
  let path := scratchRoot.join ⟨freshName names⟩
  let made ← fs.makeDirectory path
  let place ← made.locate true path
  return (path, place.location, made)

/-- The text after `directory/` by which a listing shows an entry: directories end with a slash,
links with an at sign. -/
def listingText (below : Location) (node : Node) : String :=
  "/".intercalate below ++
    match node with
    | .file _ _ => ""
    | .directory => "/"
    | .link _ => "@"

def listing (fs : FileSystem) : List String :=
  let below := fs.entries.filterMap fun (place, node) =>
    if fs.workingDirectory.isPrefixOf place && place ≠ fs.workingDirectory then
      some (listingText (place.drop fs.workingDirectory.length) node)
    else none
  below.mergeSort fun a b => !decide (Text.Before b a)

end FileSystem

end ScriptBuild
