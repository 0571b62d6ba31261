import ScriptBuild.CommandLine.Run
import ScriptBuild.Shell.Host

/-!
# The program

The files that a command line is about are copied into a file system, the command line is run on
it, and what has changed is carried out on disk. Compilers are scripts, run by the shell of this
library.
-/

namespace ScriptBuild.Main

set_option autoImplicit false

def depthLimit : Nat := 64

def diskPath (place : Location) : String := "/" ++ "/".intercalate place

/-- The location that a path leads to, links left aside. -/
def placeOf (start : Location) (p : Path) : Location :=
  p.steps.foldl (fun place step =>
    match step with
    | .stay => place
    | .up => place.dropLast
    | .enter name => place ++ [name]) (if p.isAbsolute then [] else start)

def isProgram (contents : Bytes) : Bool := (Text.utf8 "#!").isPrefixOf contents

def copyEntry (fs : FileSystem) (place : Location) : IO FileSystem := do
  if place.isEmpty then return fs
  try
    let path ← IO.FS.realPath (diskPath place)
    if ← path.isDir then return fs.put place .directory
    if ← path.pathExists then
      let contents := (← IO.FS.readBinFile (diskPath place)).toList
      return fs.put place (.file contents (isProgram contents))
    return fs
  catch _ => return fs

def copyWay (fs : FileSystem) (place : Location) : IO FileSystem :=
  ((List.range (place.length + 1)).map place.take).foldlM copyEntry fs

def copyBelow : Nat → FileSystem → Location → IO FileSystem
  | 0, fs, _ => return fs
  | depth + 1, fs, place => do
    try
      let path ← IO.FS.realPath (diskPath place)
      unless ← path.isDir do return fs
      let names := (← path.readDir).toList.map fun entry => entry.fileName
      names.foldlM (fun fs name => do
        copyBelow depth (← copyEntry fs (place ++ [name])) (place ++ [name])) fs
    catch _ => return fs

def copyFor (request : CommandLine.Request) (start : Location) : IO FileSystem := do
  let single := [FileSystem.scratchRoot, request.output, ⟨request.compiler⟩] ++ request.sources
  let places := start :: single.map (placeOf start)
  let fs ← places.foldlM copyWay { FileSystem.empty with workingDirectory := start }
  let root := placeOf start request.indexRoot
  copyBelow depthLimit (← copyWay fs root) root

def carryOut (before : FileSystem) (entry : Location × Node) : IO Unit := do
  if before.node? entry.1 = some entry.2 then return
  match entry.2 with
  | .directory => IO.FS.createDirAll (diskPath entry.1)
  | .file contents _ => IO.FS.writeBinFile (diskPath entry.1) ⟨contents.toArray⟩
  | .link _ => return

def removeEntry (entry : Location × Node) : IO Unit :=
  match entry.2 with
  | .directory => IO.FS.removeDir (diskPath entry.1)
  | _ => IO.FS.removeFile (diskPath entry.1)

def byDepth (entries : List (Location × Node)) : List (Location × Node) :=
  entries.mergeSort fun a b => a.1.length ≤ b.1.length

def carryOutAll (before after : FileSystem) : IO Unit := do
  let removed := before.entries.filter fun entry => (after.node? entry.1).isNone
  (byDepth removed).reverse.forM removeEntry
  (byDepth after.entries).forM (carryOut before)

/-- Shows the events of note, or none if the filter says so. -/
def loggerFor (filter : Option String) : Logger :=
  { Logger.off with shows := fun e => filter ≠ some "off" && e.isNotable }

def emit (stream : IO.FS.Stream) (bytes : Bytes) : IO Unit := do
  stream.write ⟨bytes.toArray⟩
  stream.flush

end ScriptBuild.Main

def main (args : List String) : IO UInt32 := do
  let start := ScriptBuild.Main.placeOf [] ⟨(← IO.FS.realPath ".").toString⟩
  let files ←
    match ScriptBuild.CommandLine.Request.ofArguments args with
    | .ok request => ScriptBuild.Main.copyFor request start
    | .error _ => pure ScriptBuild.FileSystem.empty
  let environment ← IO.getEnv ScriptBuild.BuildMode.environmentVariable
  let logger := ScriptBuild.Main.loggerFor (← IO.getEnv "RUST_LOG")
  let ran :=
    ScriptBuild.CommandLine.run ScriptBuild.Shell.host environment args files .development logger
  ScriptBuild.Main.carryOutAll files ran.files
  ScriptBuild.Main.emit (← IO.getStdout) ran.stdout
  ScriptBuild.Main.emit (← IO.getStderr) ran.stderr
  return UInt32.ofNat ran.status
