import ScriptBuild.Proofs.File.Scratch

/-!
# File trees under operations

Every operation on files leaves a file tree a file tree: what it puts somewhere stands where a walk
leads to, and what it takes away is no directory, or goes with all that stands in it.
-/

namespace ScriptBuild.FileSystem

set_option autoImplicit false

variable {fs after : FileSystem} {p target path : Path} {location place : Location}
  {truncate : Bool} {bytes : Bytes}

theorem evolvesTo_makeDirectory (h : fs.makeDirectory p = .ok after) : fs.EvolvesTo after :=
  (made_of_makeDirectory h).toEvolvesTo

theorem evolvesTo_makeDirectories (fs : FileSystem) (p : Path) :
    fs.EvolvesTo (fs.makeDirectories p).2 :=
  (made_of_makeDirectories fs p).toEvolvesTo

theorem evolvesTo_removeFile (h : fs.removeFile p = .ok after) : fs.EvolvesTo after := by
  obtain ⟨-, directory, name, left, -, -, hNot, rfl⟩ := removeFile_eq_ok h
  exact evolvesTo_erase hNot

theorem evolvesTo_openForWriting (h : fs.openForWriting p truncate = .ok (location, after)) :
    fs.EvolvesTo after := by
  obtain ⟨-, directory, name, left, hWalk, rfl, hEntry⟩ := openForWriting_eq_ok h
  rcases hEntry with ⟨hNone, rfl⟩ | ⟨contents, executable, hFile, rfl⟩
  · exact evolvesTo_put_of_walk hWalk (by simp [hNone]) _
  · split
    · exact evolvesTo_put_of_node hFile (by simp) _
    · exact .refl fs

theorem evolvesTo_appendAt (fs : FileSystem) (location : Location) (bytes : Bytes) :
    fs.EvolvesTo (fs.appendAt location bytes) := by
  unfold appendAt
  split
  · rename_i hNode
    exact evolvesTo_put_of_node hNode (by simp) _
  · exact .refl fs

theorem evolvesTo_write (h : fs.write p bytes = .ok after) : fs.EvolvesTo after := by
  obtain ⟨location, opened, hOpened, rfl⟩ := write_eq_ok h
  exact (evolvesTo_openForWriting hOpened).trans (evolvesTo_appendAt opened location bytes)

theorem evolvesTo_makeLink (h : fs.makeLink p target = .ok after) : fs.EvolvesTo after := by
  obtain ⟨directory, name, left, hWalk, hNone, rfl⟩ := makeLink_eq_ok h
  exact evolvesTo_put_of_walk hWalk (by simp [hNone]) _

theorem evolvesTo_makeScratch (h : fs.makeScratch = .ok (path, place, after)) :
    fs.EvolvesTo after := by
  obtain ⟨names, reached, left, -, -, hMade, -⟩ := makeScratch_eq_ok h
  exact evolvesTo_makeDirectory hMade

end ScriptBuild.FileSystem
