import ScriptBuild.CommandLine.Run
import ScriptBuild.Proofs.Build.Frame
import ScriptBuild.Proofs.Shell.Host

/-!
# File trees under the program

The program leaves a file tree a file tree, in all cases in which it ends, as long as the programs at
hand do so: it makes directories, removes a file or a link, starts one program, and takes away the
directory for passing use with all that stands in it.
-/

namespace ScriptBuild

set_option autoImplicit false

open FileSystem

variable {fs : FileSystem} {tools : Toolchain} {output written : Path} {location : Option Path}
  {sources : List Path}

namespace ExternalCompiler

theorem evolvesTo_removeStale {found : FileSystem} (h : removeStale fs written = .ok found) :
    fs.EvolvesTo found := by
  rcases removeStale_eq_ok h with ⟨entry, -, -, hNot, rfl⟩ | ⟨rfl, -⟩
  · exact evolvesTo_erase hNot
  · exact .refl found

theorem evolvesTo_runTo (hTools : tools.Orderly) (external : ExternalCompiler)
    (invocation : Invocation) (fs : FileSystem) :
    fs.EvolvesTo (external.runTo tools invocation fs written location).2 := by
  unfold runTo
  cases hStale : removeStale fs written with
  | error e => exact .refl fs
  | ok found =>
    have hFound := evolvesTo_removeStale hStale
    cases hExited : tools found external.program
        (invocation.arguments external.extra written) with
    | error e => simpa only [hExited] using hFound
    | ok exit => simpa only [hExited] using hFound.trans (hTools.files _ _ _ _ hExited)

theorem evolvesTo_compile (hTools : tools.Orderly) (external : ExternalCompiler)
    (invocation : Invocation) (fs : FileSystem) :
    fs.EvolvesTo (external.compile tools invocation fs).2 := by
  unfold ExternalCompiler.compile
  split
  · split
    · exact .refl fs
    · rename_i directory place made hMade
      exact ((evolvesTo_makeScratch hMade).trans
        (evolvesTo_runTo hTools external invocation made)).trans (evolvesTo_eraseBelow _ place)
  · split
    · exact .refl fs
    · exact evolvesTo_runTo hTools external invocation fs

end ExternalCompiler

namespace Compiler

theorem evolvesTo_prepare (compiler : Compiler) (fs : FileSystem) (output : Path)
    (sources : List Path) : fs.EvolvesTo (compiler.prepare fs output sources).2 := by
  rcases hPrepare : compiler.prepare fs output sources with ⟨prepared, ready⟩
  rcases ExternalCompiler.files_of_prepare hPrepare with rfl | ⟨-, rfl⟩
  · exact .refl ready
  · exact (ExternalCompiler.made_of_makeOutputDirectory fs output).toEvolvesTo

theorem evolvesTo_compile (hTools : tools.Orderly) (compiler : Compiler)
    (external : ExternalCompiler) (fs : FileSystem) (output : Path) (sources : List Path) :
    fs.EvolvesTo (compiler.compile (external.backend tools) output sources fs ()).files := by
  have hReady := evolvesTo_prepare compiler fs output sources
  rcases hPrepare : compiler.prepare fs output sources with ⟨prepared, ready⟩
  rw [hPrepare] at hReady
  cases prepared with
  | error e =>
    rw [compile_of_error hPrepare]
    exact hReady
  | ok invocation =>
    rw [compile_of_ok hPrepare]
    exact hReady.trans (ExternalCompiler.evolvesTo_compile hTools external invocation ready)

end Compiler

namespace CommandLine

theorem evolvesTo_run (hTools : tools.Orderly) (environment : Option String) (args : List String)
    (fs : FileSystem) (profile : Profile) (logger : Logger) :
    fs.EvolvesTo (run tools environment args fs profile logger).files := by
  unfold run
  split
  · exact .refl fs
  · exact .refl fs
  · unfold Request.run
    split
    · exact .refl fs
    · exact Compiler.evolvesTo_compile hTools _ _ fs _ _

/-- With the programs of a host, the program leaves a file tree behind. -/
theorem tree_of_run (fs : FileTree) (environment : Option String) (args : List String)
    (profile : Profile) (logger : Logger) : ∃ after : FileTree,
      (run Shell.host environment args fs profile logger).files = after ∧
        after.workingDirectory = fs.workingDirectory := by
  have hEvolves := evolvesTo_run Shell.orderly_host environment args fs profile logger
  exact ⟨⟨_, hEvolves.isTree fs.isTree, hEvolves.named fs.named⟩, rfl, hEvolves.workingDirectory⟩

end CommandLine

end ScriptBuild
