import ScriptBuild.Proofs.Build.Course
import ScriptBuild.Proofs.Build.Product
import ScriptBuild.Proofs.File.Route
import ScriptBuild.Proofs.File.Scratch
import ScriptBuild.Proofs.Index.Build

/-!
# The files at the launch

What a build does to the files before its compiler is started: in debug mode it makes the directory
of the output and removes what stands at the output path, in release mode it makes a directory for
passing use. Nothing compares the output path with the scripts and the references, so a script that
is reached through what is removed is gone when the compiler is to read it. Everything else is still
there, with the same contents.
-/

namespace ScriptBuild.ExternalCompiler

set_option autoImplicit false

open FileSystem

variable {external : ExternalCompiler} {tools tools' : Toolchain} {invocation : Invocation}
  {fs ready target found : FileSystem} {written output p : Path} {location : Option Path}
  {compiler : Compiler} {sources : List Path} {contents : Bytes}

/-- A build has a compiler started with an invocation, to write to a path, on the files found. -/
def Launches (compiler : Compiler) (output : Path) (sources : List Path) (fs : FileSystem)
    (invocation : Invocation) (written : Path) (found : FileSystem) : Prop :=
  ∃ ready location target, compiler.prepare fs output sources = (.ok invocation, ready) ∧
    Target ready invocation written location target ∧ removeStale target written = .ok found

/-- What a compiler does on other files than those it is launched on makes no difference. -/
theorem compile_of_launched
    (h : ∀ invocation written found, Launches compiler output sources fs invocation written found →
      tools found external.program (invocation.arguments external.extra written) =
        tools' found external.program (invocation.arguments external.extra written)) :
    compiler.compile (external.backend tools) output sources fs () =
      compiler.compile (external.backend tools') output sources fs () := by
  rcases hPrepare : compiler.prepare fs output sources with ⟨prepared, ready⟩
  cases prepared with
  | error e => rw [Compiler.compile_of_error hPrepare, Compiler.compile_of_error hPrepare]
  | ok invocation =>
    have hRun : ∀ written location target, Target ready invocation written location target →
        external.runTo tools invocation target written location =
          external.runTo tools' invocation target written location := by
      intro written location target hTarget
      unfold runTo
      cases hCleared : removeStale target written with
      | error e => rfl
      | ok found =>
        simp only
        rw [h invocation written found ⟨ready, location, target, hPrepare, hTarget, hCleared⟩]
    have hSame : external.compile tools invocation ready =
        external.compile tools' invocation ready := by
      unfold ExternalCompiler.compile
      split
      · rename_i hMode
        split
        · rfl
        · rename_i hMade
          rw [hRun _ _ _ (.memory hMode hMade)]
      · rename_i hMode
        split
        · rfl
        · rename_i path hOutput
          exact hRun _ _ _ (.disk (by simpa using hMode) hOutput)
    rw [Compiler.compile_of_ok hPrepare, Compiler.compile_of_ok hPrepare]
    simp only [backend, hSame]

/-! ## What is removed -/

theorem removeStale_eq_ok (h : removeStale fs written = .ok found) :
    (∃ entry, fs.Names written entry ∧ fs.node? entry ≠ none ∧
      fs.node? entry ≠ some .directory ∧ found = fs.erase entry) ∨
    found = fs ∧ ∀ entry, fs.Names written entry → fs.node? entry = none := by
  unfold removeStale at h
  split at h
  · rename_i removed hRemoved
    obtain rfl := Except.ok.inj h
    obtain ⟨hFlush, directory, name, left, hWalk, hSome, hNode, rfl⟩ := removeFile_eq_ok hRemoved
    refine Or.inl ⟨directory ++ [name], ⟨.entry directory name, left, ?_, rfl⟩, hSome, hNode, rfl⟩
    rw [hFlush, hWalk]
  · rename_i hNone
    refine Or.inr ⟨(Except.ok.inj h).symm, ?_⟩
    rintro entry ⟨place, left, hWalk, rfl⟩
    rcases vacant_of_removeFile_notFound hNone with hError | ⟨place', left', hWalk', hNode⟩
    · simp [hError] at hWalk
    · obtain ⟨rfl, -⟩ : place = place' ∧ left = left' := by simpa [hWalk] using hWalk'
      exact hNode
  · simp at h

/-- The way to a file passes through what a path names. -/
def Meets (fs : FileSystem) (p written : Path) : Prop :=
  ∃ entry, fs.Names written entry ∧ fs.Passes entry (fs.start p) p.steps

theorem read_of_removeStale (hTree : fs.IsTree) (hStale : removeStale fs written = .ok found)
    (hRead : fs.read p = .ok contents) :
    Meets fs p written ∧ found.read p = .error .notFound ∨
      ¬ Meets fs p written ∧ found.read p = .ok contents := by
  rcases removeStale_eq_ok hStale with ⟨entry, hNames, -, hNode, rfl⟩ | ⟨rfl, hNone⟩
  · rcases read_erase hTree hNode hRead with ⟨hPasses, hGone⟩ | ⟨hNot, hKept⟩
    · exact Or.inl ⟨⟨entry, hNames, hPasses⟩, hGone⟩
    · refine Or.inr ⟨?_, hKept⟩
      rintro ⟨entry', hNames', hPasses⟩
      obtain rfl := hNames.unique hNames'
      exact hNot hPasses
  · refine Or.inr ⟨?_, hRead⟩
    rintro ⟨entry, hNames, hPasses⟩
    exact not_passes_of_read (hNone entry hNames) hRead hPasses

/-! ## What is made -/

def outputChain (output : Path) : List Path :=
  match output.parent? with
  | none => []
  | some directory => directory.chain

theorem made_of_makeOutputDirectory (fs : FileSystem) (output : Path) :
    fs.Made (outputChain output) (Compiler.makeOutputDirectory fs output).2 := by
  unfold Compiler.makeOutputDirectory outputChain
  cases output.parent? with
  | none => exact Made.refl fs []
  | some directory => exact made_of_makeDirectories fs directory

theorem isName_memoryModuleName : Path.IsName memoryModuleName.text := by decide

theorem removeStale_of_scratch {path : Path} {place : Location} {made : FileSystem}
    (hScratch : fs.Scratch path place made) (hTree : fs.IsTree)
    (hStale : removeStale made (path.join memoryModuleName) = .ok found) : found = made := by
  have hNames : made.Names (path.join memoryModuleName) (place ++ [memoryModuleName.text]) :=
    hScratch.names isName_memoryModuleName
  rcases removeStale_eq_ok hStale with ⟨entry, hNames', hSome, -, rfl⟩ | ⟨rfl, -⟩
  · obtain rfl := hNames.unique hNames'
    exact absurd (hScratch.node?_below hTree) hSome
  · rfl

/-! ## At the launch -/

theorem makeOutputDirectory_of_made {directory : Path} (hParent : output.parent? = some directory)
    (hMade : fs.makeDirectories directory = (.ok (), ready)) :
    Compiler.makeOutputDirectory fs output = (.ok (), ready) := by
  rw [Compiler.makeOutputDirectory, hParent]
  simp only [hMade]
  rfl

/-- A debug build that finds its scripts and can clear the output path launches its compiler. -/
theorem exists_launches (hMode : compiler.options.mode = .debug) (hSome : sources ≠ [])
    (hRead : ∀ s ∈ sources, fs.Readable s)
    (hMade : Compiler.makeOutputDirectory fs output = (.ok (), ready))
    (hStale : removeStale ready output = .ok found) :
    ∃ invocation, Launches compiler output sources fs invocation output found := by
  have hRoom : compiler.options.mode = .debug →
      ∀ directory cause left, ¬ Compiler.NoRoom fs output directory cause left := by
    intro _ directory cause left hNoRoom
    simp [Compiler.makeOutputDirectory_of_noRoom hNoRoom] at hMade
  obtain ⟨invocation, ready', hPrepare, hAsked, hDebug, -⟩ :=
    Compiler.exists_prepare hSome hRead hRoom
  obtain rfl : ready = ready' := by simpa [hMade] using hDebug hMode
  have hOutput : invocation.output = some output := by rw [hAsked.output_eq, if_pos hMode]
  exact ⟨invocation, ready, some output, ready, hPrepare,
    .disk (hAsked.onDisk_iff.mpr hMode) hOutput, hStale⟩

/-- What the compiler is launched on, by the mode. -/
theorem found_of_launches (hTree : fs.IsTree)
    (hLaunch : Launches compiler output sources fs invocation written found) :
    (compiler.options.mode = .release → fs.GrowsTo found) ∧
    (compiler.options.mode = .debug →
      removeStale (Compiler.makeOutputDirectory fs output).2 output = .ok found) := by
  obtain ⟨ready, location, target, hPrepare, hTarget, hStale⟩ := hLaunch
  have hDestination := destination_of_target hPrepare hTarget
  constructor
  · intro hMode
    rw [hMode] at hDestination
    cases hDestination with
    | memory hMade =>
      have hScratch := scratch_of_makeScratch hMade
      obtain rfl := removeStale_of_scratch hScratch hTree hStale
      exact hScratch.grows
  · intro hMode
    rw [hMode] at hDestination
    cases hDestination with
    | disk hMade =>
      rw [hMade]
      exact hStale

/-- Whatever could be read when the build began, scripts and references included, can be read when
the compiler is launched: always in release mode, and in debug mode unless the way to it passes
through what the output path names. That is then gone. -/
theorem read_at_launch (fs : FileTree)
    (hLaunch : Launches compiler output sources fs invocation written found)
    (hRead : fs.read p = .ok contents) :
    (compiler.options.mode = .release → found.read p = .ok contents) ∧
    (compiler.options.mode = .debug →
      let ready := (Compiler.makeOutputDirectory fs output).2
      (found.read p = .ok contents ↔ ¬ Meets ready p output) ∧
        (Meets ready p output → found.read p = .error .notFound)) := by
  obtain ⟨hRelease, hDebug⟩ := found_of_launches fs.isTree hLaunch
  refine ⟨fun hMode => (hRelease hMode).read hRead, ?_⟩
  intro hMode ready
  have hMade : fs.Made (outputChain output) ready := made_of_makeOutputDirectory fs output
  have hReady : ready.read p = .ok contents := hMade.grows.read hRead
  rcases read_of_removeStale (hMade.isTree fs.isTree) (hDebug hMode) hReady with
    ⟨hMeets, hGone⟩ | ⟨hNot, hKept⟩
  · simp [hMeets, hGone]
  · simp [hNot, hKept]

/-- A script that is a link to the module of an earlier build is gone with it; another one stays. -/
theorem read_at_launch_of_linked_script :
    let compiler : Compiler := ⟨ModuleIndex.ofModules [], [], ⟨.debug, .loadedAndMatched⟩⟩
    let fs := ((FileSystem.empty.put ["a.cs"] (.file [1] false)).put ["old.cs"]
      (.link ⟨"b.dll"⟩)).put ["b.dll"] (.file [2] false)
    let sources : List Path := [⟨"/a.cs"⟩, ⟨"/old.cs"⟩]
    let ready := (Compiler.makeOutputDirectory fs ⟨"/b.dll"⟩).2
    ∃ tree : FileTree, tree.toFileSystem = fs ∧ tree.read ⟨"/a.cs"⟩ = .ok [1] ∧
      tree.read ⟨"/old.cs"⟩ = .ok [2] ∧ ∃ invocation found,
        Launches compiler ⟨"/b.dll"⟩ sources tree invocation ⟨"/b.dll"⟩ found ∧
        ¬ Meets ready ⟨"/a.cs"⟩ ⟨"/b.dll"⟩ ∧ found.read ⟨"/a.cs"⟩ = .ok [1] ∧
        Meets ready ⟨"/old.cs"⟩ ⟨"/b.dll"⟩ ∧ found.read ⟨"/old.cs"⟩ = .error .notFound := by
  intro compiler fs sources ready
  let tree : FileTree := ⟨fs, by decide +kernel, by decide +kernel⟩
  have hScript : fs.read ⟨"/a.cs"⟩ = .ok [1] := by
    decide +kernel +revert
  have hOld : fs.read ⟨"/old.cs"⟩ = .ok [2] := by
    decide +kernel +revert
  have hRoom : fs.makeDirectories ⟨"/"⟩ = (.ok (), fs) := by
    decide +kernel +revert
  have hStale : removeStale fs ⟨"/b.dll"⟩ = .ok (fs.erase ["b.dll"]) := by
    decide +kernel +revert
  have hKept : (fs.erase ["b.dll"]).read ⟨"/a.cs"⟩ = .ok [1] := by
    decide +kernel +revert
  have hLink : fs.move [] (.enter "old.cs") = .ok (.link ⟨"b.dll"⟩) := by
    decide +kernel +revert
  have hWalk : fs.walk false ⟨"/b.dll"⟩ = .ok (.entry [] "b.dll", linkLimit) := by
    decide +kernel +revert
  have hMade : Compiler.makeOutputDirectory fs ⟨"/b.dll"⟩ = (.ok (), fs) :=
    makeOutputDirectory_of_made (by decide) hRoom
  have hReady : ready = fs := congrArg Prod.snd hMade
  have hMeets : Meets ready ⟨"/old.cs"⟩ ⟨"/b.dll"⟩ := by
    rw [hReady]
    exact ⟨["b.dll"], ⟨_, _, hWalk, rfl⟩, .follows hLink (.enters rfl)⟩
  have hRead : ∀ s ∈ sources, fs.Readable s := by
    simp [sources, FileSystem.Readable, hScript, hOld]
  have hMode : compiler.options.mode = .debug := rfl
  obtain ⟨invocation, hLaunch⟩ := exists_launches hMode (by simp [sources]) hRead hMade hStale
  refine ⟨tree, rfl, hScript, hOld, invocation, fs.erase ["b.dll"], hLaunch, ?_, hKept, hMeets, ?_⟩
  · exact (((read_at_launch tree hLaunch hScript).2 rfl).1.mp hKept)
  · exact ((read_at_launch tree hLaunch hOld).2 rfl).2 hMeets

/-- Nothing keeps the output path from naming a script. -/
theorem script_removed_before_launch :
    ¬ ∀ (fs : FileTree) (loader : MetadataLoader) (extension : String) (root : Path)
      (index : ModuleIndex) (loaded : List Path) (options : BuildOptions) (output : Path)
      (sources : List Path) (invocation : Invocation) (written : Path) (found : FileSystem)
      (p : Path) (contents : Bytes),
        ModuleIndex.build fs loader extension root = .ok index →
        Launches ⟨index, loaded, options⟩ output sources fs invocation written found →
        p ∈ sources ∨ p ∈ invocation.references → fs.read p = .ok contents →
          found.read p = .ok contents := by
  intro hAll
  let fs := FileSystem.empty.put ["a.cs"] (.file [1] false)
  let tree : FileTree := ⟨fs, by decide +kernel, by decide +kernel⟩
  have hScript : fs.read ⟨"/a.cs"⟩ = .ok [1] := by
    decide +kernel +revert
  have hWalk : fs.walk true ⟨"/"⟩ = .ok (.inside [], linkLimit) := by
    decide +kernel +revert
  have hRoom : fs.makeDirectories ⟨"/"⟩ = (.ok (), fs) := by
    decide +kernel +revert
  have hStale : removeStale fs ⟨"/a.cs"⟩ = .ok (fs.erase ["a.cs"]) := by
    decide +kernel +revert
  have hGone : (fs.erase ["a.cs"]).read ⟨"/a.cs"⟩ = .error .notFound := by
    decide +kernel +revert
  have hMade : Compiler.makeOutputDirectory fs ⟨"/a.cs"⟩ = (.ok (), fs) :=
    makeOutputDirectory_of_made (by decide) hRoom
  obtain ⟨index, hBuilt⟩ : ∃ index, ModuleIndex.build fs .image "dll" ⟨"/"⟩ = .ok index :=
    ⟨_, ModuleIndex.build_of_walk hWalk rfl⟩
  have hMode : (Compiler.mk index [] ⟨.debug, .loadedAndMatched⟩).options.mode = .debug := rfl
  have hRead : ∀ s ∈ [(⟨"/a.cs"⟩ : Path)], fs.Readable s := by
    simp [FileSystem.Readable, hScript]
  obtain ⟨invocation, hLaunch⟩ := exists_launches hMode (List.cons_ne_nil _ _) hRead hMade hStale
  have hKept := hAll tree .image "dll" ⟨"/"⟩ index [] _ _ _ invocation _ _ ⟨"/a.cs"⟩ [1]
    hBuilt hLaunch (Or.inl (by simp)) hScript
  simp [hGone] at hKept

end ScriptBuild.ExternalCompiler
