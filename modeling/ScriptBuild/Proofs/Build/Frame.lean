import ScriptBuild.Proofs.Build.Launch

/-!
# What a build leaves as it is

A compiler is confined if it changes nothing but what the path leads to that it is told to write to.
A release build over a confined compiler leaves the files as they are, however it ends. A debug build
changes what the output path names, and makes directories on the way to it; everything else is as it
was.
-/

namespace ScriptBuild.ExternalCompiler

set_option autoImplicit false

open FileSystem

variable {external : ExternalCompiler} {tools : Toolchain} {invocation : Invocation}
  {fs found after : FileSystem} {written output p : Path} {known : Option Path}
  {compiler : Compiler} {sources : List Path} {place : Location}
  {prepared : Except BuildError Invocation} {bytes : Bytes}

/-- Where there is nothing at the path that it is told to write to, the program changes nothing but
what the path names. -/
def Confined (external : ExternalCompiler) (tools : Toolchain) : Prop :=
  ∀ (invocation : Invocation) (found : FileSystem) (written : Path) (exit : Exit),
    found.Vacant written →
    tools found external.program (invocation.arguments external.extra written) = .ok exit →
      ∀ place, exit.files.node? place = found.node? place ∨ found.Names written place

/-! ## Steps of a run -/

theorem names_of_removeStale (hStale : removeStale fs written = .ok found)
    (hNames : found.Names p place) : fs.Names p place := by
  rcases removeStale_eq_ok hStale with ⟨entry, -, -, hNode, rfl⟩ | ⟨rfl, -⟩
  · obtain ⟨reached, left, hWalk, hPlace⟩ := hNames
    rcases walk_erase p.dropSlashes hNode with hSame | hNone
    · exact ⟨reached, left, by rw [← hSame, hWalk], hPlace⟩
    · simp [hNone] at hWalk
  · exact hNames

theorem frame_of_removeStale (hStale : removeStale fs written = .ok found) (place : Location) :
    found.node? place = fs.node? place ∨ fs.Names written place := by
  rcases removeStale_eq_ok hStale with ⟨entry, hNames, -, hNode, rfl⟩ | ⟨rfl, -⟩
  · by_cases hSame : place = entry
    · exact Or.inr (hSame ▸ hNames)
    · refine Or.inl ?_
      rw [node?_erase fs (ne_nil_of_not_directory hNode), if_neg hSame]
  · exact Or.inl rfl

/-- However a run ends, it has changed nothing but what the path names. -/
theorem frame_of_runTo (hConfined : external.Confined tools) (place : Location) :
    (external.runTo tools invocation fs written known).2.node? place = fs.node? place ∨
      fs.Names written place := by
  unfold runTo
  cases hStale : removeStale fs written with
  | error e => exact Or.inl rfl
  | ok found =>
    have hRemoved := frame_of_removeStale hStale place
    simp only
    cases hExited : tools found external.program
        (invocation.arguments external.extra written) with
    | error e => exact hRemoved
    | ok exit =>
      rcases hConfined invocation found written exit (vacant_of_removeStale hStale) hExited place
        with hSame | hNames
      · simp only
        rw [hSame]
        exact hRemoved
      · exact Or.inr (names_of_removeStale hStale hNames)

/-- In memory, all that a run does is undone. -/
theorem frame_of_memory (hTree : fs.IsTree) (hConfined : external.Confined tools)
    (hMode : invocation.inMemory = true) :
    (external.compile tools invocation fs).2.SameEntries fs := by
  unfold ExternalCompiler.compile
  rw [if_pos hMode]
  split
  · exact fun _ => rfl
  · rename_i directory scratch made hMade
    have hScratch := scratch_of_makeScratch hMade
    apply hScratch.sameEntries hTree
    intro place
    exact (frame_of_runTo hConfined place).imp_right fun hNames =>
      ⟨_, hNames.unique (hScratch.names isName_memoryModuleName)⟩

theorem frame_of_disk (hConfined : external.Confined tools) (hMode : invocation.inMemory = false)
    (hOutput : invocation.output = some output) (place : Location) :
    (external.compile tools invocation fs).2.node? place = fs.node? place ∨
      fs.Names output place := by
  unfold ExternalCompiler.compile
  rw [if_neg (by simp [hMode]), hOutput]
  exact frame_of_runTo hConfined place

/-! ## Builds -/

theorem files_of_prepare (h : compiler.prepare fs output sources = (prepared, after)) :
    after = fs ∨ compiler.options.mode = .debug ∧
      after = (Compiler.makeOutputDirectory fs output).2 := by
  unfold Compiler.prepare at h
  split at h
  · exact Or.inl (congrArg Prod.snd h).symm
  · split at h
    · exact Or.inl (congrArg Prod.snd h).symm
    · simp only at h
      split at h
      · exact Or.inl (congrArg Prod.snd h).symm
      · rename_i hDisk
        have hMode : compiler.options.mode = .debug := by
          cases hMode : compiler.options.mode with
          | debug => rfl
          | release => simp [Compiler.invocation, hMode, BuildMode.isInMemory] at hDisk
        refine Or.inr ⟨hMode, ?_⟩
        split at h <;> simp_all

/-- A directory on the way to the directory of an output, where there was nothing before. -/
def NewOnTheWay (fs : FileSystem) (output : Path) (after : FileSystem) (place : Location) : Prop :=
  fs.node? place = none ∧ after.node? place = some .directory ∧
    ∃ p ∈ outputChain output, (Compiler.makeOutputDirectory fs output).2.Names p place

theorem frame_of_making {after : FileSystem}
    (h : after.node? place = (Compiler.makeOutputDirectory fs output).2.node? place) :
    after.node? place = fs.node? place ∨ NewOnTheWay fs output after place := by
  rcases (made_of_makeOutputDirectory fs output).new place with hSame | ⟨hNone, hNew, hNamed⟩
  · exact Or.inl (h.trans hSame)
  · exact Or.inr ⟨hNone, h.trans hNew, hNamed⟩

/-- What a build over a confined compiler changes, however it ends: nothing in release mode, and in
debug mode what the output path names and the directories that are made on the way to it. -/
theorem files_of_confined_build (fs : FileTree) (hConfined : external.Confined tools)
    (compiler : Compiler) (output : Path) (sources : List Path) :
    let result := compiler.compile (external.backend tools) output sources fs ()
    (compiler.options.mode = .release → result.files.SameEntries fs) ∧
    (compiler.options.mode = .debug → ∀ place,
      result.files.node? place = fs.node? place ∨
        (Compiler.makeOutputDirectory fs output).2.Names output place ∨
          NewOnTheWay fs output result.files place) := by
  intro result
  rcases hPrepare : compiler.prepare fs output sources with ⟨prepared, ready⟩
  cases prepared with
  | error e =>
    have hFiles : result.files = ready := by
      simp only [result, Compiler.compile_of_error hPrepare]
    rw [hFiles]
    -- a directory of the output that cannot be made may have been made in part
    rcases files_of_prepare hPrepare with rfl | ⟨hMode, rfl⟩
    · exact ⟨fun _ _ => rfl, fun _ _ => Or.inl rfl⟩
    · refine ⟨by simp [hMode], fun _ place => ?_⟩
      exact (frame_of_making rfl).imp_right Or.inr
  | ok invocation =>
    have hFiles : result.files = (external.compile tools invocation ready).2 := by
      simp only [result, Compiler.compile_of_ok hPrepare, backend]
    rw [hFiles]
    obtain ⟨-, resolution, -, rfl, hReady⟩ := Compiler.prepare_eq_ok_iff.mp hPrepare
    constructor
    · intro hMode
      obtain rfl : ready = fs := by simpa [hMode, BuildMode.isInMemory] using hReady
      exact frame_of_memory fs.isTree hConfined (by simp [Compiler.invocation, hMode,
        BuildMode.isInMemory])
    · intro hMode place
      have hMade : Compiler.makeOutputDirectory fs output = (.ok (), ready) := by
        simpa [hMode, BuildMode.isInMemory] using hReady
      have hDisk : (compiler.invocation output sources resolution).inMemory = false := by
        simp [Compiler.invocation, hMode, BuildMode.isInMemory]
      have hOutput : (compiler.invocation output sources resolution).output = some output := by
        simp [Compiler.invocation, hMode, BuildMode.isInMemory]
      rcases frame_of_disk hConfined hDisk hOutput place with hSame | hNames
      · exact (frame_of_making (by rw [hSame, hMade])).imp_right Or.inr
      · exact Or.inr (Or.inl (by rwa [hMade]))

/-! ## A compiler that writes -/

theorem frame_of_write (hVacant : fs.Vacant p) (h : fs.write p bytes = .ok after)
    (place : Location) : after.node? place = fs.node? place ∨ fs.Names p place := by
  obtain ⟨location, opened, hOpened, rfl⟩ := write_eq_ok h
  obtain ⟨hSlash, directory, name, left, hWalk, rfl, hEntry⟩ := openForWriting_eq_ok hOpened
  have hFlush : p.dropSlashes = p := by simp [Path.dropSlashes, hSlash]
  rw [walk_of_vacant hVacant] at hWalk
  have hNone : fs.node? (directory ++ [name]) = none := by
    rcases hVacant with hError | ⟨reached, left', hReached, hNone⟩
    · simp [hWalk] at hError
    · obtain ⟨rfl, -⟩ : Place.entry directory name = reached ∧ left = left' := by
        simpa [hWalk] using hReached
      exact hNone
  rcases hEntry with ⟨-, rfl⟩ | ⟨contents, executable, hFile, -⟩
  · have hNew : (fs.put (directory ++ [name]) (.file [] false)).node? (directory ++ [name]) =
        some (.file [] false) := node?_put_self fs _ (by simp)
    rw [appendAt, hNew]
    by_cases hSame : place = directory ++ [name]
    · exact Or.inr ⟨.entry directory name, left, by rw [hFlush, hWalk], hSame.symm⟩
    · exact Or.inl (by rw [node?_put_of_ne _ _ hSame, node?_put_of_ne _ _ hSame])
  · simp [hNone] at hFile

-- the third argument is the switch that names the output
def writer : Toolchain := fun fs _ args =>
  match fs.write ⟨String.ofList ((args.getD 2 "").toList.drop 5)⟩ [77, 90] with
  | .ok after => .ok ⟨0, [], [], after⟩
  | .error e => .error e

theorem confined_writer (program : String) : Confined ⟨program, []⟩ writer := by
  intro invocation found written exit hVacant hExited place
  have hArgument : (invocation.arguments [] written).getD 2 "" = "-out:" ++ written.text := rfl
  have hPath : (⟨String.ofList (("-out:" ++ written.text).toList.drop 5)⟩ : Path) = written := by
    simp
  simp only [writer] at hExited
  rw [hArgument, hPath] at hExited
  cases hWritten : found.write written [77, 90] with
  | error e => simp [hWritten] at hExited
  | ok after =>
    rw [hWritten] at hExited
    obtain rfl := Except.ok.inj hExited
    exact frame_of_write hVacant hWritten place

/-- A compiler that writes leaves the script as it is in debug mode, and everything in release
mode. -/
theorem files_of_writer :
    let external : ExternalCompiler := ⟨"mcs", []⟩
    let fs := (FileSystem.empty.put ["tmp"] .directory).put ["a.cs"] (.file [1] false)
    let compiler (mode : BuildMode) : Compiler :=
      ⟨ModuleIndex.ofModules [], [], ⟨mode, .loadedAndMatched⟩⟩
    let built (mode : BuildMode) :=
      (compiler mode).compile (external.backend writer) ⟨"/out/b.dll"⟩ [⟨"/a.cs"⟩] fs ()
    (∃ tree : FileTree, tree.toFileSystem = fs) ∧ external.Confined writer ∧
      (built .release).files.SameEntries fs ∧
      (built .debug).files.node? ["a.cs"] = some (.file [1] false) := by
  intro external fs compiler built
  let ready := (fs.makeDirectories ⟨"/out"⟩).2
  let tree : FileTree := ⟨fs, by decide +kernel, by decide +kernel⟩
  have hScript : fs.node? ["a.cs"] = some (.file [1] false) := by
    decide +kernel +revert
  have hMade : fs.makeDirectories ⟨"/out"⟩ = (.ok (), ready) := by
    decide +kernel +revert
  have hWalk : ready.walk false ⟨"/out/b.dll"⟩ = .ok (.entry ["out"] "b.dll", linkLimit) := by
    decide +kernel +revert
  have hOutput : Compiler.makeOutputDirectory fs ⟨"/out/b.dll"⟩ = (.ok (), ready) :=
    makeOutputDirectory_of_made (by decide) hMade
  have hConfined : external.Confined writer := confined_writer "mcs"
  have hRelease :=
    files_of_confined_build tree hConfined (compiler .release) ⟨"/out/b.dll"⟩ [⟨"/a.cs"⟩]
  have hDebug :=
    files_of_confined_build tree hConfined (compiler .debug) ⟨"/out/b.dll"⟩ [⟨"/a.cs"⟩]
  refine ⟨⟨tree, rfl⟩, hConfined, hRelease.1 rfl, ?_⟩
  rcases hDebug.2 rfl ["a.cs"] with hSame | hNames | ⟨hNone, -⟩
  · exact hSame.trans hScript
  · rw [hOutput] at hNames
    have hOther : ["a.cs"] = ["out", "b.dll"] := hNames.unique ⟨_, _, hWalk, rfl⟩
    simp at hOther
  · cases hScript.symm.trans hNone

end ScriptBuild.ExternalCompiler
