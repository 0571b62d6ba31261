import ScriptBuild.Proofs.Build.Verdict
import ScriptBuild.Proofs.File.Vacant

/-!
# A module is the product of its own run

The compiler is started only when nothing stands at the path that it is told to write to, so what is
found there at the end was not there before. A run that leaves the path vacant gives no module, a
module that a build gives is what the path holds when the compiler ends, and an entry that cannot be
removed keeps the compiler from being started.

That the compiler is started on vacant paths only is said of two toolchains: if they do the same
wherever the path is vacant, no run tells them apart.
-/

namespace ScriptBuild.ExternalCompiler

set_option autoImplicit false

variable {external : ExternalCompiler} {tools tools' : Toolchain} {invocation : Invocation}
  {fs ready found cleared after : FileSystem} {written output : Path} {location : Option Path}
  {exit : Exit} {produced : BackendOutput} {cause : FileError} {compiler : Compiler}
  {sources : List Path} {m : CompiledModule}

/-- Where an invocation has the module written to, under which location it is known, and the files
once there is room for it. -/
inductive Target (fs : FileSystem) (invocation : Invocation) :
    Path → Option Path → FileSystem → Prop
  | disk {path : Path} (hMode : invocation.inMemory = false)
      (hOutput : invocation.output = some path) : Target fs invocation path (some path) fs
  | memory {directory : Path} {place : Location} {made : FileSystem}
      (hMode : invocation.inMemory = true) (hMade : fs.makeScratch = .ok (directory, place, made)) :
      Target fs invocation (directory.join memoryModuleName) none made

/-- Two toolchains do the same with an invocation wherever there is nothing at the output path. -/
def AgreeOnVacant (external : ExternalCompiler) (invocation : Invocation)
    (tools tools' : Toolchain) : Prop :=
  ∀ found written, found.Vacant written →
    tools found external.program (invocation.arguments external.extra written) =
      tools' found external.program (invocation.arguments external.extra written)

structure Ran (external : ExternalCompiler) (tools : Toolchain) (invocation : Invocation)
    (fs : FileSystem) (written : Path) (location : Option Path) (found : FileSystem)
    (exit : Exit) : Prop where
  cleared : ∃ ready, Target fs invocation written location ready ∧
    removeStale ready written = .ok found
  exited : tools found external.program (invocation.arguments external.extra written) = .ok exit

theorem vacant_of_removeStale (h : removeStale fs written = .ok cleared) :
    cleared.Vacant written := by
  unfold removeStale at h
  split at h
  · rename_i removed hRemoved
    obtain rfl := Except.ok.inj h
    exact FileSystem.vacant_of_removeFile hRemoved
  · rename_i hNone
    obtain rfl := Except.ok.inj h
    exact FileSystem.vacant_of_dropSlashes (FileSystem.vacant_of_removeFile_notFound hNone)
  · simp at h

theorem removeStale_of_error (h : fs.removeFile written = .error cause)
    (hCause : cause ≠ .notFound) : removeStale fs written = .error cause := by
  unfold removeStale
  rw [h]
  cases cause with
  | notFound => exact absurd rfl hCause
  | _ => rfl

theorem runTo_congr (h : AgreeOnVacant external invocation tools tools') :
    external.runTo tools invocation fs written location =
      external.runTo tools' invocation fs written location := by
  unfold runTo
  cases hCleared : removeStale fs written with
  | error e => rfl
  | ok cleared =>
    simp only
    rw [h cleared written (vacant_of_removeStale hCleared)]

/-- What a compiler does where the output path is taken makes no difference. -/
theorem compile_congr (h : AgreeOnVacant external invocation tools tools') :
    external.compile tools invocation fs = external.compile tools' invocation fs := by
  unfold ExternalCompiler.compile
  split
  · split
    · rfl
    · rw [runTo_congr h]
  · split
    · rfl
    · exact runTo_congr h

theorem Ran.vacant (h : Ran external tools invocation fs written location found exit) :
    found.Vacant written := by
  obtain ⟨⟨ready, -, hCleared⟩, -⟩ := h
  exact vacant_of_removeStale hCleared

theorem Ran.compile_eq (h : Ran external tools invocation fs written location found exit) :
    (external.compile tools invocation fs).1 = conclude exit written location ∧
      (invocation.inMemory = false → (external.compile tools invocation fs).2 = exit.files) := by
  obtain ⟨⟨ready, hTarget, hCleared⟩, hExited⟩ := h
  cases hTarget with
  | disk hMode hOutput =>
    simp [ExternalCompiler.compile, hMode, hOutput, runTo_of_started hCleared hExited]
  | memory hMode hMade =>
    simp [ExternalCompiler.compile, hMode, hMade, runTo_of_started hCleared hExited]

theorem exists_exit_of_runTo
    (h : (external.runTo tools invocation fs written location).1 = .ok produced) :
    ∃ found exit, removeStale fs written = .ok found ∧
      tools found external.program (invocation.arguments external.extra written) = .ok exit := by
  unfold runTo at h
  cases hCleared : removeStale fs written with
  | error e => simp [hCleared] at h
  | ok found =>
    cases hExited : tools found external.program
        (invocation.arguments external.extra written) with
    | error e => simp [hCleared, hExited] at h
    | ok exit => exact ⟨found, exit, rfl, hExited⟩

theorem exists_ran (h : (external.compile tools invocation fs).1 = .ok produced) :
    ∃ written location found exit,
      Ran external tools invocation fs written location found exit := by
  unfold ExternalCompiler.compile at h
  cases hMode : invocation.inMemory with
  | true =>
    rw [if_pos hMode] at h
    cases hMade : fs.makeScratch with
    | error e => simp [hMade] at h
    | ok scratch =>
      obtain ⟨directory, place, made⟩ := scratch
      simp only [hMade] at h
      obtain ⟨found, exit, hCleared, hExited⟩ := exists_exit_of_runTo h
      exact ⟨_, _, found, exit, ⟨made, .memory hMode hMade, hCleared⟩, hExited⟩
  | false =>
    rw [if_neg (by simp [hMode])] at h
    cases hOutput : invocation.output with
    | none => simp [hOutput] at h
    | some path =>
      simp only [hOutput] at h
      obtain ⟨found, exit, hCleared, hExited⟩ := exists_exit_of_runTo h
      exact ⟨path, some path, found, exit, ⟨fs, .disk hMode hOutput, hCleared⟩, hExited⟩

theorem module_of_conclude (h : conclude exit written location = .ok produced)
    (hVacant : exit.files.Vacant written) : produced.module = none := by
  unfold conclude at h
  simp only at h
  split at h
  · simp at h
  · split at h
    · obtain rfl := Except.ok.inj h
      rfl
    · rw [readModule, FileSystem.read_of_vacant hVacant] at h
      obtain rfl := Except.ok.inj h
      rfl

/-- An entry that cannot be removed ends the run before any compiler has a part in it. -/
theorem compile_of_irremovable (hTarget : Target fs invocation written location ready)
    (hRemove : ready.removeFile written = .error cause) (hCause : cause ≠ .notFound) :
    ∃ after, ∀ tools, external.compile tools invocation fs = (.error (.files cause), after) := by
  have hStale := removeStale_of_error hRemove hCause
  cases hTarget with
  | disk hMode hOutput =>
    refine ⟨fs, fun tools => ?_⟩
    simp only [ExternalCompiler.compile, hMode, hOutput, runTo, hStale, Bool.false_eq_true,
      if_false]
  | @memory directory place made hMode hMade =>
    refine ⟨ready.eraseBelow place, fun tools => ?_⟩
    simp only [ExternalCompiler.compile, hMode, hMade, runTo, hStale, if_true]

theorem destination_of_target
    (hPrepare : compiler.prepare fs output sources = (.ok invocation, ready))
    (hTarget : Target ready invocation written location after) :
    Destination output fs compiler.options.mode written location after := by
  obtain ⟨-, resolution, -, rfl, hReady⟩ := Compiler.prepare_eq_ok_iff.mp hPrepare
  cases hMode : compiler.options.mode with
  | debug =>
    simp only [hMode, BuildMode.isInMemory, Bool.false_eq_true, if_false] at hReady
    cases hTarget with
    | disk _ hOutput =>
      obtain rfl : output = written := by
        simpa [Compiler.invocation, hMode, BuildMode.isInMemory] using hOutput
      exact .disk hReady
    | memory hMemory => simp [Compiler.invocation, hMode, BuildMode.isInMemory] at hMemory
  | release =>
    simp only [hMode, BuildMode.isInMemory, if_true] at hReady
    subst hReady
    cases hTarget with
    | disk hDisk => simp [Compiler.invocation, hMode, BuildMode.isInMemory] at hDisk
    | memory _ hMade => exact .memory hMade

theorem exists_started
    (h : (compiler.compile (external.backend tools) output sources fs ()).answer = .ok m) :
    ∃ invocation ready written location found exit,
      compiler.prepare fs output sources = (.ok invocation, ready) ∧
      Ran external tools invocation ready written location found exit ∧
      Started compiler external tools output sources fs written location exit := by
  rcases hPrepare : compiler.prepare fs output sources with ⟨prepared, ready⟩
  cases prepared with
  | error e => simp [Compiler.compile_of_error hPrepare] at h
  | ok invocation =>
    rw [Compiler.compile_of_ok hPrepare] at h
    cases hAnswer : (external.compile tools invocation ready).1 with
    | error fault => simp [backend, hAnswer, Except.mapError, Except.bind] at h
    | ok produced =>
      obtain ⟨written, location, found, exit, hRan⟩ := exists_ran hAnswer
      refine ⟨invocation, ready, written, location, found, exit, rfl, hRan, ?_⟩
      obtain ⟨⟨target, hTarget, hCleared⟩, hExited⟩ := hRan
      have hDestination := destination_of_target hPrepare hTarget
      obtain ⟨hSome, resolution, hResolve, rfl, -⟩ := Compiler.prepare_eq_ok_iff.mp hPrepare
      exact ⟨hSome, resolution, target, found, hResolve, hDestination, hCleared, hExited⟩

theorem image_of_started
    (hStarted : Started compiler external tools output sources fs written location exit)
    (h : (compiler.compile (external.backend tools) output sources fs ()).answer = .ok m) :
    m.image ≠ [] ∧ exit.files.read written = .ok m.image ∧ m.location = location := by
  have hVerdict := verdict_conclude exit written location
  rw [← answer_of_started hStarted, h] at hVerdict
  cases hVerdict with
  | built _ _ hRead hImage => exact ⟨hImage, hRead, rfl⟩

theorem files_of_ran (hPrepare : compiler.prepare fs output sources = (.ok invocation, ready))
    (hRan : Ran external tools invocation ready written location found exit)
    (hMode : compiler.options.mode = .debug) :
    (compiler.compile (external.backend tools) output sources fs ()).files = exit.files := by
  rw [Compiler.compile_of_ok hPrepare]
  obtain ⟨-, resolution, -, rfl, -⟩ := Compiler.prepare_eq_ok_iff.mp hPrepare
  apply hRan.compile_eq.2
  simp [Compiler.invocation, hMode, BuildMode.isInMemory]

/-- No module comes from an earlier run: the compiler is started on vacant paths only, gives nothing
without writing, gives what it has written, and is kept back by what cannot be removed. -/
theorem module_of_this_run (external : ExternalCompiler) :
    (∀ invocation tools tools' fs, AgreeOnVacant external invocation tools tools' →
      external.compile tools invocation fs = external.compile tools' invocation fs) ∧
    (∀ tools invocation fs written location found exit,
      Ran external tools invocation fs written location found exit →
        found.Vacant written ∧ (exit.files.Vacant written →
          ∀ produced, (external.compile tools invocation fs).1 = .ok produced →
            produced.module = none)) ∧
    (∀ (compiler : Compiler) tools output sources fs m,
      let result := compiler.compile (external.backend tools) output sources fs ()
      result.answer = .ok m →
        ∃ invocation ready written location found exit,
          compiler.prepare fs output sources = (.ok invocation, ready) ∧
          Ran external tools invocation ready written location found exit ∧
          m.image ≠ [] ∧ exit.files.read written = .ok m.image ∧
          (compiler.options.mode = .debug → written = output ∧ m.location = some output ∧
            result.files.read output = .ok m.image) ∧
          (compiler.options.mode = .release → m.location = none)) ∧
    (∀ invocation fs written location ready cause,
      Target fs invocation written location ready → ready.removeFile written = .error cause →
        cause ≠ .notFound →
          ∃ after, ∀ tools,
            external.compile tools invocation fs = (.error (.files cause), after)) := by
  refine ⟨fun _ _ _ _ => compile_congr, ?_, ?_, fun _ _ _ _ _ _ => compile_of_irremovable⟩
  · intro tools invocation fs written location found exit hRan
    refine ⟨hRan.vacant, ?_⟩
    intro hVacant produced hProduced
    rw [hRan.compile_eq.1] at hProduced
    exact module_of_conclude hProduced hVacant
  · intro compiler tools output sources fs m result hResult
    obtain ⟨invocation, ready, written, location, found, exit, hPrepare, hRan, hStarted⟩ :=
      exists_started hResult
    obtain ⟨hImage, hRead, hLocation⟩ := image_of_started hStarted hResult
    refine ⟨invocation, ready, written, location, found, exit, hPrepare, hRan, hImage, hRead,
      ?_, ?_⟩
    · intro hMode
      have hFiles : result.files = exit.files := files_of_ran hPrepare hRan hMode
      obtain ⟨-, resolution, made, cleared, -, hDestination, -⟩ := hStarted
      rw [hMode] at hDestination
      cases hDestination with
      | disk => exact ⟨rfl, hLocation, by rw [hFiles, hRead]⟩
    · intro hMode
      obtain ⟨-, resolution, made, cleared, -, hDestination, -⟩ := hStarted
      rw [hMode] at hDestination
      cases hDestination with
      | memory => exact hLocation

/-- A compiler that exits cleanly and writes nothing gives no module, although an earlier build has
left one behind a link at the output path. -/
theorem no_module_of_silent_run :
    let external : ExternalCompiler := ⟨"mcs", []⟩
    let tools : Toolchain := fun fs _ _ => .ok ⟨0, [], [], fs⟩
    let fs := (FileSystem.empty.put ["old.dll"] (.file [1, 2, 3] false)).put ["out.dll"]
      (.link ⟨"old.dll"⟩)
    let invocation : Invocation := ⟨false, true, false, some ⟨"/out.dll"⟩, [], []⟩
    fs.read ⟨"/out.dll"⟩ = .ok [1, 2, 3] ∧
      ∃ produced, (external.compile tools invocation fs).1 = .ok produced ∧
        produced.module = none := by
  intro external tools fs invocation
  have hOld : fs.read ⟨"/out.dll"⟩ = .ok [1, 2, 3] := by
    decide +kernel +revert
  have hCleared : removeStale fs ⟨"/out.dll"⟩ = .ok (fs.erase ["out.dll"]) := by
    decide +kernel +revert
  have hProduced : (external.compile tools invocation fs).1 = .ok ⟨none, []⟩ := by
    decide +kernel +revert
  have hRan : Ran external tools invocation fs ⟨"/out.dll"⟩ (some ⟨"/out.dll"⟩)
      (fs.erase ["out.dll"]) ⟨0, [], [], fs.erase ["out.dll"]⟩ :=
    ⟨⟨fs, .disk rfl rfl, hCleared⟩, rfl⟩
  obtain ⟨hVacant, hNone⟩ := (module_of_this_run external).2.1 tools invocation fs _ _ _ _ hRan
  exact ⟨hOld, ⟨none, []⟩, hProduced, hNone hVacant _ hProduced⟩

end ScriptBuild.ExternalCompiler
