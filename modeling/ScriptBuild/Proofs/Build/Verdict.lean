import ScriptBuild.Build.Process
import ScriptBuild.Proofs.Build.Compiler

/-!
# The verdict on a build

What a build comes to once its external compiler has been started. The backend judges the exit
status, the diagnostics and a missing module; the build judges the diagnostics again and an empty
module. Together they let a build succeed only on a clean exit with a module that has contents, and
every other outcome that is no fault carries the diagnostics unchanged.
-/

namespace ScriptBuild

set_option autoImplicit false

namespace ExternalCompiler

variable {exit : Exit} {written : Path} {location : Option Path}

def Clean (exit : Exit) : Prop := ∀ d ∈ diagnostics exit, d.severity ≠ .error

/-- What a build comes to, by what its compiler leaves behind. -/
inductive Verdict (exit : Exit) (written : Path) (location : Option Path) :
    Except BuildError CompiledModule → Prop
  | built {image : Bytes} (hStatus : exit.status = 0) (hClean : Clean exit)
      (hRead : exit.files.read written = .ok image) (hImage : image ≠ []) :
      Verdict exit written location (.ok ⟨image, location⟩)
  | failed {status complaint : String} (hStatus : exit.status ≠ 0)
      (hNone : diagnostics exit = []) :
      Verdict exit written location (.error (.backend (.failed status complaint)))
  | unreadable {cause : FileError} (hStatus : exit.status = 0) (hClean : Clean exit)
      (hRead : exit.files.read written = .error cause) (hCause : cause ≠ .notFound) :
      Verdict exit written location (.error (.backend (.files cause)))
  | refused (h : exit.status ≠ 0 ∧ diagnostics exit ≠ [] ∨ ¬ Clean exit) :
      Verdict exit written location (.error (.compilation (diagnostics exit)))
  | empty (hStatus : exit.status = 0) (hClean : Clean exit)
      (hRead : exit.files.read written = .error .notFound ∨ exit.files.read written = .ok []) :
      Verdict exit written location (.error (.compilation (diagnostics exit)))

theorem clean_iff : Clean exit ↔ (diagnostics exit).any Diagnostic.isError = false := by
  simp [Clean, Diagnostic.isError]

theorem clean_of_none (hNone : diagnostics exit = []) : Clean exit := by
  simp [Clean, hNone]

theorem conclude_of_failed (hStatus : exit.status ≠ 0) (hNone : diagnostics exit = []) :
    conclude exit written location = .error (.failed ("exit status: " ++ toString exit.status)
      (String.ofList (Text.trim (Text.decodeLossy exit.stderr)))) := by
  rw [conclude, if_pos (by simp [hStatus, hNone])]

theorem conclude_of_refused (h : exit.status ≠ 0 ∧ diagnostics exit ≠ [] ∨ ¬ Clean exit) :
    conclude exit written location = .ok ⟨none, diagnostics exit⟩ := by
  rcases h with ⟨hStatus, hNone⟩ | hClean
  · rw [conclude, if_neg (by simp [hNone]), if_pos (by simp [hStatus])]
  · have hAny : (diagnostics exit).any Diagnostic.isError = true := by
      simpa using mt clean_iff.mpr hClean
    have hNone : diagnostics exit ≠ [] := mt clean_of_none hClean
    rw [conclude, if_neg (by simp [hNone]), if_pos (by simp [hAny])]

theorem conclude_of_clean (hStatus : exit.status = 0) (hClean : Clean exit) :
    conclude exit written location = ((readModule exit.files written location).mapError .files).map
      fun produced => ⟨produced, diagnostics exit⟩ := by
  have hAny : (diagnostics exit).any Diagnostic.isError = false := clean_iff.mp hClean
  rw [conclude, if_neg (by simp [hStatus]), if_neg (by simp [hStatus, hAny])]
  cases readModule exit.files written location with
  | ok produced => rfl
  | error e => rfl

theorem judge_of_clean {m : CompiledModule} (hClean : Clean exit) :
    Compiler.judge ⟨some m, diagnostics exit⟩ =
      if m.image = [] then .error (.compilation (diagnostics exit)) else .ok m := by
  have hErrors : (BackendOutput.mk (some m) (diagnostics exit)).hasErrors = false :=
    clean_iff.mp hClean
  by_cases hImage : m.image = [] <;>
    simp [Compiler.judge, hErrors, CompiledModule.isEmpty, hImage]

theorem verdict_of_clean (hStatus : exit.status = 0) (hClean : Clean exit) :
    Verdict exit written location
      (((conclude exit written location).mapError .backend).bind Compiler.judge) := by
  rw [conclude_of_clean hStatus hClean, readModule]
  cases hRead : exit.files.read written with
  | ok image =>
    change Verdict exit written location (Compiler.judge ⟨some ⟨image, location⟩, diagnostics exit⟩)
    rw [judge_of_clean hClean]
    split
    · rename_i hImage
      obtain rfl : image = [] := hImage
      exact .empty hStatus hClean (Or.inr hRead)
    · rename_i hImage
      exact .built hStatus hClean hRead hImage
  | error cause =>
    cases cause with
    | notFound => exact .empty hStatus hClean (Or.inl hRead)
    | _ => exact .unreadable hStatus hClean hRead (by simp)

/-- The backend and the build judge one after the other. -/
theorem verdict_conclude (exit : Exit) (written : Path) (location : Option Path) :
    Verdict exit written location
      (((conclude exit written location).mapError .backend).bind Compiler.judge) := by
  by_cases hRefused : exit.status ≠ 0 ∧ diagnostics exit ≠ [] ∨ ¬ Clean exit
  · rw [conclude_of_refused hRefused]
    exact .refused hRefused
  · simp only [not_or, not_and, not_not] at hRefused
    obtain ⟨hNone, hClean⟩ := hRefused
    by_cases hStatus : exit.status = 0
    · exact verdict_of_clean hStatus hClean
    · rw [conclude_of_failed hStatus (hNone hStatus)]
      exact .failed hStatus (hNone hStatus)

section Exclusion

variable {answer : Except BuildError CompiledModule}

theorem Verdict.ok_iff (hVerdict : Verdict exit written location answer) :
    (∃ m, answer = .ok m) ↔ exit.status = 0 ∧ Clean exit ∧
      ∃ image, exit.files.read written = .ok image ∧ image ≠ [] := by
  constructor
  · rintro ⟨m, rfl⟩
    cases hVerdict with
    | built hStatus hClean hRead hImage => exact ⟨hStatus, hClean, _, hRead, hImage⟩
  · rintro ⟨hStatus, hClean, image, hRead, hImage⟩
    cases hVerdict with
    | built => exact ⟨_, rfl⟩
    | failed hFailed => exact absurd hStatus hFailed
    | unreadable _ _ hError => simp [hRead] at hError
    | refused hRefused => simp [hStatus, hClean] at hRefused
    | empty _ _ hEmpty => simp [hRead, hImage] at hEmpty

theorem Verdict.failed_iff (hVerdict : Verdict exit written location answer) :
    (∃ status complaint, answer = .error (.backend (.failed status complaint))) ↔
      exit.status ≠ 0 ∧ diagnostics exit = [] := by
  constructor
  · rintro ⟨status, complaint, rfl⟩
    cases hVerdict with
    | failed hStatus hNone => exact ⟨hStatus, hNone⟩
  · rintro ⟨hStatus, hNone⟩
    cases hVerdict with
    | failed => exact ⟨_, _, rfl⟩
    | refused hRefused => simp [hNone, clean_of_none hNone] at hRefused
    | built h => exact absurd h hStatus
    | unreadable h => exact absurd h hStatus
    | empty h => exact absurd h hStatus

theorem Verdict.files_iff (hVerdict : Verdict exit written location answer) :
    (∃ cause, answer = .error (.backend (.files cause))) ↔ exit.status = 0 ∧ Clean exit ∧
      ∃ cause, exit.files.read written = .error cause ∧ cause ≠ .notFound := by
  constructor
  · rintro ⟨cause, rfl⟩
    cases hVerdict with
    | unreadable hStatus hClean hRead hCause => exact ⟨hStatus, hClean, _, hRead, hCause⟩
  · rintro ⟨hStatus, hClean, cause, hRead, hCause⟩
    cases hVerdict with
    | unreadable => exact ⟨_, rfl⟩
    | built _ _ hImage => simp [hRead] at hImage
    | failed hFailed => exact absurd hStatus hFailed
    | refused hRefused => simp [hStatus, hClean] at hRefused
    | empty _ _ hEmpty => simp [hRead, hCause] at hEmpty

theorem Verdict.carried (hVerdict : Verdict exit written location answer) :
    (∃ m, answer = .ok m) ∨
    (∃ status complaint, answer = .error (.backend (.failed status complaint))) ∨
    (∃ cause, answer = .error (.backend (.files cause))) ∨
    answer = .error (.compilation (diagnostics exit)) := by
  cases hVerdict with
  | built => exact Or.inl ⟨_, rfl⟩
  | failed => exact Or.inr (Or.inl ⟨_, _, rfl⟩)
  | unreadable => exact Or.inr (Or.inr (Or.inl ⟨_, rfl⟩))
  | refused => exact Or.inr (Or.inr (Or.inr rfl))
  | empty => exact Or.inr (Or.inr (Or.inr rfl))

end Exclusion

/-- Where a build writes, and the files as they are once there is room for the output. -/
inductive Destination (output : Path) (fs : FileSystem) :
    BuildMode → Path → Option Path → FileSystem → Prop
  | disk {ready : FileSystem} (hMade : Compiler.makeOutputDirectory fs output = (.ok (), ready)) :
      Destination output fs .debug output (some output) ready
  | memory {directory : Path} {place : Location} {ready : FileSystem}
      (hMade : fs.makeScratch = .ok (directory, place, ready)) :
      Destination output fs .release (directory.join memoryModuleName) none ready

/-- A build has started its external compiler, which has come to an end. -/
structure Started (compiler : Compiler) (external : ExternalCompiler) (tools : Toolchain)
    (output : Path) (sources : List Path) (fs : FileSystem) (written : Path)
    (location : Option Path) (exit : Exit) : Prop where
  given : sources ≠ []
  run : ∃ resolution ready cleared, compiler.resolveSources fs sources = .ok resolution ∧
    Destination output fs compiler.options.mode written location ready ∧
    removeStale ready written = .ok cleared ∧
    tools cleared external.program
      ((compiler.invocation output sources resolution).arguments external.extra written) = .ok exit

variable {compiler : Compiler} {external : ExternalCompiler} {tools : Toolchain} {output : Path}
  {sources : List Path} {fs ready cleared : FileSystem} {invocation : Invocation}

theorem runTo_of_started (hCleared : removeStale fs written = .ok cleared)
    (hRan : tools cleared external.program (invocation.arguments external.extra written) =
      .ok exit) :
    external.runTo tools invocation fs written location =
      (conclude exit written location, exit.files) := by
  simp only [runTo, hCleared, hRan]

theorem answer_of_started
    (h : Started compiler external tools output sources fs written location exit) :
    (compiler.compile (external.backend tools) output sources fs ()).answer =
      ((conclude exit written location).mapError .backend).bind Compiler.judge := by
  obtain ⟨hGiven, resolution, ready, cleared, hResolve, hDestination, hCleared, hRan⟩ := h
  have hMode : (compiler.invocation output sources resolution).inMemory =
      compiler.options.mode.isInMemory := rfl
  have hOutput : (compiler.invocation output sources resolution).output =
      if compiler.options.mode.isInMemory then none else some output := rfl
  generalize hm : compiler.options.mode = mode at hDestination hMode hOutput
  cases hDestination with
  | disk hMade =>
    have hPrepare : compiler.prepare fs written sources =
        (.ok (compiler.invocation written sources resolution), ready) := by
      refine Compiler.prepare_eq_ok_iff.mpr ⟨hGiven, resolution, hResolve, rfl, ?_⟩
      simpa [hm, BuildMode.isInMemory] using hMade
    rw [Compiler.compile_of_ok hPrepare]
    simp only [backend, ExternalCompiler.compile, hMode, hOutput, BuildMode.isInMemory,
      runTo_of_started hCleared hRan, Bool.false_eq_true, if_false]
  | @memory directory place _ hMade =>
    have hPrepare : compiler.prepare fs output sources =
        (.ok (compiler.invocation output sources resolution), fs) := by
      refine Compiler.prepare_eq_ok_iff.mpr ⟨hGiven, resolution, hResolve, rfl, ?_⟩
      simp [hm, BuildMode.isInMemory]
    rw [Compiler.compile_of_ok hPrepare]
    simp only [backend, ExternalCompiler.compile, hMode, BuildMode.isInMemory, hMade,
      runTo_of_started hCleared hRan, if_true]

/-- What a build comes to once its compiler has started, in full. -/
theorem compile_verdict
    (hStarted : Started compiler external tools output sources fs written location exit) :
    let found := Diagnostic.ofText (Text.decodeLossy exit.stdout) ++
      Diagnostic.ofText (Text.decodeLossy exit.stderr)
    let answer := (compiler.compile (external.backend tools) output sources fs ()).answer
    let Succeeds := exit.status = 0 ∧ (∀ d ∈ found, d.severity ≠ .error) ∧
      ∃ image, exit.files.read written = .ok image ∧ image ≠ []
    let Breaks := exit.status ≠ 0 ∧ found = []
    let Faults := exit.status = 0 ∧ (∀ d ∈ found, d.severity ≠ .error) ∧
      ∃ cause, exit.files.read written = .error cause ∧ cause ≠ .notFound
    ((∃ m, answer = .ok m) ↔ Succeeds) ∧
    ((∃ status complaint, answer = .error (.backend (.failed status complaint))) ↔ Breaks) ∧
    ((∃ cause, answer = .error (.backend (.files cause))) ↔ Faults) ∧
    (¬ Succeeds → ¬ Breaks → ¬ Faults → answer = .error (.compilation found)) ∧
    Diagnostic.errorCount found = (found.filter fun d => d.severity = .error).length := by
  intro found answer Succeeds Breaks Faults
  have hVerdict : Verdict exit written location answer := by
    have hAnswer : answer = _ := answer_of_started hStarted
    rw [hAnswer]
    exact verdict_conclude exit written location
  have hCount : Diagnostic.errorCount found =
      (found.filter fun d => d.severity = .error).length := by
    rw [Diagnostic.errorCount, List.countP_eq_length_filter]
    rfl
  refine ⟨hVerdict.ok_iff, hVerdict.failed_iff, hVerdict.files_iff, ?_, hCount⟩
  intro hSucceeds hBreaks hFaults
  rcases hVerdict.carried with h | h | h | h
  · exact absurd (hVerdict.ok_iff.mp h) hSucceeds
  · exact absurd (hVerdict.failed_iff.mp h) hBreaks
  · exact absurd (hVerdict.files_iff.mp h) hFaults
  · exact h

/-- A compiler that exits cleanly, reports a warning and writes an empty file has failed. -/
theorem verdict_of_empty_module :
    let compiler : Compiler := ⟨ModuleIndex.ofModules [], [], ⟨.debug, .loadedOnly⟩⟩
    let external : ExternalCompiler := ⟨"mcs", ["-v"]⟩
    let tools : Toolchain := fun fs _ _ =>
      .ok ⟨0, Text.utf8 "a.cs(1,2): warning CS1: odd", [], fs.put ["out.dll"] (.file [] false)⟩
    let fs := FileSystem.empty.put ["a.cs"] (.file (Text.utf8 "using N;") false)
    ¬ ∃ m, (compiler.compile (external.backend tools) ⟨"/out.dll"⟩ [⟨"/a.cs"⟩] fs ()).answer =
      .ok m := by
  intro compiler external tools fs
  have hResolve : compiler.resolveSources fs [⟨"/a.cs"⟩] =
      .ok (Resolution.ofNamespaces compiler.index (NamespaceSet.ofList ["N"]) []) := by
    decide +kernel +revert
  have hMade : Compiler.makeOutputDirectory fs ⟨"/out.dll"⟩ = (.ok (), fs) := by
    decide +kernel +revert
  have hCleared : removeStale fs ⟨"/out.dll"⟩ = .ok fs := by
    decide +kernel +revert
  have hEmpty : (fs.put ["out.dll"] (.file [] false)).read ⟨"/out.dll"⟩ = .ok [] := by
    decide +kernel +revert
  have hStarted : Started compiler external tools ⟨"/out.dll"⟩ [⟨"/a.cs"⟩] fs ⟨"/out.dll"⟩
      (some ⟨"/out.dll"⟩)
      ⟨0, Text.utf8 "a.cs(1,2): warning CS1: odd", [], fs.put ["out.dll"] (.file [] false)⟩ :=
    ⟨by simp, _, _, _, hResolve, .disk hMade, hCleared, rfl⟩
  rw [(compile_verdict hStarted).1]
  rintro ⟨-, -, image, hRead, hImage⟩
  rw [hEmpty] at hRead
  exact hImage (Except.ok.inj hRead).symm

end ExternalCompiler

end ScriptBuild
