import ScriptBuild.Proofs.Build.Compiler

/-!
# The course of a build

A build fails for the first of four reasons, in the order of the work: there is no script, a script
cannot be read, the directory of the output cannot be made, or the backend gives no usable module.
The backend is asked once where none of the first three applies, and never otherwise. What it
answers is passed on as it is.
-/

namespace ScriptBuild

set_option autoImplicit false

def FileSystem.Readable (fs : FileSystem) (p : Path) : Prop := ∃ contents, fs.read p = .ok contents

namespace Compiler

variable {Memory : Type} {compiler : Compiler} {backend : Backend Memory} {output : Path}
  {sources : List Path} {fs ready : FileSystem} {memory : Memory} {invocation : Invocation}
  {source directory : Path} {cause : FileError} {e : BuildError} {produced : BackendOutput}
  {m : CompiledModule}

/-- The script is the first in the given order that cannot be read. -/
def FirstUnread (fs : FileSystem) (sources : List Path) (source : Path) (cause : FileError) :
    Prop :=
  ∃ before after, sources = before ++ source :: after ∧ (∀ s ∈ before, fs.Readable s) ∧
    fs.read source = .error cause

/-- The directory of the output cannot be made; what has been made on the way to it is left. -/
def NoRoom (fs : FileSystem) (output directory : Path) (cause : FileError) (left : FileSystem) :
    Prop :=
  output.parent? = some directory ∧ fs.makeDirectories directory = (.error cause, left)

def Usable (produced : BackendOutput) (m : CompiledModule) : Prop :=
  produced.module = some m ∧ m.image ≠ [] ∧ ∀ d ∈ produced.diagnostics, d.severity ≠ .error

/-- What the backend is asked for, apart from the references. -/
structure Asked (mode : BuildMode) (output : Path) (sources : List Path)
    (invocation : Invocation) : Prop where
  isLibrary : invocation.executable = false
  debugInfo_iff : invocation.debugInfo = true ↔ mode = .debug
  onDisk_iff : invocation.inMemory = false ↔ mode = .debug
  output_eq : invocation.output = if mode = .debug then some output else none
  sources_eq : invocation.sources = sources

theorem exists_foldlM_scanSource (found : NamespaceSet) (hRead : ∀ s ∈ sources, fs.Readable s) :
    ∃ namespaces, sources.foldlM (scanSource fs) found = .ok namespaces := by
  induction sources generalizing found with
  | nil => exact ⟨found, rfl⟩
  | cons source rest ih =>
    obtain ⟨contents, hContents⟩ := hRead source List.mem_cons_self
    obtain ⟨namespaces, hRest⟩ := ih (found.merge (Scan.contents contents))
      fun s hs => hRead s (List.mem_cons_of_mem _ hs)
    refine ⟨namespaces, ?_⟩
    rw [List.foldlM_cons, scanSource, hContents]
    exact hRest

theorem scanSources_of_firstUnread (h : FirstUnread fs sources source cause) :
    scanSources fs sources = .error (.unreadableSource source cause) := by
  obtain ⟨before, after, rfl, hBefore, hFails⟩ := h
  obtain ⟨found, hFound⟩ := exists_foldlM_scanSource .empty hBefore
  rw [scanSources, List.foldlM_append, hFound]
  change (source :: after).foldlM (scanSource fs) found = _
  rw [List.foldlM_cons, scanSource, hFails]
  rfl

theorem exists_firstUnread (h : ¬ ∀ s ∈ sources, fs.Readable s) :
    ∃ source cause, FirstUnread fs sources source cause := by
  induction sources with
  | nil => simp at h
  | cons s rest ih =>
    cases hRead : fs.read s with
    | error cause => exact ⟨s, cause, [], rest, rfl, by simp, hRead⟩
    | ok contents =>
      have hRest : ¬ ∀ s ∈ rest, fs.Readable s := by
        intro hRest
        apply h
        intro s' hs'
        rcases List.mem_cons.mp hs' with rfl | hs'
        · exact ⟨contents, hRead⟩
        · exact hRest s' hs'
      obtain ⟨source, cause, before, after, rfl, hBefore, hFails⟩ := ih hRest
      refine ⟨source, cause, s :: before, after, rfl, ?_, hFails⟩
      intro s' hs'
      rcases List.mem_cons.mp hs' with rfl | hs'
      · exact ⟨contents, hRead⟩
      · exact hBefore s' hs'

theorem exists_resolveSources (compiler : Compiler) (hRead : ∀ s ∈ sources, fs.Readable s) :
    ∃ resolution, compiler.resolveSources fs sources = .ok resolution := by
  obtain ⟨namespaces, hScan⟩ := exists_foldlM_scanSource .empty hRead
  exact ⟨_, resolveSources_eq_ok_iff.mpr ⟨namespaces, hScan, rfl⟩⟩

theorem makeOutputDirectory_of_noRoom {left : FileSystem}
    (h : NoRoom fs output directory cause left) :
    makeOutputDirectory fs output = (.error (.outputDirectory directory cause), left) := by
  rw [makeOutputDirectory, h.1]
  simp only [h.2]
  rfl

theorem exists_makeOutputDirectory
    (h : ∀ directory cause left, ¬ NoRoom fs output directory cause left) :
    ∃ ready, makeOutputDirectory fs output = (.ok (), ready) := by
  rw [makeOutputDirectory]
  cases hParent : output.parent? with
  | none => exact ⟨fs, rfl⟩
  | some directory =>
    rcases hMade : fs.makeDirectories directory with ⟨made, after⟩
    cases made with
    | error cause => exact absurd ⟨hParent, hMade⟩ (h directory cause after)
    | ok _ => exact ⟨after, by simp only [hMade]; rfl⟩

theorem prepare_of_firstUnread (h : FirstUnread fs sources source cause) :
    compiler.prepare fs output sources = (.error (.unreadableSource source cause), fs) := by
  have hScan : compiler.resolveSources fs sources = .error (.unreadableSource source cause) := by
    rw [resolveSources, scanSources_of_firstUnread h]
    rfl
  have hSome : sources.isEmpty = false := by
    obtain ⟨before, after, rfl, -⟩ := h
    simp
  simp [prepare, hSome, hScan]

theorem prepare_of_noRoom {left : FileSystem} (hSome : sources ≠ [])
    (hRead : ∀ s ∈ sources, fs.Readable s) (hMode : compiler.options.mode = .debug)
    (h : NoRoom fs output directory cause left) :
    compiler.prepare fs output sources = (.error (.outputDirectory directory cause), left) := by
  obtain ⟨resolution, hResolve⟩ := exists_resolveSources compiler hRead
  have hDisk : (compiler.invocation output sources resolution).inMemory = false := by
    simp [invocation, hMode, BuildMode.isInMemory]
  simp [prepare, hSome, hResolve, hDisk, makeOutputDirectory_of_noRoom h]

theorem asked_invocation (compiler : Compiler) (output : Path) (sources : List Path)
    (resolution : Resolution) :
    Asked compiler.options.mode output sources (compiler.invocation output sources resolution) := by
  constructor
  · rfl
  · cases h : compiler.options.mode <;> simp [invocation, h, BuildMode.hasDebugInfo]
  · cases h : compiler.options.mode <;> simp [invocation, h, BuildMode.isInMemory]
  · cases h : compiler.options.mode <;> simp [invocation, h, BuildMode.isInMemory]
  · rfl

/-- Once the scripts are read and there is room for the output, the backend is asked. -/
theorem exists_prepare (hSome : sources ≠ []) (hRead : ∀ s ∈ sources, fs.Readable s)
    (hRoom : compiler.options.mode = .debug →
      ∀ directory cause left, ¬ NoRoom fs output directory cause left) :
    ∃ invocation ready, compiler.prepare fs output sources = (.ok invocation, ready) ∧
      Asked compiler.options.mode output sources invocation ∧
      (compiler.options.mode = .debug → makeOutputDirectory fs output = (.ok (), ready)) ∧
      (compiler.options.mode = .release → ready = fs) := by
  obtain ⟨resolution, hResolve⟩ := exists_resolveSources compiler hRead
  have hAsked := asked_invocation compiler output sources resolution
  cases hMode : compiler.options.mode with
  | debug =>
    obtain ⟨ready, hMade⟩ := exists_makeOutputDirectory (hRoom hMode)
    refine ⟨_, ready, prepare_eq_ok_iff.mpr ⟨hSome, resolution, hResolve, rfl, ?_⟩, hMode ▸ hAsked,
      fun _ => hMade, by simp⟩
    simpa [hMode, BuildMode.isInMemory] using hMade
  | release =>
    refine ⟨_, fs, prepare_eq_ok_iff.mpr ⟨hSome, resolution, hResolve, rfl, ?_⟩, hMode ▸ hAsked,
      by simp, fun _ => rfl⟩
    simp [hMode, BuildMode.isInMemory]

theorem calls_of_error (h : compiler.prepare fs output sources = (.error e, ready)) :
    compiler.calls backend output sources fs memory = [] := by
  rw [calls, compile_of_error h]

theorem calls_of_ok (h : compiler.prepare fs output sources = (.ok invocation, ready)) :
    compiler.calls backend output sources fs memory = [invocation] := by
  rw [calls, compile_of_ok h]
  rfl

theorem judge_of_module (h : produced.module = some m) :
    judge produced = if produced.hasErrors = false ∧ m.image ≠ [] then .ok m
      else .error (.compilation produced.diagnostics) := by
  simp [judge, h, CompiledModule.isEmpty]

theorem judge_eq_ok_iff : judge produced = .ok m ↔ Usable produced m := by
  have hErrors : produced.hasErrors = false ↔ ∀ d ∈ produced.diagnostics, d.severity ≠ .error := by
    simp [BackendOutput.hasErrors, Diagnostic.isError]
  rw [Usable, ← hErrors]
  cases hModule : produced.module with
  | none => simp [judge, hModule]
  | some made =>
    rw [judge_of_module hModule]
    constructor
    · intro h
      split at h
      · rename_i hUsable
        obtain rfl := Except.ok.inj h
        exact ⟨rfl, hUsable.2, hUsable.1⟩
      · simp at h
    · rintro ⟨hSame, hImage, hNone⟩
      obtain rfl := Option.some.inj hSame
      exact if_pos ⟨hNone, hImage⟩

theorem judge_of_not_usable (h : ∀ m, ¬ Usable produced m) :
    judge produced = .error (.compilation produced.diagnostics) := by
  cases hModule : produced.module with
  | none => simp [judge, hModule]
  | some made =>
    have hJudge : judge produced ≠ .ok made := mt judge_eq_ok_iff.mp (h made)
    rw [judge_of_module hModule] at hJudge ⊢
    split
    · rename_i hUsable
      exact absurd (if_pos hUsable) hJudge
    · rfl

/-- What a backend has answered is passed on: its fault, its usable module, or its diagnostics. -/
structure PassedOn (ran : Outcome Memory BackendFault BackendOutput)
    (result : Outcome Memory BuildError CompiledModule) : Prop where
  files_eq : result.files = ran.files
  memory_eq : result.memory = ran.memory
  fault : ∀ fault, ran.answer = .error fault → result.answer = .error (.backend fault)
  module_iff : ∀ produced, ran.answer = .ok produced →
    ∀ m, result.answer = .ok m ↔ Usable produced m
  failure : ∀ produced, ran.answer = .ok produced → (∀ m, ¬ Usable produced m) →
    result.answer = .error (.compilation produced.diagnostics)

theorem passedOn_of_prepare (h : compiler.prepare fs output sources = (.ok invocation, ready)) :
    PassedOn (backend invocation ready memory)
      (compiler.compile backend output sources fs memory) := by
  rw [compile_of_ok h]
  refine ⟨rfl, rfl, ?_, ?_, ?_⟩
  · intro fault hFault
    rw [hFault]
    rfl
  · intro produced hProduced m
    rw [hProduced]
    exact judge_eq_ok_iff
  · intro produced hProduced hNone
    rw [hProduced]
    exact judge_of_not_usable hNone

/-- The course of every build: which failure wins, what is left of the files, and whether and with
what the backend is asked. -/
theorem compile_course (compiler : Compiler) (backend : Backend Memory) (output : Path)
    (sources : List Path) (fs : FileSystem) (memory : Memory) :
    let result := compiler.compile backend output sources fs memory
    let calls := compiler.calls backend output sources fs memory
    let mode := compiler.options.mode
    let Blocked := mode = .debug ∧ ∃ directory cause left, NoRoom fs output directory cause left
    (sources = [] → result = ⟨.error .noSources, fs, memory⟩ ∧ calls = []) ∧
    (sources ≠ [] → (¬ ∀ s ∈ sources, fs.Readable s) →
      ∃ source cause, FirstUnread fs sources source cause ∧
        result = ⟨.error (.unreadableSource source cause), fs, memory⟩ ∧ calls = []) ∧
    (sources ≠ [] → (∀ s ∈ sources, fs.Readable s) → Blocked →
      ∃ directory cause left, NoRoom fs output directory cause left ∧
        result = ⟨.error (.outputDirectory directory cause), left, memory⟩ ∧ calls = []) ∧
    (sources ≠ [] → (∀ s ∈ sources, fs.Readable s) → ¬ Blocked →
      ∃ invocation ready, calls = [invocation] ∧ Asked mode output sources invocation ∧
        (mode = .debug → makeOutputDirectory fs output = (.ok (), ready)) ∧
        (mode = .release → ready = fs) ∧ PassedOn (backend invocation ready memory) result) := by
  intro result calls mode Blocked
  refine ⟨?_, ?_, ?_, ?_⟩
  · rintro rfl
    have hPrepare : compiler.prepare fs output [] = (.error .noSources, fs) := rfl
    exact ⟨compile_of_error hPrepare, calls_of_error hPrepare⟩
  · intro _ hUnread
    obtain ⟨source, cause, hFirst⟩ := exists_firstUnread hUnread
    have hPrepare : compiler.prepare fs output sources = _ := prepare_of_firstUnread hFirst
    exact ⟨source, cause, hFirst, compile_of_error hPrepare, calls_of_error hPrepare⟩
  · rintro hSome hRead ⟨hMode, directory, cause, left, hNoRoom⟩
    have hPrepare := prepare_of_noRoom hSome hRead hMode hNoRoom
    exact ⟨directory, cause, left, hNoRoom, compile_of_error hPrepare, calls_of_error hPrepare⟩
  · intro hSome hRead hFree
    have hRoom : mode = .debug → ∀ directory cause left, ¬ NoRoom fs output directory cause left :=
      fun hMode directory cause left hNoRoom => hFree ⟨hMode, directory, cause, left, hNoRoom⟩
    obtain ⟨invocation, ready, hPrepare, hAsked, hDebug, hRelease⟩ :=
      exists_prepare hSome hRead hRoom
    exact ⟨invocation, ready, calls_of_ok hPrepare, hAsked, hDebug, hRelease,
      passedOn_of_prepare hPrepare⟩

/-- A script that is missing is reported before an output below a file, and nothing is asked. -/
theorem course_of_missing_script :
    let compiler : Compiler := ⟨ModuleIndex.ofModules [], [], ⟨.debug, .loadedOnly⟩⟩
    let backend : Backend Unit := fun _ fs memory => ⟨.ok ⟨none, []⟩, fs, memory⟩
    let fs := FileSystem.empty.put ["a.cs"] (.file (Text.utf8 "using N;") false)
    let sources : List Path := [⟨"/a.cs"⟩, ⟨"/b.cs"⟩, ⟨"/c.cs"⟩]
    sources ≠ [] ∧ (¬ ∀ s ∈ sources, fs.Readable s) ∧
      NoRoom fs ⟨"/a.cs/out.dll"⟩ ⟨"/a.cs"⟩ .alreadyExists fs ∧
      ∃ source cause, FirstUnread fs sources source cause ∧
        compiler.compile backend ⟨"/a.cs/out.dll"⟩ sources fs () =
          ⟨.error (.unreadableSource source cause), fs, ()⟩ ∧
        compiler.calls backend ⟨"/a.cs/out.dll"⟩ sources fs () = [] := by
  intro compiler backend fs sources
  have hMissing : fs.read ⟨"/b.cs"⟩ = .error .notFound := by
    decide +kernel +revert
  have hBlocked : fs.makeDirectories ⟨"/a.cs"⟩ = (.error .alreadyExists, fs) := by
    decide +kernel +revert
  have hSome : sources ≠ [] := by simp [sources]
  have hUnread : ¬ ∀ s ∈ sources, fs.Readable s := by
    intro hRead
    obtain ⟨contents, hContents⟩ := hRead ⟨"/b.cs"⟩ (by simp [sources])
    simp [hMissing] at hContents
  have hNoRoom : NoRoom fs ⟨"/a.cs/out.dll"⟩ ⟨"/a.cs"⟩ .alreadyExists fs :=
    ⟨by decide +kernel, hBlocked⟩
  exact ⟨hSome, hUnread, hNoRoom,
    (compile_course compiler backend ⟨"/a.cs/out.dll"⟩ sources fs ()).2.1 hSome hUnread⟩

end Compiler

end ScriptBuild
