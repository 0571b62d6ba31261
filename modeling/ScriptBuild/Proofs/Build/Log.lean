import ScriptBuild.Build.Log
import ScriptBuild.Proofs.Build.Launch

/-!
# What the log tells of a build

Of a build the log notes that it begins and, with the length of the module, that it has succeeded.
All else that it tells of a build is for those who look for faults. Among that, it tells of a run of
the compiler if and only if the compiler is launched.
-/

namespace ScriptBuild

set_option autoImplicit false

theorem Logger.write_off (log : List Event) : Logger.off.write log = [] := by
  rw [write, List.flatMap_eq_nil_iff]
  intro entry _
  rfl

/-- The events of a log that are shown where nothing else is asked for. -/
def notable (log : List Event) : List Event := log.filter Event.isNotable

theorem notable_append (log log' : List Event) :
    notable (log ++ log') = notable log ++ notable log' := List.filter_append ..

theorem notable_cons_of_debug {e : Event} (h : e.level = .debug) (log : List Event) :
    notable (e :: log) = notable log := by
  simp [notable, Event.isNotable, h]

theorem notable_cons_of_ne {e : Event} (h : e.level ≠ .debug) (log : List Event) :
    notable (e :: log) = e :: notable log := by
  simp [notable, Event.isNotable, h]

theorem notable_eq_self_iff {log : List Event} :
    notable log = log ↔ ∀ e ∈ log, e.level ≠ .debug := by
  simp [notable, Event.isNotable]

theorem notable_eq_nil_iff {log : List Event} :
    notable log = [] ↔ ∀ e ∈ log, e.level = .debug := by
  simp [notable, Event.isNotable]

theorem ModuleIndex.notable_log (index : ModuleIndex) (root : Path) :
    notable (index.log root) = index.log root := by
  rw [notable_eq_self_iff]
  intro e he
  rcases List.mem_append.mp he with hSkipped | hIndexed
  · obtain ⟨skipped, -, rfl⟩ := List.mem_map.mp hSkipped
    simp [Event.level]
  · obtain rfl := List.mem_singleton.mp hIndexed
    simp [Event.level]

theorem Resolution.notable_log (r : Resolution) (namespaces : NamespaceSet) :
    notable (r.log namespaces) = [] := by
  rw [notable_eq_nil_iff]
  intro e he
  rw [log, List.mem_append, List.mem_append] at he
  rcases he with (hMissing | hResolved) | hUnresolved
  · obtain ⟨name, -, rfl⟩ := List.mem_map.mp hMissing
    rfl
  · obtain rfl := List.mem_singleton.mp hResolved
    rfl
  · split at hUnresolved
    · cases hUnresolved
    · obtain rfl := List.mem_singleton.mp hUnresolved
      rfl

namespace ExternalCompiler

variable (external : ExternalCompiler) (tools : Toolchain) (invocation : Invocation)
  (fs : FileSystem)

theorem notable_exitLog (exit : Exit) : notable (exitLog exit) = [] := by
  simp only [exitLog]
  split
  · rfl
  · split
    · rfl
    · rfl

theorem notable_runLog (path : Path) :
    notable (external.runLog tools invocation fs path) = [] := by
  unfold runLog
  split
  · rfl
  · rw [notable_cons_of_debug rfl]
    split
    · rfl
    · exact notable_exitLog _

theorem notable_log : notable (external.log tools invocation fs) = [] := by
  unfold log
  split
  · split
    · rfl
    · exact notable_runLog ..
  · split
    · rfl
    · exact notable_runLog ..

end ExternalCompiler

namespace Compiler

variable {compiler : Compiler} {external : ExternalCompiler} {tools : Toolchain} {output : Path}
  {sources : List Path} {fs : FileSystem}

theorem notable_prepareLog (hGiven : sources ≠ []) :
    notable (compiler.prepareLog fs output sources) =
      [.compiling sources.length output compiler.options.mode] := by
  rw [prepareLog, if_neg (by simpa using hGiven), notable_cons_of_ne (by simp [Event.level])]
  split
  · rfl
  · rw [Resolution.notable_log]

def ending : Except BuildError CompiledModule → List Event
  | .ok m => [.compiled m.image.length]
  | .error _ => []

theorem notable_judgeLog (answer : Except BackendFault BackendOutput) :
    notable (judgeLog answer) = ending ((answer.mapError .backend).bind judge) := by
  cases answer with
  | error fault => rfl
  | ok produced =>
    have hBind : ((Except.ok produced).mapError BuildError.backend).bind judge =
        judge produced := rfl
    rw [judgeLog, hBind]
    cases judge produced with
    | ok m => rfl
    | error e => rfl

/-- A build that has scripts is noted when it begins and when it has succeeded. -/
theorem notable_log (hGiven : sources ≠ []) :
    notable (compiler.log external tools output sources fs) =
      .compiling sources.length output compiler.options.mode ::
        ending (compiler.compile (external.backend tools) output sources fs ()).answer := by
  rw [log, notable_append, notable_prepareLog hGiven, List.singleton_append]
  rcases hPrepare : compiler.prepare fs output sources with ⟨prepared, ready⟩
  cases prepared with
  | error e => rw [compile_of_error hPrepare]; rfl
  | ok invocation =>
    have hAnswer : (compiler.compile (external.backend tools) output sources fs ()).answer =
        ((external.compile tools invocation ready).1.mapError .backend).bind judge := by
      rw [compile_of_ok hPrepare]
      rfl
    rw [hAnswer, notable_append, ExternalCompiler.notable_log, List.nil_append, notable_judgeLog]

end Compiler

/-! ## Launches -/

namespace ExternalCompiler

variable {compiler : Compiler} {external : ExternalCompiler} {tools : Toolchain} {output path : Path}
  {sources : List Path} {fs : FileSystem} {invocation : Invocation} {log log' : List Event}

def TellsRun (log : List Event) : Prop :=
  ∃ program sources references, .running program sources references ∈ log

theorem tellsRun_append : TellsRun (log ++ log') ↔ TellsRun log ∨ TellsRun log' := by
  simp [TellsRun, exists_or]

theorem not_tellsRun_resolution (r : Resolution) (namespaces : NamespaceSet) :
    ¬ TellsRun (r.log namespaces) := by
  intro ⟨program, n, k, hMem⟩
  simp only [Resolution.log, List.mem_append, List.mem_map] at hMem
  rcases hMem with (⟨name, -, hEvent⟩ | hEvent) | hEvent
  · cases hEvent
  · simp at hEvent
  · split at hEvent
    · simp at hEvent
    · simp at hEvent

theorem not_tellsRun_prepareLog : ¬ TellsRun (compiler.prepareLog fs output sources) := by
  intro ⟨program, n, k, hMem⟩
  unfold Compiler.prepareLog at hMem
  split at hMem
  · cases hMem
  · split at hMem
    · simp at hMem
    · have hLater := (List.mem_cons.mp hMem).resolve_left (by simp)
      exact not_tellsRun_resolution _ _ ⟨program, n, k, hLater⟩

theorem not_tellsRun_judgeLog (answer : Except BackendFault BackendOutput) :
    ¬ TellsRun (Compiler.judgeLog answer) := by
  intro ⟨program, n, k, hMem⟩
  unfold Compiler.judgeLog at hMem
  split at hMem
  · cases hMem
  · split at hMem
    · simp at hMem
    · simp at hMem

theorem tellsRun_runLog_iff : TellsRun (external.runLog tools invocation fs path) ↔
    ∃ found, removeStale fs path = .ok found := by
  unfold runLog
  cases removeStale fs path with
  | error e => simp [TellsRun]
  | ok found => exact iff_of_true ⟨_, _, _, List.mem_cons_self⟩ ⟨found, rfl⟩

theorem tellsRun_log_iff : TellsRun (external.log tools invocation fs) ↔
    ∃ written location target found, Target fs invocation written location target ∧
      removeStale target written = .ok found := by
  unfold log
  constructor
  · intro hTells
    split at hTells
    · rename_i hMode
      split at hTells
      · simp [TellsRun] at hTells
      · rename_i hMade
        obtain ⟨found, hStale⟩ := tellsRun_runLog_iff.mp hTells
        exact ⟨_, _, _, found, .memory hMode hMade, hStale⟩
    · rename_i hMode
      split at hTells
      · simp [TellsRun] at hTells
      · rename_i path hOutput
        obtain ⟨found, hStale⟩ := tellsRun_runLog_iff.mp hTells
        exact ⟨_, _, _, found, .disk (by simpa using hMode) hOutput, hStale⟩
  · intro ⟨written, location, target, found, hTarget, hStale⟩
    cases hTarget with
    | disk hMode hOutput =>
      rw [if_neg (by simp [hMode]), hOutput]
      exact tellsRun_runLog_iff.mpr ⟨found, hStale⟩
    | memory hMode hMade =>
      rw [if_pos hMode, hMade]
      exact tellsRun_runLog_iff.mpr ⟨found, hStale⟩

/-- The log tells of a run exactly if a compiler is launched. -/
theorem tellsRun_iff_launches : TellsRun (compiler.log external tools output sources fs) ↔
    ∃ invocation written found,
      Launches compiler output sources fs invocation written found := by
  rw [Compiler.log, tellsRun_append, or_iff_right not_tellsRun_prepareLog]
  rcases hPrepare : compiler.prepare fs output sources with ⟨prepared, ready⟩
  cases prepared with
  | error e => simp [TellsRun, Launches, hPrepare]
  | ok invocation =>
    rw [tellsRun_append, or_iff_left (not_tellsRun_judgeLog _), tellsRun_log_iff]
    constructor
    · intro ⟨written, location, target, found, hTarget, hStale⟩
      exact ⟨invocation, written, found, ready, location, target, hPrepare, hTarget, hStale⟩
    · intro ⟨asked, written, found, ready', location, target, hAsked, hTarget, hStale⟩
      obtain ⟨hSame, rfl⟩ := Prod.mk.inj (hPrepare.symm.trans hAsked)
      obtain rfl := Except.ok.inj hSame
      exact ⟨written, location, target, found, hTarget, hStale⟩

end ExternalCompiler

end ScriptBuild
