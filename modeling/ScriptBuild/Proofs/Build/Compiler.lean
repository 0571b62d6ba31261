import ScriptBuild.Build.Compiler
import ScriptBuild.Proofs.Namespace.Set
import ScriptBuild.Proofs.Result

/-!
# What reaches the backend

A build asks its backend at most once. It does so exactly when there are scripts, all of them are
read, and in debug mode the directory of the output is made. The namespaces that are then resolved
are those that some script declares.
-/

namespace ScriptBuild

set_option autoImplicit false

/-- A backend that also lists the invocations it is asked for. -/
def Backend.recorded {Memory : Type} (backend : Backend Memory) :
    Backend (Memory × List Invocation) :=
  fun invocation fs memory =>
    let ran := backend invocation fs memory.1
    ⟨ran.answer, ran.files, (ran.memory, memory.2 ++ [invocation])⟩

namespace Compiler

variable {Memory : Type} {compiler : Compiler} {backend : Backend Memory} {output : Path}
  {sources : List Path} {fs ready : FileSystem} {memory : Memory} {invocation : Invocation}
  {name : String}

def calls (compiler : Compiler) (backend : Backend Memory) (output : Path) (sources : List Path)
    (fs : FileSystem) (memory : Memory) : List Invocation :=
  (compiler.compile backend.recorded output sources fs (memory, [])).memory.2

/-- A namespace that one of the scripts declares. -/
def Declared (fs : FileSystem) (sources : List Path) (name : String) : Prop :=
  ∃ source ∈ sources, ∃ contents,
    fs.read source = .ok contents ∧ name ∈ (Scan.contents contents).names

theorem compile_of_error {e : BuildError}
    (h : compiler.prepare fs output sources = (.error e, ready)) :
    compiler.compile backend output sources fs memory = ⟨.error e, ready, memory⟩ := by
  simp [compile, h]

theorem compile_of_ok (h : compiler.prepare fs output sources = (.ok invocation, ready)) :
    compiler.compile backend output sources fs memory =
      ⟨((backend invocation ready memory).answer.mapError .backend).bind judge,
        (backend invocation ready memory).files, (backend invocation ready memory).memory⟩ := by
  simp only [compile, h]
  cases (backend invocation ready memory).answer <;> rfl

theorem mem_calls_iff :
    invocation ∈ compiler.calls backend output sources fs memory ↔
      ∃ ready, compiler.prepare fs output sources = (.ok invocation, ready) := by
  rcases hPrepare : compiler.prepare fs output sources with ⟨prepared, after⟩
  cases prepared with
  | error e => simp [calls, compile_of_error hPrepare]
  | ok asked => simp [calls, compile_of_ok hPrepare, Backend.recorded, eq_comm]

theorem resolveSources_eq_ok_iff {resolution : Resolution} :
    compiler.resolveSources fs sources = .ok resolution ↔
      ∃ namespaces, scanSources fs sources = .ok namespaces ∧
        resolution = Resolution.ofNamespaces compiler.index namespaces compiler.loaded := by
  rw [resolveSources, bind_eq_ok_iff]
  refine exists_congr fun namespaces => and_congr_right fun _ => ?_
  rw [pure_eq_ok_iff, eq_comm]

/-- All that happens before a backend is asked. -/
theorem prepare_eq_ok_iff :
    compiler.prepare fs output sources = (.ok invocation, ready) ↔
      sources ≠ [] ∧ ∃ resolution, compiler.resolveSources fs sources = .ok resolution ∧
        invocation = compiler.invocation output sources resolution ∧
        if compiler.options.mode.isInMemory then ready = fs
        else makeOutputDirectory fs output = (.ok (), ready) := by
  rw [prepare]
  cases sources with
  | nil => simp
  | cons source rest =>
    simp only [List.isEmpty_cons, Bool.false_eq_true, if_false, ne_eq, reduceCtorEq,
      not_false_eq_true, true_and]
    cases hResolve : compiler.resolveSources fs (source :: rest) with
    | error e => simp
    | ok resolution =>
      simp only [Except.ok.injEq, exists_eq_left']
      have hMode : (compiler.invocation output (source :: rest) resolution).inMemory =
          compiler.options.mode.isInMemory := rfl
      rw [hMode]
      cases compiler.options.mode.isInMemory with
      | true => simp [eq_comm]
      | false =>
        rcases hMade : makeOutputDirectory fs output with ⟨made, after⟩
        cases made <;> simp [eq_comm]

theorem mem_names_of_foldlM_scanSource {found namespaces : NamespaceSet}
    (h : sources.foldlM (scanSource fs) found = .ok namespaces) :
    name ∈ namespaces.names ↔ name ∈ found.names ∨ Declared fs sources name := by
  induction sources generalizing found with
  | nil =>
    obtain rfl := pure_eq_ok_iff.mp h
    simp [Declared]
  | cons source rest ih =>
    rw [List.foldlM_cons, scanSource] at h
    obtain ⟨next, hScan, h⟩ := bind_eq_ok_iff.mp h
    cases hRead : fs.read source with
    | error cause => simp [hRead] at hScan
    | ok contents =>
      rw [hRead] at hScan
      obtain rfl := Except.ok.inj hScan
      rw [ih h, NamespaceSet.mem_names_merge]
      have hCons : Declared fs (source :: rest) name ↔
          name ∈ (Scan.contents contents).names ∨ Declared fs rest name := by
        simp [Declared, hRead]
      rw [hCons, or_assoc, or_left_comm]

theorem mem_names_of_scanSources {namespaces : NamespaceSet}
    (h : scanSources fs sources = .ok namespaces) :
    name ∈ namespaces.names ↔ Declared fs sources name := by
  have hFound : name ∈ namespaces.names ↔
      name ∈ NamespaceSet.empty.names ∨ Declared fs sources name :=
    mem_names_of_foldlM_scanSource h
  simpa using hFound

end Compiler

end ScriptBuild
