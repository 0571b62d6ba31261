import ScriptBuild.Proofs.Build.Compiler
import ScriptBuild.Proofs.Index.Exporter
import ScriptBuild.Proofs.Reference.Set

/-!
# The references of a build

The references that reach the backend are the first spellings of the loaded modules, followed under
the wider policy by the modules that the declared namespaces select, in ascending order of the
namespaces. Nothing is lost or added on the way through scanning, merging, looking up and removing
repetitions twice.
-/

namespace ScriptBuild

set_option autoImplicit false

namespace Resolution

/-- The locations that the policy adds to the loaded modules: for each name in turn, that of the
first module that declares a type in it. -/
def added (index : ModuleIndex) (names : List String) : ReferencePolicy → List Path
  | .loadedOnly => []
  | .loadedAndMatched =>
    names.filterMap fun name => (index.firstDeclaring? name).map LibraryModule.location

theorem mem_added_iff {index : ModuleIndex} {names : List String} {policy : ReferencePolicy}
    {p : Path} : p ∈ added index names policy ↔ policy = .loadedAndMatched ∧
      ∃ name ∈ names, ∃ first, index.firstDeclaring? name = some first ∧ first.location = p := by
  cases policy with
  | loadedOnly => simp [added]
  | loadedAndMatched => simp [added]

/-- The repetitions removed while resolving are removed again with the loaded modules in front. -/
theorem locations_references (index : ModuleIndex) (namespaces : NamespaceSet)
    (loaded : List Path) (policy : ReferencePolicy) :
    ((ofNamespaces index namespaces loaded).references policy).locations =
      Path.firstSpellings (loaded ++ added index namespaces.names policy) := by
  have hSelected : selected? index =
      fun name => (index.firstDeclaring? name).map LibraryModule.location := by
    funext name
    rw [selected?, ModuleIndex.firstExporter?_eq_firstDeclaring?]
  cases policy with
  | loadedOnly => simp [references, ofNamespaces, added, ReferenceSet.locations_ofList]
  | loadedAndMatched =>
    simp only [references, ofNamespaces, added, hSelected]
    rw [ReferenceSet.locations_extend, ReferenceSet.locations_ofList,
      ReferenceSet.locations_ofList, Path.apartFrom_left_firstSpellings, ← Path.firstSpellings_append,
      Path.firstSpellings_append_firstSpellings]

end Resolution

namespace Compiler

variable {Memory : Type} {compiler : Compiler} {backend : Backend Memory} {output : Path}
  {sources : List Path} {fs : FileSystem} {memory : Memory} {invocation : Invocation}

theorem references_of_mem_calls
    (hCall : invocation ∈ compiler.calls backend output sources fs memory) :
    ∃ names : List String, names.Pairwise Text.Before ∧
      (∀ name, name ∈ names ↔ Declared fs sources name) ∧
      invocation.references = Path.firstSpellings
        (compiler.loaded ++ Resolution.added compiler.index names compiler.options.policy) := by
  obtain ⟨ready, hPrepare⟩ := mem_calls_iff.mp hCall
  obtain ⟨-, resolution, hResolve, rfl, -⟩ := prepare_eq_ok_iff.mp hPrepare
  obtain ⟨namespaces, hScan, rfl⟩ := resolveSources_eq_ok_iff.mp hResolve
  exact ⟨namespaces.names, namespaces.ascending, fun _ => mem_names_of_scanSources hScan,
    Resolution.locations_references _ _ _ _⟩

/-- The references of every build that reaches its backend, in full: which they are, in which order
and spelling, and that the narrower policy gives a first part of them that depends on the loaded
modules only. -/
theorem references_exact
    (hCall : invocation ∈ compiler.calls backend output sources fs memory) :
    (∃ names : List String, names.Pairwise Text.Before ∧
      (∀ name, name ∈ names ↔ Declared fs sources name) ∧
      invocation.references = Path.firstSpellings
        (compiler.loaded ++ Resolution.added compiler.index names compiler.options.policy)) ∧
    (∀ p ∈ compiler.loaded, ∃ q ∈ invocation.references, q.Same p) ∧
    (∀ m ∈ compiler.index.modules, (∀ p ∈ compiler.loaded, ¬ p.Same m.location) →
      ((∃ q ∈ invocation.references, q.Same m.location) ↔
        compiler.options.policy = .loadedAndMatched ∧
          ∃ name, Declared fs sources name ∧
            ∃ first, compiler.index.firstDeclaring? name = some first ∧
              first.location.Same m.location)) ∧
    (invocation.references.Pairwise fun p q => ¬ p.Same q) ∧
    ∀ (narrow : Compiler) (output' : Path) (sources' : List Path) (fs' : FileSystem)
        (invocation' : Invocation),
      narrow.loaded = compiler.loaded → narrow.options.policy = .loadedOnly →
      invocation' ∈ narrow.calls backend output' sources' fs' memory →
        invocation'.references <+: invocation.references ∧
          (compiler.options.policy = .loadedOnly →
            invocation'.references = invocation.references) := by
  obtain ⟨names, hAscending, hNames, hReferences⟩ := references_of_mem_calls hCall
  refine ⟨⟨names, hAscending, hNames, hReferences⟩, ?_, ?_, ?_, ?_⟩
  · intro p hp
    rw [hReferences]
    exact Path.exists_same_mem_firstSpellings (List.mem_append_left _ hp)
  · intro m _ hNotLoaded
    rw [hReferences, Path.exists_same_firstSpellings_iff]
    constructor
    · rintro ⟨q, hq, hSame⟩
      rcases List.mem_append.mp hq with hq | hq
      · exact absurd hSame (hNotLoaded q hq)
      · obtain ⟨hPolicy, name, hName, first, hFirst, rfl⟩ := Resolution.mem_added_iff.mp hq
        exact ⟨hPolicy, name, (hNames name).mp hName, first, hFirst, hSame⟩
    · rintro ⟨hPolicy, name, hDeclared, first, hFirst, hSame⟩
      refine ⟨first.location, List.mem_append_right _ ?_, hSame⟩
      exact Resolution.mem_added_iff.mpr
        ⟨hPolicy, name, (hNames name).mpr hDeclared, first, hFirst, rfl⟩
  · rw [hReferences]
    exact Path.pairwise_firstSpellings _
  · intro narrow output' sources' fs' invocation' hLoaded hNarrow hCall'
    obtain ⟨names', -, -, hReferences'⟩ := references_of_mem_calls hCall'
    rw [hNarrow, hLoaded, Resolution.added, List.append_nil] at hReferences'
    rw [hReferences', hReferences]
    constructor
    · rw [Path.firstSpellings_append]
      exact List.prefix_append _ _
    · intro hPolicy
      rw [hPolicy, Resolution.added, List.append_nil]

/-- A loaded module that the index spells in another way is referred to once, as the host has it. -/
theorem references_respelled :
    let compiler : Compiler :=
      ⟨ModuleIndex.ofModules [⟨⟨"/host/n.dll"⟩, ⟨none, [⟨"T", some "N"⟩]⟩⟩,
        ⟨⟨"/lib/m.dll"⟩, ⟨none, [⟨"U", some "M"⟩]⟩⟩], [⟨"/host//n.dll"⟩],
        ⟨.release, .loadedAndMatched⟩⟩
    let backend : Backend Unit := fun _ fs memory => ⟨.ok ⟨none, []⟩, fs, memory⟩
    let fs := FileSystem.empty.put ["a.cs"] (.file (Text.utf8 "using N; using M; using N;") false)
    let invocation : Invocation :=
      ⟨false, false, true, none, [⟨"/host//n.dll"⟩, ⟨"/lib/m.dll"⟩], [⟨"/a.cs"⟩]⟩
    invocation ∈ compiler.calls backend ⟨"/out.dll"⟩ [⟨"/a.cs"⟩] fs () ∧
      invocation.references.Pairwise fun p q => ¬ p.Same q := by
  intro compiler backend fs invocation
  have hCall : invocation ∈ compiler.calls backend ⟨"/out.dll"⟩ [⟨"/a.cs"⟩] fs () := by
    decide +kernel +revert
  exact ⟨hCall, (references_exact hCall).2.2.2.1⟩

end Compiler

end ScriptBuild
