import Mathlib.Data.List.Forall2
import ScriptBuild.Proofs.Build.Course
import ScriptBuild.Proofs.Namespace.Joined

/-!
# Scripts and their contents

What a build imports and refers to depends on its scripts only through what they hold. It makes no
difference how the text is cut into files, in which order the files are given, and how often.
-/

namespace ScriptBuild

set_option autoImplicit false

def Invocation.forSources (invocation : Invocation) (sources : List Path) : Invocation :=
  { invocation with sources := sources }

namespace Compiler

variable {Memory : Type} {compiler : Compiler} {backend : Backend Memory} {output : Path}
  {sources sources' : List Path} {texts texts' : List Bytes} {fs fs' : FileSystem}
  {memory : Memory} {invocation : Invocation} {resolution : Resolution} {name : String}

/-- What the scripts hold, in order. -/
def Holds (fs : FileSystem) (sources : List Path) (texts : List Bytes) : Prop :=
  List.Forall₂ (fun source text => fs.read source = .ok text) sources texts

theorem Holds.readable (h : Holds fs sources texts) : ∀ s ∈ sources, fs.Readable s := by
  induction h with
  | nil => simp
  | @cons source text _ _ hRead _ ih =>
    intro s hs
    rcases List.mem_cons.mp hs with rfl | hs
    · exact ⟨text, hRead⟩
    · exact ih s hs

theorem Holds.declared_iff (h : Holds fs sources texts) :
    Declared fs sources name ↔ ∃ text ∈ texts, name ∈ (Scan.contents text).names := by
  induction h with
  | nil => simp [Declared]
  | @cons source text sources texts hRead _ ih =>
    have hCons : Declared fs (source :: sources) name ↔
        name ∈ (Scan.contents text).names ∨ Declared fs sources name := by
      simp [Declared, hRead]
    rw [hCons, ih]
    simp

theorem scanSources_of_holds (h : Holds fs sources texts) :
    scanSources fs sources = .ok (Scan.contents (Scan.joined texts)) := by
  obtain ⟨namespaces, hScan⟩ := exists_foldlM_scanSource .empty h.readable
  have hSame : namespaces = Scan.contents (Scan.joined texts) := by
    apply NamespaceSet.eq_of_mem_iff
    intro name
    rw [mem_names_of_scanSources hScan, h.declared_iff, Scan.mem_names_contents_joined]
  rw [← hSame]
  exact hScan

theorem contents_joined_congr (hSame : ∀ text, text ∈ texts ↔ text ∈ texts') :
    Scan.contents (Scan.joined texts) = Scan.contents (Scan.joined texts') := by
  apply NamespaceSet.eq_of_mem_iff
  intro name
  simp only [Scan.mem_names_contents_joined, hSame]

theorem resolveSources_of_holds (compiler : Compiler) (h : Holds fs sources texts) :
    compiler.resolveSources fs sources = .ok (Resolution.ofNamespaces compiler.index
      (Scan.contents (Scan.joined texts)) compiler.loaded) :=
  resolveSources_eq_ok_iff.mpr ⟨_, scanSources_of_holds h, rfl⟩

theorem references_of_resolveSources
    (hResolve : compiler.resolveSources fs sources = .ok resolution)
    (hCall : invocation ∈ compiler.calls backend output sources fs memory) :
    invocation.references = (resolution.references compiler.options.policy).locations := by
  obtain ⟨ready, hPrepare⟩ := mem_calls_iff.mp hCall
  obtain ⟨-, resolution', hResolve', rfl, -⟩ := prepare_eq_ok_iff.mp hPrepare
  obtain rfl := Except.ok.inj (hResolve.symm.trans hResolve')
  rfl

/-- Two lists of scripts that resolve to the same are prepared for in the same way. -/
theorem prepare_of_resolveSources (hSome : sources ≠ []) (hSome' : sources' ≠ [])
    (hResolve : compiler.resolveSources fs sources = .ok resolution)
    (hResolve' : compiler.resolveSources fs sources' = .ok resolution) :
    compiler.prepare fs output sources' =
      ((compiler.prepare fs output sources).1.map fun asked => asked.forSources sources',
        (compiler.prepare fs output sources).2) := by
  have hAsked : (compiler.invocation output sources resolution).forSources sources' =
      compiler.invocation output sources' resolution := rfl
  have hMode (given : List Path) : (compiler.invocation output given resolution).inMemory =
      compiler.options.mode.isInMemory := rfl
  simp only [prepare, List.isEmpty_iff, hSome, hSome', hResolve, hResolve', hMode, if_false]
  split
  · simp only [Except.map, hAsked]
  · rcases makeOutputDirectory fs output with ⟨made, after⟩
    cases made with
    | error e => rfl
    | ok _ => simp only [Except.map, hAsked]

theorem calls_of_resolveSources (hSome : sources ≠ []) (hSome' : sources' ≠ [])
    (hResolve : compiler.resolveSources fs sources = .ok resolution)
    (hResolve' : compiler.resolveSources fs sources' = .ok resolution) :
    compiler.calls backend output sources' fs memory =
      (compiler.calls backend output sources fs memory).map
        fun asked => asked.forSources sources' := by
  have hPrepare' : compiler.prepare fs output sources' = _ :=
    prepare_of_resolveSources hSome hSome' hResolve hResolve'
  rcases hPrepare : compiler.prepare fs output sources with ⟨prepared, ready⟩
  rw [hPrepare] at hPrepare'
  cases prepared with
  | error e => rw [calls_of_error hPrepare, calls_of_error hPrepare', List.map_nil]
  | ok asked => rw [calls_of_ok hPrepare, calls_of_ok hPrepare', List.map_singleton]

/-- Readable scripts are scanned as the one file that holds their contents with a newline between
each two. So what is imported, what that resolves to and what the backend is told to refer to depend
on the set of the contents only. -/
theorem sources_as_contents (compiler : Compiler) :
    (∀ fs sources texts, Holds fs sources texts →
      scanSources fs sources = .ok (Scan.contents (Scan.joined texts))) ∧
    ∀ fs fs' sources sources' texts texts', Holds fs sources texts → Holds fs' sources' texts' →
      sources ≠ [] → sources' ≠ [] → (∀ text, text ∈ texts ↔ text ∈ texts') →
        (∃ namespaces, scanSources fs sources = .ok namespaces ∧
          scanSources fs' sources' = .ok namespaces) ∧
        (∃ resolution, compiler.resolveSources fs sources = .ok resolution ∧
          compiler.resolveSources fs' sources' = .ok resolution) ∧
        (∀ {Memory Memory' : Type} (backend : Backend Memory) (backend' : Backend Memory')
            output output' memory memory',
          ∀ invocation ∈ compiler.calls backend output sources fs memory,
          ∀ invocation' ∈ compiler.calls backend' output' sources' fs' memory',
            invocation.references = invocation'.references) ∧
        (fs = fs' → ∀ {Memory : Type} (backend : Backend Memory) output memory,
          compiler.calls backend output sources' fs memory =
            (compiler.calls backend output sources fs memory).map
              fun asked => asked.forSources sources') := by
  refine ⟨fun _ _ _ => scanSources_of_holds, ?_⟩
  intro fs fs' sources sources' texts texts' hTexts hTexts' hSome hSome' hSame
  have hContents := contents_joined_congr hSame
  have hScan := scanSources_of_holds hTexts
  have hScan' := scanSources_of_holds hTexts'
  have hResolve := resolveSources_of_holds compiler hTexts
  have hResolve' := resolveSources_of_holds compiler hTexts'
  rw [← hContents] at hScan' hResolve'
  refine ⟨⟨_, hScan, hScan'⟩, ⟨_, hResolve, hResolve'⟩, ?_, ?_⟩
  · intro _ _ backend backend' output output' memory memory' invocation hCall invocation' hCall'
    rw [references_of_resolveSources hResolve hCall, references_of_resolveSources hResolve' hCall']
  · rintro rfl _ backend output memory
    exact calls_of_resolveSources hSome hSome' hResolve hResolve'

/-- One script ends within a character and another with a carriage return; given in another order
and twice, they import the same. -/
theorem contents_of_cut_scripts :
    let compiler : Compiler :=
      ⟨ModuleIndex.ofModules [⟨⟨"/lib/n.dll"⟩, ⟨none, [⟨"T", some "N"⟩]⟩⟩], [],
        ⟨.release, .loadedAndMatched⟩⟩
    let cut := Text.utf8 "using N; // caf" ++ [0xe9]
    let ended := Text.utf8 "using M;\r"
    let fs := (FileSystem.empty.put ["a.cs"] (.file cut false)).put ["b.cs"] (.file ended false)
    Holds fs [⟨"/a.cs"⟩, ⟨"/b.cs"⟩] [cut, ended] ∧
      Holds fs [⟨"/b.cs"⟩, ⟨"/a.cs"⟩, ⟨"/b.cs"⟩] [ended, cut, ended] ∧
      (∀ text, text ∈ [cut, ended] ↔ text ∈ [ended, cut, ended]) ∧
      scanSources fs [⟨"/a.cs"⟩, ⟨"/b.cs"⟩] =
        .ok (Scan.contents (cut ++ 0x0a :: ended)) ∧
      ∃ resolution, compiler.resolveSources fs [⟨"/a.cs"⟩, ⟨"/b.cs"⟩] = .ok resolution ∧
        compiler.resolveSources fs [⟨"/b.cs"⟩, ⟨"/a.cs"⟩, ⟨"/b.cs"⟩] = .ok resolution := by
  intro compiler cut ended fs
  have hCut : fs.read ⟨"/a.cs"⟩ = .ok cut := by
    decide +kernel +revert
  have hEnded : fs.read ⟨"/b.cs"⟩ = .ok ended := by
    decide +kernel +revert
  have hTexts : Holds fs [⟨"/a.cs"⟩, ⟨"/b.cs"⟩] [cut, ended] :=
    .cons hCut (.cons hEnded .nil)
  have hTexts' : Holds fs [⟨"/b.cs"⟩, ⟨"/a.cs"⟩, ⟨"/b.cs"⟩] [ended, cut, ended] :=
    .cons hEnded (.cons hCut (.cons hEnded .nil))
  have hSame : ∀ text, text ∈ [cut, ended] ↔ text ∈ [ended, cut, ended] := by
    intro text
    simp only [List.mem_cons, List.not_mem_nil, or_false]
    tauto
  obtain ⟨hOne, hAll⟩ := sources_as_contents compiler
  obtain ⟨-, hResolved, -⟩ := hAll fs fs _ _ _ _ hTexts hTexts' (by simp) (by simp) hSame
  exact ⟨hTexts, hTexts', hSame, hOne fs _ _ hTexts, hResolved⟩

end Compiler

end ScriptBuild
