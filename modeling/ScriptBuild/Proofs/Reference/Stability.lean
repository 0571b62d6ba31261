import ScriptBuild.Proofs.Index.Exporter
import ScriptBuild.Proofs.Reference.Set
import ScriptBuild.Reference.Resolution

/-!
# Resolution when the index changes

A module that is put into an index is selected for the namespaces that it exports and that no module
before it exports, and for no others. What else is selected stays as it is. At the end of the index a
module resolves what was unresolved and otherwise changes the selected modules at most in the place
and the spelling of its own location, where that was selected before.
-/

namespace ScriptBuild

set_option autoImplicit false

variable {name : String} {front back modules : List LibraryModule} {m : LibraryModule}
  {index other : ModuleIndex} {namespaces : NamespaceSet} {loaded : List Path} {p : Path}
  {ps : List Path}

/-! ## Paths left out of a list -/

namespace Path

theorem apartFrom_cons (p q : Path) (ps : List Path) :
    apartFrom [p] (q :: ps) = if p.Same q then apartFrom [p] ps else q :: apartFrom [p] ps := by
  by_cases hSame : p.Same q
  · simp [apartFrom, hSame]
  · simp [apartFrom, hSame]

theorem apartFrom_firstSpellings (p : Path) (ps : List Path) :
    apartFrom [p] (firstSpellings ps) = firstSpellings (apartFrom [p] ps) := by
  induction ps with
  | nil => rfl
  | cons q ps ih =>
    rw [firstSpellings, apartFrom_cons, apartFrom_cons]
    by_cases hSame : p.Same q
    · -- what is the same as the one path is the same as the other
      have hApart : ∀ r, (∀ s ∈ [p] ++ [q], ¬ s.Same r) ↔ ∀ s ∈ [p], ¬ s.Same r := by
        intro r
        have hEither : ¬ p.Same r → ¬ q.Same r := fun hp hq => hp (hSame.trans hq)
        simpa using hEither
      rw [if_pos hSame, if_pos hSame, apartFrom_apartFrom, apartFrom_congr hApart, ih]
    · have hApart : ∀ r, (∀ s ∈ [p] ++ [q], ¬ s.Same r) ↔ ∀ s ∈ [q] ++ [p], ¬ s.Same r := by
        intro r
        simp [and_comm]
      rw [if_neg hSame, if_neg hSame, firstSpellings, ← ih, apartFrom_apartFrom,
        apartFrom_congr hApart, ← apartFrom_apartFrom]

end Path

/-! ## First exporters -/

namespace ModuleIndex

theorem firstExporter?_ofModules (modules : List LibraryModule) (name : String) :
    (ofModules modules).firstExporter? name = modules.find? fun m => m.exports name := by
  rw [firstExporter?, exporters_eq_filter, List.head?_filter, modules_ofModules]

/-- What a module in between changes. -/
theorem firstExporter?_between (front back : List LibraryModule) (m : LibraryModule)
    (name : String) : (ofModules (front ++ m :: back)).firstExporter? name =
      if m.exports name = true ∧ ∀ n ∈ front, ¬ n.exports name = true then some m
      else (ofModules (front ++ back)).firstExporter? name := by
  rw [firstExporter?_ofModules, firstExporter?_ofModules, List.find?_append, List.find?_append,
    List.find?_cons]
  by_cases hFront : ∀ n ∈ front, ¬ n.exports name = true
  · have hNone : (front.find? fun n => n.exports name) = none := List.find?_eq_none.mpr hFront
    rw [hNone, Option.none_or, Option.none_or]
    cases hExports : m.exports name with
    | true => rw [if_pos ⟨rfl, hFront⟩]
    | false => rw [if_neg fun h => absurd h.1 (by decide)]
  · obtain ⟨first, hFirst⟩ : ∃ first, (front.find? fun n => n.exports name) = some first := by
      apply Option.ne_none_iff_exists'.mp
      exact fun hNone => hFront (List.find?_eq_none.mp hNone)
    rw [hFirst, Option.some_or, Option.some_or, if_neg fun h => hFront h.2]

theorem firstExporter?_at_end (modules : List LibraryModule) (m : LibraryModule) (name : String) :
    (ofModules (modules ++ [m])).firstExporter? name =
      ((ofModules modules).firstExporter? name).or (if m.exports name then some m else none) := by
  rw [firstExporter?_ofModules, firstExporter?_ofModules, List.find?_append, List.find?_singleton]

end ModuleIndex

/-! ## Resolutions -/

namespace Resolution

open ModuleIndex

theorem mem_selected_iff {names : List String} : (∃ q ∈ names.filterMap (selected? index), q.Same p) ↔
    ∃ name ∈ names, ∃ first, index.firstExporter? name = some first ∧ first.location.Same p := by
  simp only [List.mem_filterMap, selected?, Option.map_eq_some_iff]
  constructor
  · intro ⟨q, ⟨name, hName, first, hFirst, hLocation⟩, hSame⟩
    exact ⟨name, hName, first, hFirst, hLocation ▸ hSame⟩
  · intro ⟨name, hName, first, hFirst, hSame⟩
    exact ⟨first.location, ⟨name, hName, first, hFirst, rfl⟩, hSame⟩

theorem exists_same_matched_iff :
    (∃ q ∈ (ofNamespaces index namespaces loaded).matched, q.Same p) ↔
      ∃ name ∈ namespaces.names, ∃ first, index.firstExporter? name = some first ∧
        first.location.Same p := by
  rw [ofNamespaces, ReferenceSet.locations_ofList, Path.exists_same_firstSpellings_iff,
    mem_selected_iff]

theorem mem_unresolved_iff : name ∈ (ofNamespaces index namespaces loaded).unresolved ↔
    name ∈ namespaces.names ∧ index.firstExporter? name = none := by
  rw [ofNamespaces, List.mem_filter, Option.isNone_iff_eq_none]

/-- A resolution depends on the first exporters of the requested namespaces only. -/
theorem ofNamespaces_congr
    (h : ∀ name ∈ namespaces.names, index.firstExporter? name = other.firstExporter? name) :
    ofNamespaces index namespaces loaded = ofNamespaces other namespaces loaded := by
  have hSelected : namespaces.names.filterMap (selected? index) =
      namespaces.names.filterMap (selected? other) := by
    apply List.filterMap_congr
    intro name hName
    rw [selected?, h name hName, selected?]
  have hUnresolved : (namespaces.names.filter fun name => (index.firstExporter? name).isNone) =
      namespaces.names.filter fun name => (other.firstExporter? name).isNone := by
    apply List.filter_congr
    intro name hName
    rw [h name hName]
  rw [ofNamespaces, ofNamespaces, hSelected, hUnresolved]

theorem firstExporter?_of_changed
    (h : (ofModules (front ++ m :: back)).firstExporter? name ≠
      (ofModules (front ++ back)).firstExporter? name) :
    m.exports name = true ∧ (∀ n ∈ front, ¬ n.exports name = true) ∧
      (ofModules (front ++ m :: back)).firstExporter? name = some m := by
  rw [firstExporter?_between] at h ⊢
  split at h
  · rename_i hFirst
    exact ⟨hFirst.1, hFirst.2, if_pos hFirst⟩
  · exact absurd rfl h

theorem ofNamespaces_between
    (h : ∀ name ∈ namespaces.names, m.exports name = true → ∃ n ∈ front, n.exports name = true) :
    ofNamespaces (ofModules (front ++ m :: back)) namespaces loaded =
      ofNamespaces (ofModules (front ++ back)) namespaces loaded := by
  apply ofNamespaces_congr
  intro name hName
  rw [firstExporter?_between, if_neg]
  intro ⟨hExports, hFront⟩
  obtain ⟨n, hn, hBefore⟩ := h name hName hExports
  exact hFront n hn hBefore

theorem unresolved_at_end (modules : List LibraryModule) (m : LibraryModule) :
    (ofNamespaces (ofModules (modules ++ [m])) namespaces loaded).unresolved =
      (ofNamespaces (ofModules modules) namespaces loaded).unresolved.filter
        fun name => !m.exports name := by
  rw [ofNamespaces, ofNamespaces, List.filter_filter]
  apply List.filter_congr
  intro name _
  rw [firstExporter?_at_end]
  cases (ofModules modules).firstExporter? name with
  | some first => simp
  | none => cases m.exports name <;> rfl

/-- At the end of the index a module adds nothing but its own location to what is selected. -/
theorem apartFrom_selected_at_end (modules : List LibraryModule) (m : LibraryModule)
    (names : List String) :
    Path.apartFrom [m.location] (names.filterMap (selected? (ofModules (modules ++ [m])))) =
      Path.apartFrom [m.location] (names.filterMap (selected? (ofModules modules))) := by
  induction names with
  | nil => rfl
  | cons name names ih =>
    have hSelected : selected? (ofModules (modules ++ [m])) name =
        (selected? (ofModules modules) name).or
          (if m.exports name then some m.location else none) := by
      rw [selected?, firstExporter?_at_end, selected?]
      cases (ofModules modules).firstExporter? name with
      | some first => rfl
      | none => cases m.exports name <;> rfl
    rw [List.filterMap_cons, List.filterMap_cons, hSelected]
    cases selected? (ofModules modules) name with
    | some location =>
      rw [Option.some_or]
      simp only [Path.apartFrom_cons, ih]
    | none =>
      rw [Option.none_or]
      cases m.exports name with
      | true =>
        rw [if_pos rfl]
        simp only [Path.apartFrom_cons, if_pos (Path.Same.refl m.location), ih]
      | false => exact ih

theorem apartFrom_matched_at_end (modules : List LibraryModule) (m : LibraryModule) :
    Path.apartFrom [m.location]
        (ofNamespaces (ofModules (modules ++ [m])) namespaces loaded).matched =
      Path.apartFrom [m.location] (ofNamespaces (ofModules modules) namespaces loaded).matched := by
  rw [ofNamespaces, ofNamespaces, ReferenceSet.locations_ofList, ReferenceSet.locations_ofList,
    Path.apartFrom_firstSpellings, Path.apartFrom_firstSpellings, apartFrom_selected_at_end]

theorem location_matched_at_end_iff (modules : List LibraryModule) (m : LibraryModule) :
    (∃ q ∈ (ofNamespaces (ofModules (modules ++ [m])) namespaces loaded).matched,
        q.Same m.location) ↔
      (∃ q ∈ (ofNamespaces (ofModules modules) namespaces loaded).matched, q.Same m.location) ∨
        ∃ name ∈ (ofNamespaces (ofModules modules) namespaces loaded).unresolved,
          m.exports name = true := by
  rw [exists_same_matched_iff, exists_same_matched_iff]
  constructor
  · intro ⟨name, hName, first, hFirst, hSame⟩
    rw [firstExporter?_at_end] at hFirst
    cases hBefore : (ofModules modules).firstExporter? name with
    | some found =>
      rw [hBefore, Option.some_or] at hFirst
      exact Or.inl ⟨name, hName, first, hBefore.trans hFirst, hSame⟩
    | none =>
      rw [hBefore, Option.none_or] at hFirst
      refine Or.inr ⟨name, mem_unresolved_iff.mpr ⟨hName, hBefore⟩, ?_⟩
      by_contra hExports
      rw [if_neg hExports] at hFirst
      cases hFirst
  · intro h
    obtain ⟨name, hName, first, hFirst, hSame⟩ | ⟨name, hUnresolved, hExports⟩ := h
    · refine ⟨name, hName, first, ?_, hSame⟩
      rw [firstExporter?_at_end, hFirst, Option.some_or]
    · obtain ⟨hName, hNone⟩ := mem_unresolved_iff.mp hUnresolved
      refine ⟨name, hName, m, ?_, Path.Same.refl m.location⟩
      rw [firstExporter?_at_end, hNone, Option.none_or, if_pos hExports]

/-- Putting a module into an index changes the selected module of a namespace only to itself, where
it exports the namespace and no module before it does; without such a namespace in the request the
resolution is the same. At the end of the index it leaves the selected module of each resolved
namespace as it is, takes from the unresolved namespaces exactly those that it exports, and leaves
the matched modules apart from its own location as they are. -/
theorem ofNamespaces_stable :
    (∀ front back m name, (ofModules (front ++ m :: back)).firstExporter? name ≠
        (ofModules (front ++ back)).firstExporter? name →
      m.exports name = true ∧ (∀ n ∈ front, ¬ n.exports name = true) ∧
        (ofModules (front ++ m :: back)).firstExporter? name = some m) ∧
    (∀ front back m namespaces loaded,
      (∀ name ∈ namespaces.names, m.exports name = true → ∃ n ∈ front, n.exports name = true) →
        ofNamespaces (ofModules (front ++ m :: back)) namespaces loaded =
          ofNamespaces (ofModules (front ++ back)) namespaces loaded) ∧
    ∀ modules m namespaces loaded,
      let before := ofNamespaces (ofModules modules) namespaces loaded
      let after := ofNamespaces (ofModules (modules ++ [m])) namespaces loaded
      after.loaded = before.loaded ∧
      (∀ name ∈ namespaces.names, ∀ first, (ofModules modules).firstExporter? name = some first →
        (ofModules (modules ++ [m])).firstExporter? name = some first ∧
          (∃ q ∈ before.matched, q.Same first.location) ∧
          ∃ q ∈ after.matched, q.Same first.location) ∧
      after.unresolved = before.unresolved.filter (fun name => !m.exports name) ∧
      Path.apartFrom [m.location] after.matched = Path.apartFrom [m.location] before.matched ∧
      ((∃ q ∈ after.matched, q.Same m.location) ↔ (∃ q ∈ before.matched, q.Same m.location) ∨
        ∃ name ∈ before.unresolved, m.exports name = true) := by
  refine ⟨fun _ _ _ _ => firstExporter?_of_changed, fun _ _ _ _ _ => ofNamespaces_between, ?_⟩
  intro modules m namespaces loaded before after
  refine ⟨rfl, ?_, unresolved_at_end modules m, apartFrom_matched_at_end modules m,
    location_matched_at_end_iff modules m⟩
  intro name hName first hFirst
  have hAfter : (ofModules (modules ++ [m])).firstExporter? name = some first := by
    rw [firstExporter?_at_end, hFirst, Option.some_or]
  have hSame := Path.Same.refl first.location
  exact ⟨hAfter, exists_same_matched_iff.mpr ⟨name, hName, first, hFirst, hSame⟩,
    exists_same_matched_iff.mpr ⟨name, hName, first, hAfter, hSame⟩⟩

/-- A module between two others that exports what the first one exports, and one at the end that is
at the place of an earlier one and moves it to the front. -/
theorem stable_of_repeated_location :
    let a : LibraryModule := ⟨⟨"/lib/a.dll"⟩, ⟨none, [⟨"T", some "N"⟩]⟩⟩
    let b : LibraryModule := ⟨⟨"/lib/b.dll"⟩, ⟨none, [⟨"T", some "Z"⟩]⟩⟩
    let between : LibraryModule := ⟨⟨"/lib/x.dll"⟩, ⟨none, [⟨"T", some "N"⟩, ⟨"U", some "M"⟩]⟩⟩
    let last : LibraryModule := ⟨⟨"/lib//b.dll"⟩, ⟨none, [⟨"T", some "A"⟩]⟩⟩
    let request := NamespaceSet.ofList ["Z", "N", "A"]
    (∀ name ∈ request.names, between.exports name = true → ∃ n ∈ [a], n.exports name = true) ∧
      ofNamespaces (ofModules [a, between, b]) request [] =
        ⟨[], [⟨"/lib/a.dll"⟩, ⟨"/lib/b.dll"⟩], ["A"]⟩ ∧
      (ofNamespaces (ofModules [a, b, last]) request []).matched =
        [⟨"/lib//b.dll"⟩, ⟨"/lib/a.dll"⟩] ∧
      (ofModules [a, b, last]).firstExporter? "Z" = some b := by
  intro a b between last request
  have hBefore : ofNamespaces (ofModules [a, b]) request [] =
      ⟨[], [⟨"/lib/a.dll"⟩, ⟨"/lib/b.dll"⟩], ["A"]⟩ := by decide +kernel +revert
  have hMatched : (ofNamespaces (ofModules [a, b, last]) request []).matched =
      [⟨"/lib//b.dll"⟩, ⟨"/lib/a.dll"⟩] := by decide +kernel +revert
  have hCovered : ∀ name ∈ request.names, between.exports name = true →
      ∃ n ∈ [a], n.exports name = true := by decide +kernel +revert
  have hName : "Z" ∈ request.names := by decide +kernel +revert
  have hFirst : (ofModules [a, b]).firstExporter? "Z" = some b := by decide +kernel +revert
  refine ⟨hCovered, ?_, hMatched, ?_⟩
  · exact (ofNamespaces_stable.2.1 [a] [b] between request [] hCovered).trans hBefore
  · exact ((ofNamespaces_stable.2.2 [a, b] last request []).2.1 "Z" hName b hFirst).1

end Resolution

end ScriptBuild
