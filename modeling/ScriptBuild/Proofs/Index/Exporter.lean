import Mathlib.Data.List.Basic
import ScriptBuild.Index.Basic
import ScriptBuild.Proofs.Namespace.Set

/-!
# Exporters of namespaces

The namespace table holds, for every namespace, the positions of the modules that declare a type in
it. Looking up exporters through the table is therefore the same as filtering the modules, and the
first exporter is the first such module.
-/

namespace ScriptBuild

set_option autoImplicit false

variable {name : String}

theorem LibraryModule.exports_iff {m : LibraryModule} :
    m.exports name = true ↔ ∃ t ∈ m.metadata.types, t.space = some name := by
  simp [exports, namespaces, NamespaceSet.contains, NamespaceSet.mem_names_ofList]

theorem LibraryModule.exports_eq_any (name : String) : (fun m : LibraryModule => m.exports name) =
    fun m => m.metadata.types.any fun t => t.space == some name := by
  funext m
  rw [Bool.eq_iff_iff, LibraryModule.exports_iff]
  simp

namespace NamespaceTable

theorem positions_record (table : NamespaceTable) (position : Nat) (other name : String) :
    positions (record position other table) name =
      positions table name ++ if name = other then [position] else [] := by
  induction table with
  | nil =>
    by_cases h : name = other
    · simp [record, positions, h]
    · have hBeq : (name == other) = false := by simpa using h
      simp [record, positions, List.lookup_cons, h, hBeq]
  | cons entry rest ih =>
    obtain ⟨key, recorded⟩ := entry
    rw [record]
    by_cases hKey : key = other
    · by_cases h : name = key
      · simp [positions, hKey, h]
      · have hBeq : (name == key) = false := by simpa using h
        have hOther : name ≠ other := fun he => h (he.trans hKey.symm)
        rw [if_pos hKey]
        simp [positions, List.lookup_cons, hBeq, hOther]
    · rw [if_neg hKey]
      by_cases h : name = key
      · simp [positions, h, hKey]
      · have hBeq : (name == key) = false := by simpa using h
        simpa [positions, List.lookup_cons, hBeq] using ih

theorem positions_foldl_record (names : List String) (hNodup : names.Nodup)
    (table : NamespaceTable) (position : Nat) (name : String) :
    positions (names.foldl (fun table other => record position other table) table) name =
      positions table name ++ if name ∈ names then [position] else [] := by
  induction names generalizing table with
  | nil => simp
  | cons other rest ih =>
    obtain ⟨hNotMem, hRest⟩ := List.nodup_cons.mp hNodup
    rw [List.foldl_cons, ih hRest, positions_record, List.append_assoc]
    by_cases h : name = other
    · simp [h, hNotMem]
    · simp [h]

/-- A module adds its position once to each namespace it exports, however many types it declares
there. -/
theorem positions_recordModule (table : NamespaceTable) (m : LibraryModule) (position : Nat)
    (name : String) :
    positions (recordModule table m position) name =
      positions table name ++ if m.exports name then [position] else [] := by
  rw [recordModule, positions_foldl_record _ (NamespaceSet.nodup_names _)]
  simp [LibraryModule.exports, NamespaceSet.contains]

theorem positions_foldl_recordModule (entries : List (LibraryModule × Nat))
    (table : NamespaceTable) (name : String) :
    positions (entries.foldl (fun table (m, position) => recordModule table m position) table)
        name =
      positions table name ++ (entries.filter fun entry => entry.1.exports name).map Prod.snd := by
  induction entries generalizing table with
  | nil => simp
  | cons entry rest ih =>
    obtain ⟨m, position⟩ := entry
    rw [List.foldl_cons, ih, positions_recordModule, List.append_assoc]
    by_cases h : m.exports name = true <;> simp [h]

theorem positions_ofModules (modules : List LibraryModule) (name : String) :
    positions (ofModules modules) name =
      (modules.zipIdx.filter fun entry => entry.1.exports name).map Prod.snd := by
  rw [ofModules, positions_foldl_recordModule]
  simp [positions]

end NamespaceTable

namespace ModuleIndex

theorem exporters_eq_filter (index : ModuleIndex) (name : String) :
    index.exporters name = index.modules.filter fun m => m.exports name := by
  have hModule : ∀ entry ∈ index.modules.zipIdx.filter fun entry => entry.1.exports name,
      index.modules[entry.2]? = some entry.1 := by
    intro entry hEntry
    exact List.mem_zipIdx_iff_getElem?.mp (List.mem_filter.mp hEntry).1
  have hFst : index.modules.filter (fun m => m.exports name) =
      (index.modules.zipIdx.filter fun entry => entry.1.exports name).map Prod.fst := by
    conv_lhs => rw [← List.zipIdx_map_fst 0 index.modules, List.filter_map]
    rfl
  rw [exporters, index.table_eq, NamespaceTable.positions_ofModules, List.filterMap_map, hFst,
    ← List.filterMap_eq_map]
  exact List.filterMap_congr hModule

def firstDeclaring? (index : ModuleIndex) (name : String) : Option LibraryModule :=
  index.modules.find? fun m => m.metadata.types.any fun t => t.space == some name

theorem firstExporter?_eq_firstDeclaring? (index : ModuleIndex) (name : String) :
    index.firstExporter? name = index.firstDeclaring? name := by
  rw [firstExporter?, exporters_eq_filter, List.head?_filter, LibraryModule.exports_eq_any,
    firstDeclaring?]

end ModuleIndex

end ScriptBuild
