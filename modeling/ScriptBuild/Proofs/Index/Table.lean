import ScriptBuild.Proofs.Index.Exporter

/-!
# The namespace table

Recording a position adds it to the entry of its namespace, or makes one where there is none, so no
namespace ever has two entries. Every entry is therefore the one that is looked up, and holds the
positions of the modules that declare a type in its namespace, each once and in ascending order.
Looking up exporters through the table is a linear search of the modules.
-/

namespace ScriptBuild

set_option autoImplicit false

namespace NamespaceTable

variable {table : NamespaceTable} {position : Nat} {name : String} {modules : List LibraryModule}

def keys (table : NamespaceTable) : List String := table.map Prod.fst

@[simp] theorem keys_cons (entry : String × List Nat) (rest : NamespaceTable) :
    keys (entry :: rest) = entry.1 :: keys rest := rfl

/-! ## One entry for each namespace -/

theorem keys_record (position : Nat) (name : String) (table : NamespaceTable) :
    keys (record position name table) =
      if name ∈ keys table then keys table else keys table ++ [name] := by
  induction table with
  | nil => rfl
  | cons entry rest ih =>
    obtain ⟨key, recorded⟩ := entry
    rw [record, keys_cons]
    by_cases hKey : key = name
    · rw [if_pos hKey, keys_cons, if_pos (hKey ▸ List.mem_cons_self)]
    · have hMem : name ∈ key :: keys rest ↔ name ∈ keys rest := by
        rw [List.mem_cons, or_iff_right fun h => hKey h.symm]
      rw [if_neg hKey, keys_cons, ih, apply_ite (List.cons key)]
      simp only [hMem, List.cons_append]

theorem nodup_keys_record (h : (keys table).Nodup) : (keys (record position name table)).Nodup := by
  rw [keys_record]
  split
  · exact h
  · rename_i hNew
    apply List.nodup_append.mpr
    refine ⟨h, List.pairwise_singleton _ name, ?_⟩
    intro key hKey other hOther hSame
    rw [List.mem_singleton.mp hOther] at hSame
    exact hNew (hSame ▸ hKey)

theorem nodup_keys_recordModule (m : LibraryModule) (position : Nat) (h : (keys table).Nodup) :
    (keys (recordModule table m position)).Nodup := by
  rw [recordModule]
  apply List.foldlRecOn (motive := fun table => (keys table).Nodup) _ _ h
  intro table hTable name _
  exact nodup_keys_record hTable

theorem nodup_keys_ofModules (modules : List LibraryModule) : (keys (ofModules modules)).Nodup := by
  have hEmpty : (keys []).Nodup := List.nodup_nil
  rw [ofModules]
  apply List.foldlRecOn (motive := fun table => (keys table).Nodup) _ _ hEmpty
  intro table hTable entry _
  exact nodup_keys_recordModule entry.1 entry.2 hTable

theorem positions_of_mem {entry : String × List Nat} (hKeys : (keys table).Nodup)
    (h : entry ∈ table) : positions table entry.1 = entry.2 := by
  obtain ⟨above, below, hTable⟩ := List.append_of_mem h
  have hAbove : ∀ other ∈ above, (entry.1 != other.1) = true := by
    intro other hOther
    rw [hTable, keys, List.map_append] at hKeys
    have hApart := (List.nodup_append.mp hKeys).2.2 other.1 (List.mem_map_of_mem hOther) entry.1
      (by simp)
    exact bne_iff_ne.mpr hApart.symm
  have hFound : table.lookup entry.1 = some entry.2 :=
    List.lookup_eq_some_iff.mpr ⟨above, below, hTable, hAbove⟩
  rw [positions, hFound, Option.getD_some]

/-! ## Positions -/

theorem pairwise_positions_ofModules (modules : List LibraryModule) (name : String) :
    (positions (ofModules modules) name).Pairwise (· < ·) := by
  rw [positions_ofModules]
  have hAll : (modules.zipIdx.map Prod.snd).Pairwise (· < ·) := by
    rw [List.zipIdx_map_snd]
    exact List.pairwise_lt_range'
  exact hAll.sublist (List.filter_sublist.map Prod.snd)

theorem mem_positions_ofModules : position ∈ positions (ofModules modules) name ↔
    ∃ m, modules[position]? = some m ∧ m.exports name = true := by
  rw [positions_ofModules, List.mem_map]
  constructor
  · intro ⟨entry, hEntry, hPosition⟩
    obtain ⟨hMem, hExports⟩ := List.mem_filter.mp hEntry
    rw [← hPosition]
    exact ⟨entry.1, List.mem_zipIdx_iff_getElem?.mp hMem, hExports⟩
  · intro ⟨m, hModule, hExports⟩
    refine ⟨(m, position), ?_, rfl⟩
    apply List.mem_filter.mpr
    exact ⟨List.mem_zipIdx_iff_getElem?.mpr hModule, hExports⟩

theorem lt_length_of_mem_positions (h : position ∈ positions (ofModules modules) name) :
    position < modules.length := by
  obtain ⟨m, hModule, -⟩ := mem_positions_ofModules.mp h
  exact (List.getElem?_eq_some_iff.mp hModule).1

end NamespaceTable

/-- Looking up a namespace in the table gives the modules that declare a type in it, in their order,
and the first of them. The table holds their positions in ascending order, under each namespace
once, and no other positions. -/
theorem ModuleIndex.ofModules_searches (modules : List LibraryModule) :
    (∀ name, (ofModules modules).exporters name =
        modules.filter fun m => m.metadata.types.any fun t => t.space == some name) ∧
    (∀ name, (ofModules modules).firstExporter? name =
        (modules.filter fun m => m.metadata.types.any fun t => t.space == some name).head?) ∧
    (∀ name, ((ofModules modules).table.positions name).Pairwise (· < ·) ∧
      ∀ position, position ∈ (ofModules modules).table.positions name ↔
        ∃ m, modules[position]? = some m ∧ ∃ t ∈ m.metadata.types, t.space = some name) ∧
    ((ofModules modules).table.map Prod.fst).Nodup ∧
    ∀ entry ∈ (ofModules modules).table,
      entry.2 = (ofModules modules).table.positions entry.1 ∧
        ∀ position ∈ entry.2, position < modules.length := by
  have hExporters : ∀ name, (ofModules modules).exporters name =
      modules.filter fun m => m.metadata.types.any fun t => t.space == some name := by
    intro name
    rw [exporters_eq_filter, LibraryModule.exports_eq_any, modules_ofModules]
  have hKeys := NamespaceTable.nodup_keys_ofModules modules
  refine ⟨hExporters, ?_, ?_, hKeys, ?_⟩
  · intro name
    rw [firstExporter?, hExporters]
  · intro name
    refine ⟨NamespaceTable.pairwise_positions_ofModules modules name, ?_⟩
    intro position
    refine NamespaceTable.mem_positions_ofModules.trans ?_
    simp only [LibraryModule.exports_iff]
  · intro entry hEntry
    have hPositions := NamespaceTable.positions_of_mem hKeys hEntry
    refine ⟨hPositions.symm, ?_⟩
    intro position hPosition
    rw [← hPositions] at hPosition
    exact NamespaceTable.lt_length_of_mem_positions hPosition

/-- Two modules at one place, in two spellings, that declare in one namespace twice and once, and
between them one that declares in the namespace without a name. -/
theorem ModuleIndex.searches_of_repeated_modules :
    let modules : List LibraryModule :=
      [⟨⟨"/lib/a.dll"⟩, ⟨none, [⟨"T", some "N"⟩, ⟨"U", none⟩, ⟨"V", some "N"⟩]⟩⟩,
        ⟨⟨"/lib/b.dll"⟩, ⟨none, [⟨"T", some ""⟩]⟩⟩, ⟨⟨"/lib//a.dll"⟩, ⟨none, [⟨"W", some "N"⟩]⟩⟩]
    ("N", [0, 2]) ∈ (ofModules modules).table ∧
      [0, 2] = (ofModules modules).table.positions "N" ∧ ∀ position ∈ [0, 2], position < 3 := by
  intro modules
  have hEntry : ("N", [0, 2]) ∈ (ofModules modules).table := by decide +kernel +revert
  exact ⟨hEntry, (ofModules_searches modules).2.2.2.2 ("N", [0, 2]) hEntry⟩

end ScriptBuild
