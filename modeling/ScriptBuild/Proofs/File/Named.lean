import ScriptBuild.Proofs.File.Success
import ScriptBuild.Proofs.File.Walk
import ScriptBuild.Proofs.Path.Parts

/-!
# Entries and the names that lead to them

In a file tree every entry is reached by names that hold no slash and are neither empty nor `.` nor
`..`. The entries of a directory are then those that one more name leads to, and a walk to a
directory goes on to an entry by that name.
-/

namespace ScriptBuild.FileSystem

set_option autoImplicit false

variable {fs fs' : FileSystem} {p : Path} {place : Place} {left : Nat} {name : String}
  {directory location : Location} {node : Node}

theorem exists_node_of_mem {entry : Location × Node} (hEntry : entry ∈ fs.entries) :
    ∃ node, fs.node? entry.1 = some node := by
  by_cases hRoot : entry.1 = []
  · exact ⟨.directory, by rw [hRoot, node?_root]⟩
  · have hFound : (fs.entries.lookup entry.1).isSome = true :=
      List.lookup_isSome_iff.mpr ⟨entry, hEntry, beq_self_eq_true _⟩
    rw [node?, if_neg hRoot]
    exact Option.isSome_iff_exists.mp hFound

theorem exists_entry (hRoot : location ≠ []) (hNode : fs.node? location = some node) :
    ∃ entry ∈ fs.entries, entry.1 = location := by
  rw [node?, if_neg hRoot] at hNode
  obtain ⟨entry, hEntry, hKey⟩ := List.lookup_isSome_iff.mp (Option.isSome_of_eq_some hNode)
  exact ⟨entry, hEntry, (eq_of_beq hKey).symm⟩

/-- Every entry, and every directory on the way to it, has a name that entries may have. -/
def Named (fs : FileSystem) : Prop :=
  ∀ location node, fs.node? location = some node → ∀ name ∈ location, Path.IsName name

theorem named_iff :
    fs.Named ↔ ∀ entry ∈ fs.entries, ∀ name ∈ entry.1, Path.IsName name := by
  constructor
  · intro hNamed entry hEntry
    by_cases hRoot : entry.1 = []
    · simp [hRoot]
    · obtain ⟨node, hNode⟩ := exists_node_of_mem hEntry
      exact hNamed entry.1 node hNode
  · intro hEntries location node hNode
    by_cases hRoot : location = []
    · simp [hRoot]
    · obtain ⟨entry, hEntry, rfl⟩ := exists_entry hRoot hNode
      exact hEntries entry hEntry

instance (fs : FileSystem) : Decidable fs.Named := decidable_of_iff _ named_iff.symm

theorem Named.congr (hSame : fs.SameEntries fs') (hNamed : fs.Named) : fs'.Named := by
  intro location node hNode
  rw [← hSame location] at hNode
  exact hNamed location node hNode

theorem nameIn?_eq_some_iff : nameIn? directory location = some name ↔
    location = directory ++ [name] := by
  unfold nameIn?
  constructor
  · intro h
    split at h
    · rename_i hParent
      obtain ⟨front, hLocation⟩ := List.getLast?_eq_some_iff.mp h
      rw [← hParent, hLocation, List.dropLast_concat]
    · simp at h
  · rintro rfl
    simp

theorem mem_children_iff :
    name ∈ fs.children directory ↔ ∃ node, fs.node? (directory ++ [name]) = some node := by
  have hNode : fs.node? (directory ++ [name]) = fs.entries.lookup (directory ++ [name]) := by
    simp [node?]
  rw [hNode, ← Option.isSome_iff_exists, List.lookup_isSome_iff, children, List.mem_filterMap]
  simp only [nameIn?_eq_some_iff, beq_iff_eq]
  exact exists_congr fun _ => and_congr_right fun _ => eq_comm

theorem nodup_children (fs : FileSystem) (directory : Location) :
    (fs.children directory).Nodup := by
  have hKeys : fs.children directory = (fs.entries.map Prod.fst).filterMap (nameIn? directory) := by
    rw [List.filterMap_map]
    rfl
  rw [hKeys]
  refine List.Pairwise.filterMap _ ?_ fs.distinct
  rintro location location' hOther name hName name' hName' rfl
  apply hOther
  rw [nameIn?_eq_some_iff.mp hName, nameIn?_eq_some_iff.mp hName']

theorem Named.isName (hNamed : fs.Named) (hName : name ∈ fs.children directory) :
    Path.IsName name := by
  obtain ⟨node, hNode⟩ := mem_children_iff.mp hName
  exact hNamed _ _ hNode name (by simp)

theorem text_of_walk {follow : Bool} (h : fs.walk follow p = .ok (place, left)) :
    p.text.toList ≠ [] := by
  unfold walk at h
  split at h
  · simp at h
  · rename_i hText
    simpa using hText

theorem walk_join (hName : Path.IsName name) (h : fs.walk true p = .ok (place, left)) :
    fs.walk true (p.join ⟨name⟩) = fs.pursue true left place.location [.enter name] := by
  have hSome := text_of_walk h
  have hJoin := Path.text_join_ne_nil hSome hName
  have hStart : fs.start (p.join ⟨name⟩) = fs.start p := by
    rw [start, start, Path.isAbsolute_join hSome hName]
  unfold walk at h ⊢
  rw [if_neg (by simpa using hSome)] at h
  rw [if_neg (by simpa using hJoin), hStart]
  obtain ⟨steps, hSteps | hSteps, hJoined⟩ := Path.steps_join hSome hName
  · rw [hJoined, ← hSteps]
    exact pursue_append_of_ok h (Or.inl rfl) (List.cons_ne_nil _ _)
  · rw [hJoined]
    rw [hSteps] at h
    exact pursue_of_stay h (List.cons_ne_nil _ _)

theorem isDirectory_iff : fs.isDirectory p = true ↔
    ∃ place left, fs.walk true p = .ok (place, left) ∧
      fs.node? place.location = some .directory := by
  rw [← lookUp_eq_ok_iff, isDirectory]
  split
  · rename_i hDirectory
    exact iff_of_true rfl hDirectory
  · rename_i hNot
    exact iff_of_false nofun hNot

theorem list_of_walk (h : fs.walk true p = .ok (place, left))
    (hDir : fs.node? place.location = some .directory) :
    fs.list p = .ok (fs.children place.location) := by
  refine bind_eq_ok_iff.mpr ⟨place, locate_eq_ok_iff.mpr ⟨left, h⟩, ?_⟩
  rw [hDir]
  rfl

section Congr

variable (hSame : fs.SameEntries fs') (hDirectory : fs.workingDirectory = fs'.workingDirectory)
include hSame hDirectory

theorem walk_congr (follow : Bool) (p : Path) : fs.walk follow p = fs'.walk follow p := by
  have hStart : fs.start p = fs'.start p := by simp only [start, hDirectory]
  simp only [walk, hStart, pursue_congr hSame]

theorem isDirectory_congr (p : Path) : fs.isDirectory p = fs'.isDirectory p := by
  rw [Bool.eq_iff_iff, isDirectory_iff, isDirectory_iff]
  simp only [walk_congr hSame hDirectory, hSame _]

end Congr

end ScriptBuild.FileSystem
