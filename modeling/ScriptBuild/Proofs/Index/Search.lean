import ScriptBuild.Index.Walk
import ScriptBuild.Proofs.File.Named

/-!
# What a search below a root finds

The search goes into every entry that is a directory, links followed, and keeps the other entries
that have the extension. It meets no path twice: two paths that it meets part at the names of two
entries of one directory.
-/

namespace ScriptBuild.FileSystem

set_option autoImplicit false

variable {fs fs' : FileSystem} {extension name : String} {names : List String} {limit left : Nat}
  {directory : Location} {place : Place} {root shown p q : Path}

/-- The directories that a search below a root goes into. -/
inductive Visited (fs : FileSystem) (root : Path) : Path → Prop
  | root : Visited fs root root
  | entry {p : Path} {names : List String} {name : String} (hVisited : Visited fs root p)
      (hList : fs.list p = .ok names) (hName : name ∈ names)
      (hDir : fs.isDirectory (p.join ⟨name⟩) = true) : Visited fs root (p.join ⟨name⟩)

/-- The entries, no directories themselves, of the directories that a search goes into, as far as
their names have the extension. -/
def Found (fs : FileSystem) (extension : String) (root p : Path) : Prop :=
  ∃ directory names name, Visited fs root directory ∧ fs.list directory = .ok names ∧
    name ∈ names ∧ p = directory.join ⟨name⟩ ∧ fs.isDirectory p = false ∧
    Path.HasExtension name extension

theorem Visited.of_entry (hList : fs.list root = .ok names) (hName : name ∈ names)
    (hDir : fs.isDirectory (root.join ⟨name⟩) = true)
    (h : fs.Visited (root.join ⟨name⟩) p) : fs.Visited root p := by
  induction h with
  | root => exact .entry .root hList hName hDir
  | entry _ hList' hName' hDir' ih => exact .entry ih hList' hName' hDir'

theorem Visited.first (h : fs.Visited root p) : p = root ∨
    ∃ names name, fs.list root = .ok names ∧ name ∈ names ∧
      fs.isDirectory (root.join ⟨name⟩) = true ∧ fs.Visited (root.join ⟨name⟩) p := by
  induction h with
  | root => exact Or.inl rfl
  | entry _ hList hName hDir ih =>
    rcases ih with rfl | ⟨names, first, hFirstList, hFirst, hFirstDir, hBelow⟩
    · exact Or.inr ⟨_, _, hList, hName, hDir, .root⟩
    · exact Or.inr ⟨names, first, hFirstList, hFirst, hFirstDir, .entry hBelow hList hName hDir⟩

/-- What is found below a directory is one of its entries, or is found below one of them. -/
theorem found_iff (hList : fs.list root = .ok names) : fs.Found extension root p ↔
    ∃ name ∈ names,
      if fs.isDirectory (root.join ⟨name⟩) then fs.Found extension (root.join ⟨name⟩) p
      else p = root.join ⟨name⟩ ∧ Path.HasExtension name extension := by
  constructor
  · rintro ⟨directory, names', name, hVisited, hList', hName, hp, hFile, hExtension⟩
    rcases hVisited.first with rfl | ⟨names'', first, hFirstList, hFirst, hDir, hBelow⟩
    · obtain rfl : names = names' := Except.ok.inj (hList.symm.trans hList')
      refine ⟨name, hName, ?_⟩
      rw [← hp, hFile]
      exact ⟨rfl, hExtension⟩
    · obtain rfl : names = names'' := Except.ok.inj (hList.symm.trans hFirstList)
      refine ⟨first, hFirst, ?_⟩
      rw [if_pos hDir]
      exact ⟨directory, names', name, hBelow, hList', hName, hp, hFile, hExtension⟩
  · rintro ⟨name, hName, h⟩
    split at h
    · rename_i hDir
      obtain ⟨directory, names', name', hVisited, hList', hName', hp, hFile, hExtension⟩ := h
      exact ⟨directory, names', name', hVisited.of_entry hList hName hDir, hList', hName', hp,
        hFile, hExtension⟩
    · rename_i hNot
      obtain ⟨rfl, hExtension⟩ := h
      exact ⟨root, names, name, .root, hList, hName, rfl, by simpa using hNot, hExtension⟩

def filesAt (fs : FileSystem) (extension : String) (limit : Nat) (directory : Location)
    (shown : Path) (name : String) : List Path :=
  match fs.pursue true limit directory [.enter name] with
  | .error _ => if (shown.join ⟨name⟩).hasExtension extension then [shown.join ⟨name⟩] else []
  | .ok (place, left) =>
    if fs.isDirectoryAt place.location then
      fs.filesBelow extension left place.location (shown.join ⟨name⟩)
    else if (shown.join ⟨name⟩).hasExtension extension then [shown.join ⟨name⟩] else []

theorem filesBelow_eq : fs.filesBelow extension limit directory shown =
    (fs.children directory).flatMap (fs.filesAt extension limit directory shown) := by
  rw [filesBelow]
  rw [List.flatMap_subtype (g := fs.filesAt extension limit directory shown)]
  · simp
  · intro name hName
    unfold filesAt
    dsimp only
    split
    · rename_i hPursue
      rw [hPursue]
    · rename_i hPursue
      rw [hPursue]

section Search

variable (hNamed : fs.Named) (hWalk : fs.walk true shown = .ok (place, limit))
  (hDir : fs.node? place.location = some .directory) (hName : name ∈ fs.children place.location)
include hNamed hWalk hName

theorem filesAt_of_directory (hEntry : fs.isDirectory (shown.join ⟨name⟩) = true) :
    ∃ place' left, fs.pursue true limit place.location [.enter name] = .ok (place', left) ∧
      fs.walk true (shown.join ⟨name⟩) = .ok (place', left) ∧
      fs.node? place'.location = some .directory ∧
      fs.filesAt extension limit place.location shown name =
        fs.filesBelow extension left place'.location (shown.join ⟨name⟩) := by
  obtain ⟨place', left, hJoin, hNode⟩ := isDirectory_iff.mp hEntry
  have hPursue := hJoin
  rw [walk_join (hNamed.isName hName) hWalk] at hPursue
  refine ⟨place', left, hPursue, hJoin, hNode, ?_⟩
  simp [filesAt, hPursue, isDirectoryAt, hNode]

theorem filesAt_of_not_directory (hEntry : fs.isDirectory (shown.join ⟨name⟩) = false) :
    fs.filesAt extension limit place.location shown name =
      if (shown.join ⟨name⟩).hasExtension extension then [shown.join ⟨name⟩] else [] := by
  unfold filesAt
  have hJoin := walk_join (hNamed.isName hName) hWalk
  cases hPursue : fs.pursue true limit place.location [.enter name] with
  | error e => rfl
  | ok reached =>
    obtain ⟨place', left⟩ := reached
    have hNot : fs.node? place'.location ≠ some .directory := by
      intro hNode
      rw [isDirectory_iff.mpr ⟨place', left, hJoin.trans hPursue, hNode⟩] at hEntry
      simp at hEntry
    simp [isDirectoryAt, hNot]

end Search

theorem mem_filesBelow (hNamed : fs.Named) (hWalk : fs.walk true shown = .ok (place, limit))
    (hDir : fs.node? place.location = some .directory) :
    p ∈ fs.filesBelow extension limit place.location shown ↔ fs.Found extension shown p := by
  generalize hDirectory : place.location = directory at hDir ⊢
  induction limit, directory, shown using filesBelow.induct fs generalizing place with
  | case1 limit directory shown ih =>
    subst hDirectory
    rw [filesBelow_eq, List.mem_flatMap, found_iff (list_of_walk hWalk hDir)]
    apply exists_congr
    intro name
    apply and_congr_right
    intro hName
    have hFile := Path.fileName?_join (text_of_walk hWalk) (hNamed.isName hName)
    by_cases hEntry : fs.isDirectory (shown.join ⟨name⟩) = true
    · obtain ⟨place', left, hPursue, hJoin, hNode, hFiles⟩ :=
        filesAt_of_directory hNamed hWalk hName hEntry
      rw [if_pos hEntry, hFiles]
      exact ih name hName place' left hPursue (by simp [isDirectoryAt, hNode]) hJoin rfl hNode
    · rw [if_neg hEntry, filesAt_of_not_directory hNamed hWalk hName (by simpa using hEntry),
        ← Path.hasExtension_iff hFile]
      split <;> simp [*]

theorem Visited.isDirectory (hRoot : fs.isDirectory root = true) (h : fs.Visited root p) :
    fs.isDirectory p = true := by
  cases h with
  | root => exact hRoot
  | entry _ _ _ hDir => exact hDir

theorem segments_entry (hNamed : fs.Named) (hDir : fs.isDirectory p = true)
    (hList : fs.list p = .ok names) (hName : name ∈ names) :
    (p.join ⟨name⟩).segments = p.segments ++ [.name name] := by
  obtain ⟨place, left, hWalk, hNode⟩ := isDirectory_iff.mp hDir
  rw [list_of_walk hWalk hNode] at hList
  obtain rfl := Except.ok.inj hList
  exact Path.segments_join (text_of_walk hWalk) (hNamed.isName hName)

theorem Visited.segments_prefix (hNamed : fs.Named) (hRoot : fs.isDirectory root = true)
    (h : fs.Visited root p) : root.segments <+: p.segments := by
  induction h with
  | root => exact List.prefix_rfl
  | entry hVisited hList hName _ ih =>
    rw [segments_entry hNamed (hVisited.isDirectory hRoot) hList hName]
    exact ih.trans (List.prefix_append _ _)

theorem Found.segments_prefix (hNamed : fs.Named) (hRoot : fs.isDirectory root = true)
    (h : fs.Found extension root p) : root.segments <+: p.segments := by
  obtain ⟨directory, names, name, hVisited, hList, hName, rfl, -, -⟩ := h
  rw [segments_entry hNamed (hVisited.isDirectory hRoot) hList hName]
  exact (hVisited.segments_prefix hNamed hRoot).trans (List.prefix_append _ _)

theorem segments_of_mem_filesAt (hNamed : fs.Named)
    (hWalk : fs.walk true shown = .ok (place, limit)) (hName : name ∈ fs.children place.location)
    (hp : p ∈ fs.filesAt extension limit place.location shown name) :
    shown.segments ++ [.name name] <+: p.segments := by
  rw [← Path.segments_join (text_of_walk hWalk) (hNamed.isName hName)]
  by_cases hEntry : fs.isDirectory (shown.join ⟨name⟩) = true
  · obtain ⟨place', left, -, hJoin, hNode, hFiles⟩ :=
      filesAt_of_directory hNamed hWalk hName hEntry
    rw [hFiles, mem_filesBelow hNamed hJoin hNode] at hp
    exact hp.segments_prefix hNamed hEntry
  · rw [filesAt_of_not_directory hNamed hWalk hName (by simpa using hEntry)] at hp
    split at hp
    · obtain rfl := List.mem_singleton.mp hp
      exact List.prefix_rfl
    · simp at hp

theorem pairwise_filesBelow (hNamed : fs.Named) (hWalk : fs.walk true shown = .ok (place, limit))
    (hDir : fs.node? place.location = some .directory) :
    (fs.filesBelow extension limit place.location shown).Pairwise fun p q => ¬ p.Same q := by
  generalize hDirectory : place.location = directory at hDir ⊢
  induction limit, directory, shown using filesBelow.induct fs generalizing place with
  | case1 limit directory shown ih =>
    subst hDirectory
    rw [filesBelow_eq, List.pairwise_flatMap]
    constructor
    · intro name hName
      by_cases hEntry : fs.isDirectory (shown.join ⟨name⟩) = true
      · obtain ⟨place', left, hPursue, hJoin, hNode, hFiles⟩ :=
          filesAt_of_directory hNamed hWalk hName hEntry
        rw [hFiles]
        exact ih name hName place' left hPursue (by simp [isDirectoryAt, hNode]) hJoin rfl hNode
      · rw [filesAt_of_not_directory hNamed hWalk hName (by simpa using hEntry)]
        split <;> simp
    · apply (nodup_children fs place.location).imp_of_mem
      intro name name' hName hName' hOther p hp q hq hSame
      have hFirst := segments_of_mem_filesAt hNamed hWalk hName hp
      have hSecond := segments_of_mem_filesAt hNamed hWalk hName' hq
      rw [hSame] at hFirst
      have hWithin := List.prefix_of_prefix_length_le hFirst hSecond (by simp)
      have hEnds := hWithin.eq_of_length (by simp)
      exact hOther (by simpa using hEnds)

section Congr

variable (hSame : fs.SameEntries fs') (hDirectory : fs.workingDirectory = fs'.workingDirectory)
include hSame hDirectory

theorem mem_list_congr (hDir : fs.isDirectory p = true) (hList : fs.list p = .ok names)
    (hName : name ∈ names) : ∃ names', fs'.list p = .ok names' ∧ name ∈ names' := by
  obtain ⟨place, left, hWalk, hNode⟩ := isDirectory_iff.mp hDir
  rw [list_of_walk hWalk hNode] at hList
  obtain rfl := Except.ok.inj hList
  have hWalk' : fs'.walk true p = .ok (place, left) := by
    rw [← walk_congr hSame hDirectory, hWalk]
  refine ⟨fs'.children place.location, list_of_walk hWalk' (by rw [← hSame, hNode]), ?_⟩
  simpa only [mem_children_iff, hSame _] using hName

theorem Visited.congr (hRoot : fs.isDirectory root = true) (h : fs.Visited root p) :
    fs'.Visited root p := by
  induction h with
  | root => exact .root
  | entry hVisited hList hName hDir ih =>
    have hParent := hVisited.isDirectory hRoot
    obtain ⟨names', hList', hName'⟩ := mem_list_congr hSame hDirectory hParent hList hName
    exact .entry ih hList' hName' (by rw [← isDirectory_congr hSame hDirectory, hDir])

theorem Found.congr (hRoot : fs.isDirectory root = true) (h : fs.Found extension root p) :
    fs'.Found extension root p := by
  obtain ⟨directory, names, name, hVisited, hList, hName, hp, hFile, hExtension⟩ := h
  have hParent := hVisited.isDirectory hRoot
  obtain ⟨names', hList', hName'⟩ := mem_list_congr hSame hDirectory hParent hList hName
  refine ⟨directory, names', name, hVisited.congr hSame hDirectory hRoot, hList', hName',
    hp, ?_, hExtension⟩
  rw [← isDirectory_congr hSame hDirectory, hFile]

end Congr

end ScriptBuild.FileSystem
