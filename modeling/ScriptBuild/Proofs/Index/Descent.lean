import ScriptBuild.Proofs.File.Route
import ScriptBuild.Proofs.Index.Build

/-!
# The search below a root ends

The search keeps no record of the directories that it has been to, and links may lead it back up. It
ends all the same. The way to an entry of a directory replaces at least as many links as the way to
the directory; where it replaces no more, the entry stands in the directory, with fewer entries
below it. So from one directory to the next the number of links that are left falls, or it stays and
the number of entries below falls.
-/

namespace ScriptBuild.FileSystem

set_option autoImplicit false

variable {fs : FileSystem} {extension name : String} {names : List String} {limit left : Nat}
  {place : Place} {root shown p q : Path} {paths paths' : List Path}

/-! ## From directory to directory -/

/-- A search that is in the one directory goes on into the other. -/
def Descends (fs : FileSystem) (p q : Path) : Prop :=
  ∃ names name, fs.list p = .ok names ∧ name ∈ names ∧ q = p.join ⟨name⟩ ∧
    fs.isDirectory q = true

/-- A bound on how far down a search can go from a directory. What counts first is how many links a
walk from there may still replace, and then how many entries are below. -/
def height (fs : FileSystem) (p : Path) : Nat :=
  match fs.walk true p with
  | .error _ => 0
  | .ok (place, left) => left * (fs.entries.length + 1) + fs.countBelow place.location

theorem countBelow_le (fs : FileSystem) (directory : Location) :
    fs.countBelow directory ≤ fs.entries.length := List.countP_le_length

theorem height_le (fs : FileSystem) (p : Path) :
    fs.height p < (linkLimit + 1) * (fs.entries.length + 1) := by
  unfold height
  split
  · exact Nat.mul_pos (Nat.succ_pos _) (Nat.succ_pos _)
  · rename_i place left hWalk
    have hLeft : left ≤ linkLimit := by
      unfold walk at hWalk
      split at hWalk
      · simp at hWalk
      · exact pursue_limit_le hWalk
    have hLinks := Nat.mul_le_mul_right (fs.entries.length + 1) hLeft
    have hBelow := fs.countBelow_le place.location
    rw [Nat.succ_mul]
    omega

theorem Descends.height_lt (hNamed : fs.Named) (h : fs.Descends p q) :
    fs.height q < fs.height p := by
  obtain ⟨names, name, hList, hName, rfl, hEntry⟩ := h
  obtain ⟨place, limit, hWalk, -, rfl⟩ := list_eq_ok hList
  obtain ⟨place', left, hJoin, -⟩ := isDirectory_iff.mp hEntry
  have hPursue := hJoin
  rw [walk_join (hNamed.isName hName) hWalk] at hPursue
  simp only [height, hWalk, hJoin]
  rcases pursue_enter hPursue with hFewer | ⟨rfl, rfl⟩
  · have hLinks := Nat.mul_le_mul_right (fs.entries.length + 1) (Nat.succ_le_of_lt hFewer)
    have hBelow := fs.countBelow_le place'.location
    rw [Nat.succ_mul] at hLinks
    omega
  · exact Nat.add_lt_add_left (countBelow_entry_lt hName) _

/-- No search goes down for ever. -/
theorem wellFounded_descends (hNamed : fs.Named) : WellFounded fun q p => fs.Descends p q :=
  Subrelation.wf (fun h => h.height_lt hNamed) (InvImage.wf fs.height Nat.lt_wfRel.wf)

theorem Visited.arrives (hRoot : fs.isDirectory root = true) (h : fs.Visited root p) :
    ∃ last, fs.Arrives linkLimit (fs.start p) p.steps last ∧
      fs.node? last = some .directory := by
  obtain ⟨place, left, hWalk, hNode⟩ := isDirectory_iff.mp (h.isDirectory hRoot)
  refine ⟨place.location, arrives_of_reached ?_ (by simp [hNode]), hNode⟩
  unfold walk at hWalk
  split at hWalk
  · simp at hWalk
  · rw [reached, hWalk]
    rfl

theorem Visited.height_add_le (hNamed : fs.Named) (hRoot : fs.isDirectory root = true)
    (h : fs.Visited root p) :
    fs.height p + p.segments.length ≤ fs.height root + root.segments.length := by
  induction h with
  | root => exact Nat.le_refl _
  | @entry p names name hVisited hList hName hDir ih =>
    have hLower : fs.height (p.join ⟨name⟩) < fs.height p :=
      Descends.height_lt hNamed ⟨names, name, hList, hName, rfl, hDir⟩
    rw [segments_entry hNamed (hVisited.isDirectory hRoot) hList hName, List.length_append,
      List.length_singleton]
    omega

/-- How far down a search goes is bounded by the links that a walk may replace and the entries that
there are. -/
theorem Visited.length_segments_lt (hNamed : fs.Named) (hRoot : fs.isDirectory root = true)
    (h : fs.Visited root p) : p.segments.length <
      root.segments.length + (linkLimit + 1) * (fs.entries.length + 1) := by
  have hBound := h.height_add_le hNamed hRoot
  have hTop := fs.height_le root
  omega

/-! ## The course of the search -/

/-- The search of a directory comes to an end with some paths. It goes through the entries in the
order of enumeration, into those that are directories, and takes the others that have the extension.
A directory that cannot be listed adds nothing. -/
inductive Collects (fs : FileSystem) (extension : String) : Path → List Path → Prop
  | unlisted {p : Path} {e : FileError} (hList : fs.list p = .error e) : Collects fs extension p []
  | listed {p : Path} {names : List String} {found : String → List Path}
      (hList : fs.list p = .ok names)
      (hDirectory : ∀ name ∈ names, fs.isDirectory (p.join ⟨name⟩) = true →
        Collects fs extension (p.join ⟨name⟩) (found name))
      (hOther : ∀ name ∈ names, fs.isDirectory (p.join ⟨name⟩) = false →
        found name = if (p.join ⟨name⟩).hasExtension extension then [p.join ⟨name⟩] else []) :
      Collects fs extension p (names.flatMap found)

theorem Collects.unique (h : fs.Collects extension p paths) (h' : fs.Collects extension p paths') :
    paths = paths' := by
  induction h generalizing paths' with
  | unlisted hList =>
    cases h' with
    | unlisted _ => rfl
    | listed hList' _ _ => simp [hList] at hList'
  | listed hList hDirectory hOther ih =>
    cases h' with
    | unlisted hList' => simp [hList] at hList'
    | listed hList' hDirectory' hOther' =>
      obtain rfl := Except.ok.inj (hList.symm.trans hList')
      apply List.flatMap_congr
      intro name hName
      cases hEntry : fs.isDirectory _ with
      | true => exact ih name hName hEntry (hDirectory' name hName hEntry)
      | false => rw [hOther name hName hEntry, hOther' name hName hEntry]

/-- The search comes to an end with the files below the directory. -/
theorem collects_filesBelow (hNamed : fs.Named) (hWalk : fs.walk true shown = .ok (place, limit))
    (hDir : fs.node? place.location = some .directory) :
    fs.Collects extension shown (fs.filesBelow extension limit place.location shown) := by
  generalize hDirectory : place.location = directory at hDir ⊢
  induction limit, directory, shown using filesBelow.induct fs generalizing place with
  | case1 limit directory shown ih =>
    subst hDirectory
    rw [filesBelow_eq]
    refine .listed (list_of_walk hWalk hDir) ?_ ?_
    · intro name hName hEntry
      obtain ⟨place', left, hPursue, hJoin, hNode, hFiles⟩ :=
        filesAt_of_directory hNamed hWalk hName hEntry
      rw [hFiles]
      exact ih name hName place' left hPursue (by simp [isDirectoryAt, hNode]) hJoin rfl hNode
    · intro name hName hEntry
      exact filesAt_of_not_directory hNamed hWalk hName hEntry

end ScriptBuild.FileSystem

namespace ScriptBuild.ModuleIndex

open FileSystem

variable {fs : FileSystem} {extension : String} {root p : Path} {paths : List Path}

theorem mem_skipped_of_lookUp {cause : FileError} (hp : p ∈ paths)
    (hLookUp : fs.lookUp p = .error cause) :
    ⟨p, .unopened cause⟩ ∈ (ofFiles fs .image (sortPaths paths)).skipped := by
  apply mem_skipped_ofFiles.mpr
  refine ⟨mem_sortPaths.mpr hp, ?_⟩
  simp [MetadataLoader.image, hLookUp]

/-- On every file tree the search below a root ends, links that lead back up included. Each
directory that it goes into is reached with no more links than a walk may replace. It takes the
entries of these directories that have the extension and are no directories themselves; those that
lead nowhere, or along too many links, are set aside in the index. -/
theorem search_ends (fs : FileTree) (extension : String) (hRoot : fs.isDirectory root = true) :
    (WellFounded fun q p => fs.Descends p q) ∧
    (∀ p, fs.Visited root p →
      p.segments.length < root.segments.length + (linkLimit + 1) * (fs.entries.length + 1) ∧
      ∃ last, fs.Arrives linkLimit (fs.start p) p.steps last ∧
        fs.node? last = some .directory) ∧
    ∃ paths index, (∀ found, fs.Collects extension root found ↔ found = paths) ∧
      (∀ p, p ∈ paths ↔ fs.Found extension root p) ∧
      build fs .image extension root = .ok index ∧
      index = ofFiles fs .image (sortPaths paths) ∧
      ∀ directory names name cause, fs.Visited root directory → fs.list directory = .ok names →
        name ∈ names → Path.HasExtension name extension →
        fs.lookUp (directory.join ⟨name⟩) = .error cause →
          directory.join ⟨name⟩ ∈ paths ∧
          ⟨directory.join ⟨name⟩, .unopened cause⟩ ∈ index.skipped := by
  obtain ⟨place, left, hWalk, hNode⟩ := isDirectory_iff.mp hRoot
  have hCollects : fs.Collects extension root
      (fs.filesBelow extension left place.location root) :=
    collects_filesBelow fs.named hWalk hNode
  have hFound : ∀ p, p ∈ fs.filesBelow extension left place.location root ↔
      fs.Found extension root p := fun p => mem_filesBelow fs.named hWalk hNode
  refine ⟨wellFounded_descends fs.named, ?_, _, _, ?_, hFound, build_of_walk hWalk hNode, rfl, ?_⟩
  · intro p hVisited
    exact ⟨hVisited.length_segments_lt fs.named hRoot, hVisited.arrives hRoot⟩
  · intro found
    constructor
    · exact fun h => h.unique hCollects
    · rintro rfl
      exact hCollects
  · intro directory names name cause hVisited hList hName hExtension hLookUp
    have hOther : fs.isDirectory (directory.join ⟨name⟩) = false := by
      simp [isDirectory, hLookUp]
    have hMem := (hFound _).mpr
      ⟨directory, names, name, hVisited, hList, hName, rfl, hOther, hExtension⟩
    exact ⟨hMem, mem_skipped_of_lookUp hMem hLookUp⟩

/-- The search goes round a link that leads back up until the links are used up. A link that leads
nowhere and one that leads to itself are set aside. -/
theorem search_ends_with_cycle :
    let fs := (((FileSystem.empty.put ["lib"] .directory).put ["lib", "up"] (.link ⟨"/lib"⟩)).put
      ["lib", "gone.dll"] (.link ⟨"nowhere"⟩)).put ["lib", "loop.dll"] (.link ⟨"loop.dll"⟩)
    ∃ tree : FileTree, tree.toFileSystem = fs ∧ tree.isDirectory ⟨"/lib"⟩ = true ∧
      tree.Visited ⟨"/lib"⟩ ⟨"/lib/up/up"⟩ ∧ (WellFounded fun q p => tree.Descends p q) ∧
      ∃ index, build fs .image "dll" ⟨"/lib"⟩ = .ok index ∧
        ⟨⟨"/lib/gone.dll"⟩, .unopened .notFound⟩ ∈ index.skipped ∧
        ⟨⟨"/lib/up/up/loop.dll"⟩, .unopened .tooManyLinks⟩ ∈ index.skipped := by
  intro fs
  have hList : ∀ p ∈ [⟨"/lib"⟩, ⟨"/lib/up"⟩, ⟨"/lib/up/up"⟩],
      fs.isDirectory p = true ∧ fs.list p = .ok ["loop.dll", "gone.dll", "up"] := by
    decide +kernel
  have hGone : fs.lookUp ⟨"/lib/gone.dll"⟩ = .error .notFound := by decide +kernel
  have hLoop : fs.lookUp ⟨"/lib/up/up/loop.dll"⟩ = .error .tooManyLinks := by decide +kernel
  have hUp : (⟨"/lib"⟩ : Path).join ⟨"up"⟩ = ⟨"/lib/up"⟩ := by decide +kernel
  have hTwice : (⟨"/lib/up"⟩ : Path).join ⟨"up"⟩ = ⟨"/lib/up/up"⟩ := by decide +kernel
  have hExtension : Path.HasExtension "gone.dll" "dll" ∧ Path.HasExtension "loop.dll" "dll" :=
    ⟨⟨"gone".toList, "dll".toList, by decide +kernel⟩,
      ⟨"loop".toList, "dll".toList, by decide +kernel⟩⟩
  let tree : FileTree := ⟨fs, by decide +kernel, by decide +kernel⟩
  obtain ⟨hRoot, hListRoot⟩ := hList ⟨"/lib"⟩ (by simp)
  obtain ⟨hUpDir, hListUp⟩ := hList ⟨"/lib/up"⟩ (by simp)
  obtain ⟨hTwiceDir, hListTwice⟩ := hList ⟨"/lib/up/up"⟩ (by simp)
  have hFirst : fs.Visited ⟨"/lib"⟩ ⟨"/lib/up"⟩ := by
    rw [← hUp] at hUpDir ⊢
    exact .entry .root hListRoot (by simp) hUpDir
  have hVisited : fs.Visited ⟨"/lib"⟩ ⟨"/lib/up/up"⟩ := by
    rw [← hTwice] at hTwiceDir ⊢
    exact .entry hFirst hListUp (by simp) hTwiceDir
  obtain ⟨hEnds, -, paths, index, -, -, hBuild, -, hSkipped⟩ := search_ends tree "dll" hRoot
  refine ⟨tree, rfl, hRoot, hVisited, hEnds, index, hBuild, ?_, ?_⟩
  · exact (hSkipped ⟨"/lib"⟩ _ "gone.dll" _ .root hListRoot (by simp) hExtension.1 hGone).2
  · exact (hSkipped ⟨"/lib/up/up"⟩ _ "loop.dll" _ hVisited hListTwice (by simp)
      hExtension.2 hLoop).2

end ScriptBuild.ModuleIndex
