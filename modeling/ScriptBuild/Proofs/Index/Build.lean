import ScriptBuild.Proofs.File.Tree
import ScriptBuild.Proofs.Index.Search
import ScriptBuild.Proofs.Path.Order

/-!
# The index of a directory

The index of a directory is determined by the entries below it and by what the loader makes of
them. The order in which directories are enumerated leaves no trace in it.
-/

namespace ScriptBuild.ModuleIndex

set_option autoImplicit false

variable {fs fs' : FileSystem} {loader : MetadataLoader} {extension : String} {root p : Path}
  {paths : List Path} {m : LibraryModule} {s : SkippedModule} {index : ModuleIndex}

def module? (fs : FileSystem) (loader : MetadataLoader) (p : Path) : Option LibraryModule :=
  match loader fs p with
  | .ok metadata => some ⟨p, metadata⟩
  | .error _ => none

def skipped? (fs : FileSystem) (loader : MetadataLoader) (p : Path) : Option SkippedModule :=
  match loader fs p with
  | .ok _ => none
  | .error reason => some ⟨p, reason⟩

theorem module?_eq_some_iff : module? fs loader p = some m ↔
    p = m.location ∧ loader fs m.location = .ok m.metadata := by
  obtain ⟨location, metadata⟩ := m
  unfold module?
  by_cases hSame : p = location
  · subst hSame
    cases loader fs p <;> simp
  · cases loader fs p <;> simp [hSame]

theorem skipped?_eq_some_iff : skipped? fs loader p = some s ↔
    p = s.path ∧ loader fs s.path = .error s.reason := by
  obtain ⟨path, reason⟩ := s
  unfold skipped?
  by_cases hSame : p = path
  · subst hSame
    cases loader fs p <;> simp
  · cases loader fs p <;> simp [hSame]

theorem foldl_addLoaded (fs : FileSystem) (loader : MetadataLoader) (paths : List Path)
    (loaded : List LibraryModule × List SkippedModule) :
    paths.foldl (fun loaded path => addLoaded loaded path (loader fs path)) loaded =
      (loaded.1 ++ paths.filterMap (module? fs loader),
        loaded.2 ++ paths.filterMap (skipped? fs loader)) := by
  induction paths generalizing loaded with
  | nil => simp
  | cons path rest ih =>
    rw [List.foldl_cons, ih]
    cases hLoad : loader fs path with
    | ok metadata => simp [addLoaded, module?, skipped?, hLoad]
    | error reason => simp [addLoaded, module?, skipped?, hLoad]

theorem modules_ofFiles :
    (ofFiles fs loader paths).modules = paths.filterMap (module? fs loader) := by
  simp [ofFiles, foldl_addLoaded]

theorem skipped_ofFiles :
    (ofFiles fs loader paths).skipped = paths.filterMap (skipped? fs loader) := by
  simp [ofFiles, foldl_addLoaded]

theorem mem_modules_ofFiles : m ∈ (ofFiles fs loader paths).modules ↔
    m.location ∈ paths ∧ loader fs m.location = .ok m.metadata := by
  simp only [modules_ofFiles, List.mem_filterMap, module?_eq_some_iff]
  constructor
  · rintro ⟨p, hp, rfl, hLoad⟩
    exact ⟨hp, hLoad⟩
  · rintro ⟨hp, hLoad⟩
    exact ⟨m.location, hp, rfl, hLoad⟩

theorem mem_skipped_ofFiles : s ∈ (ofFiles fs loader paths).skipped ↔
    s.path ∈ paths ∧ loader fs s.path = .error s.reason := by
  simp only [skipped_ofFiles, List.mem_filterMap, skipped?_eq_some_iff]
  constructor
  · rintro ⟨p, hp, rfl, hLoad⟩
    exact ⟨hp, hLoad⟩
  · rintro ⟨hp, hLoad⟩
    exact ⟨s.path, hp, rfl, hLoad⟩

/-- An index that holds exactly the files that a search below a root finds, each once and in order:
as modules the ones that can be loaded, set aside the others. -/
structure Exact (index : ModuleIndex) (fs : FileSystem) (loader : MetadataLoader)
    (extension : String) (root : Path) : Prop where
  mem_modules_iff : ∀ m, m ∈ index.modules ↔
    fs.Found extension root m.location ∧ loader fs m.location = .ok m.metadata
  mem_skipped_iff : ∀ s, s ∈ index.skipped ↔
    fs.Found extension root s.path ∧ loader fs s.path = .error s.reason
  once : (index.modules.map LibraryModule.location ++
    index.skipped.map SkippedModule.path).Pairwise fun p q => ¬ p.Same q
  modules_ascending : (index.modules.map LibraryModule.location).Pairwise Path.Before
  skipped_ascending : (index.skipped.map SkippedModule.path).Pairwise Path.Before
  get?_eq_some_iff : ∀ p m, index.get? p = some m ↔ m ∈ index.modules ∧ m.location.Same p

theorem get?_eq_some_iff_of_pairwise
    (h : index.modules.Pairwise fun m m' => ¬ m.location.Same m'.location) :
    index.get? p = some m ↔ m ∈ index.modules ∧ m.location.Same p := by
  unfold get?
  constructor
  · intro hFind
    exact ⟨List.mem_of_find?_eq_some hFind, by simpa using List.find?_some hFind⟩
  · rintro ⟨hMem, hSame⟩
    have hSome : (index.modules.find? fun m => m.location.Same p).isSome := by
      rw [List.find?_isSome]
      exact ⟨m, hMem, by simpa using hSame⟩
    obtain ⟨m', hFind⟩ := Option.isSome_iff_exists.mp hSome
    have hSame' : m'.location.Same p := by simpa using List.find?_some hFind
    rw [← Path.eq_of_same h (List.mem_of_find?_eq_some hFind) hMem (hSame'.trans hSame.symm)]
    exact hFind

theorem exact_ofFiles (hFound : ∀ p, p ∈ paths ↔ fs.Found extension root p)
    (hPaths : Path.Ascending paths) :
    (ofFiles fs loader paths).Exact fs loader extension root := by
  have hModules : Path.Ascending
      ((ofFiles fs loader paths).modules.map LibraryModule.location) := by
    rw [modules_ofFiles, Path.Ascending, List.pairwise_map]
    refine List.Pairwise.filterMap _ ?_ hPaths
    intro p q hBefore m hm m' hm'
    rwa [← (module?_eq_some_iff.mp hm).1, ← (module?_eq_some_iff.mp hm').1]
  have hSkipped : Path.Ascending ((ofFiles fs loader paths).skipped.map SkippedModule.path) := by
    rw [skipped_ofFiles, Path.Ascending, List.pairwise_map]
    refine List.Pairwise.filterMap _ ?_ hPaths
    intro p q hBefore s hs s' hs'
    rwa [← (skipped?_eq_some_iff.mp hs).1, ← (skipped?_eq_some_iff.mp hs').1]
  refine ⟨?_, ?_, ?_, hModules, hSkipped, ?_⟩
  · intro m
    rw [mem_modules_ofFiles, hFound]
  · intro s
    rw [mem_skipped_ofFiles, hFound]
  · refine List.pairwise_append.mpr ⟨hModules.pairwise_not_same, hSkipped.pairwise_not_same, ?_⟩
    intro p hp q hq hSame
    obtain ⟨m, hm, rfl⟩ := List.mem_map.mp hp
    obtain ⟨s, hs, rfl⟩ := List.mem_map.mp hq
    obtain ⟨hmPath, hLoad⟩ := mem_modules_ofFiles.mp hm
    obtain ⟨hsPath, hFail⟩ := mem_skipped_ofFiles.mp hs
    have hEq : m.location = s.path := Path.eq_of_same hPaths.pairwise_not_same hmPath hsPath hSame
    rw [hEq, hFail] at hLoad
    simp at hLoad
  · intro p m
    exact get?_eq_some_iff_of_pairwise (List.pairwise_map.mp hModules.pairwise_not_same)

theorem build_of_walk {place : Place} {left : Nat} (hWalk : fs.walk true root = .ok (place, left))
    (hDir : fs.node? place.location = some .directory) :
    build fs loader extension root =
      .ok (ofFiles fs loader (sortPaths (fs.filesBelow extension left place.location root))) := by
  simp [build, hWalk, FileSystem.isDirectoryAt, hDir, FileSystem.list_of_walk hWalk hDir]

theorem build_of_not_directory (hRoot : ¬ fs.isDirectory root = true) :
    build fs loader extension root = .error (.rootNotFound root) := by
  rw [FileSystem.isDirectory_iff] at hRoot
  unfold build
  cases hWalk : fs.walk true root with
  | error e => rfl
  | ok reached =>
    have hElse : fs.isDirectoryAt reached.1.location = false := by
      by_contra hDir
      exact hRoot ⟨reached.1, reached.2, hWalk, by simpa [FileSystem.isDirectoryAt] using hDir⟩
    simp [hElse]

theorem load_of_mem_modules (hBuild : build fs loader extension root = .ok index)
    (hm : m ∈ index.modules) : loader fs m.location = .ok m.metadata := by
  by_cases hRoot : fs.isDirectory root = true
  · obtain ⟨place, left, hWalk, hNode⟩ := FileSystem.isDirectory_iff.mp hRoot
    rw [build_of_walk hWalk hNode] at hBuild
    obtain rfl := Except.ok.inj hBuild
    exact (mem_modules_ofFiles.mp hm).2
  · rw [build_of_not_directory hRoot] at hBuild
    cases hBuild

theorem build_congr (hNamed : fs.Named) (hRoot : fs.isDirectory root = true)
    (hSame : fs.SameEntries fs') (hDirectory : fs.workingDirectory = fs'.workingDirectory)
    (hLoader : ∀ p, loader fs p = loader fs' p) :
    build fs loader extension root = build fs' loader extension root := by
  obtain ⟨place, left, hWalk, hNode⟩ := FileSystem.isDirectory_iff.mp hRoot
  have hRoot' : fs'.isDirectory root = true := by
    rw [← FileSystem.isDirectory_congr hSame hDirectory, hRoot]
  have hWalk' : fs'.walk true root = .ok (place, left) := by
    rw [← FileSystem.walk_congr hSame hDirectory, hWalk]
  have hNode' : fs'.node? place.location = some .directory := by rw [← hSame, hNode]
  have hNamed' := hNamed.congr hSame
  have hPaths : sortPaths (fs.filesBelow extension left place.location root) =
      sortPaths (fs'.filesBelow extension left place.location root) := by
    apply (ascending_sortPaths (fs.pairwise_filesBelow hNamed hWalk hNode)).eq_of_mem_iff
      (ascending_sortPaths (fs'.pairwise_filesBelow hNamed' hWalk' hNode'))
    intro p
    rw [mem_sortPaths, mem_sortPaths, fs.mem_filesBelow hNamed hWalk hNode,
      fs'.mem_filesBelow hNamed' hWalk' hNode']
    constructor
    · exact FileSystem.Found.congr hSame hDirectory hRoot
    · exact FileSystem.Found.congr (fun place => (hSame place).symm) hDirectory.symm hRoot'
  rw [build_of_walk hWalk hNode, build_of_walk hWalk' hNode', hPaths]
  simp only [ofFiles, hLoader]

/-- The index of an existing directory is exact, and only the entries count for it, not the order in
which directories are enumerated. -/
theorem build_exact (fs : FileTree) (loader : MetadataLoader) (extension : String)
    (hRoot : fs.isDirectory root = true) :
    ∃ index, build fs loader extension root = .ok index ∧
      index.Exact fs loader extension root ∧
      ∀ fs' : FileSystem, fs.SameEntries fs' → fs.workingDirectory = fs'.workingDirectory →
        (∀ p, loader fs p = loader fs' p) → build fs' loader extension root = .ok index := by
  obtain ⟨place, left, hWalk, hNode⟩ := FileSystem.isDirectory_iff.mp hRoot
  have hBuild : build fs loader extension root = _ := build_of_walk hWalk hNode
  refine ⟨_, hBuild, ?_, ?_⟩
  · apply exact_ofFiles
    · intro p
      rw [mem_sortPaths, fs.mem_filesBelow fs.named hWalk hNode]
    · exact ascending_sortPaths (fs.pairwise_filesBelow fs.named hWalk hNode)
  · intro fs' hSame hDirectory hLoader
    rw [← hBuild]
    exact (build_congr fs.named hRoot hSame hDirectory hLoader).symm

/-- A link that leads nowhere is set aside, in a tree with a link that leads back up. -/
theorem exact_of_dangling_link :
    let fs := (FileSystem.empty.put ["lib"] .directory).put ["lib", "gone.DLL"] (.link ⟨"nowhere"⟩)
      |>.put ["lib", "up.dll"] (.link ⟨"/lib"⟩)
    ∃ tree : FileTree, tree.toFileSystem = fs ∧ tree.isDirectory ⟨"/lib"⟩ = true ∧
      ∃ index, build tree .image "dll" ⟨"/lib"⟩ = .ok index ∧
        index.Exact tree .image "dll" ⟨"/lib"⟩ ∧
        ⟨⟨"/lib/gone.DLL"⟩, .unopened .notFound⟩ ∈ index.skipped := by
  intro fs
  have hList : fs.list ⟨"/lib"⟩ = .ok ["up.dll", "gone.DLL"] := by decide +kernel
  have hRoot : fs.isDirectory ⟨"/lib"⟩ = true := by decide +kernel
  have hFile : fs.isDirectory ⟨"/lib/gone.DLL"⟩ = false := by decide +kernel
  have hLoad : MetadataLoader.image fs ⟨"/lib/gone.DLL"⟩ = .error (.unopened .notFound) := by
    decide +kernel
  let tree : FileTree := ⟨fs, by decide +kernel, by decide +kernel⟩
  obtain ⟨index, hBuild, hExact, -⟩ := build_exact tree .image "dll" hRoot
  refine ⟨tree, rfl, hRoot, index, hBuild, hExact, ?_⟩
  apply (hExact.mem_skipped_iff _).mpr
  refine ⟨⟨⟨"/lib"⟩, _, "gone.DLL", .root, hList, by simp, rfl, hFile, ?_⟩, hLoad⟩
  exact ⟨"gone".toList, "DLL".toList, by decide +kernel⟩

end ScriptBuild.ModuleIndex
