import ScriptBuild.File.Access
import ScriptBuild.Index.Basic
import ScriptBuild.Metadata.Reader

/-!
# Indexing a directory

Every file with the module extension at any depth below a root directory is loaded, in the order
of the paths. Links to directories are gone into like directories. Going into a link uses up one of
the links that a walk may replace, and going into a directory leaves fewer entries below, so the
search ends even where links lead back up. A root that cannot be listed is a fault of its own. It
does not occur without permissions, and for the same reason no directory below is passed over.
-/

namespace ScriptBuild

set_option autoImplicit false

abbrev MetadataLoader := FileSystem → Path → Except LoadError Metadata

/-- Reads module images. A directory can be opened, but not read. -/
def MetadataLoader.image : MetadataLoader := fun fs p =>
  match fs.lookUp p with
  | .error cause => .error (.unopened cause)
  | .ok (.file contents _) => (Metadata.ofImage contents).mapError .invalid
  | .ok _ => .error (.invalid .unreadable)

inductive IndexError
  | rootNotFound (root : Path)
  /-- The root is a directory that cannot be listed. -/
  | unreadableRoot (root : Path) (cause : FileError)
  deriving DecidableEq, Repr

namespace IndexError

def message : IndexError → String
  | .rootNotFound root =>
    "Module index root " ++ root.text ++ " does not exist or is not a directory"
  | .unreadableRoot root cause => "Cannot read directory " ++ root.text ++ ": " ++ cause.message

def cause? : IndexError → Option FileError
  | .rootNotFound _ => none
  | .unreadableRoot _ cause => some cause

end IndexError

def ModuleIndex.defaultExtension : String := "dll"

namespace FileSystem

def isBelow (directory place : Location) : Bool := directory.isPrefixOf place && directory ≠ place

def countBelow (fs : FileSystem) (directory : Location) : Nat :=
  fs.entries.countP fun entry => isBelow directory entry.1

theorem mem_children {fs : FileSystem} {directory : Location} {name : String}
    (mem : name ∈ fs.children directory) : directory ++ [name] ∈ fs.entries.map Prod.fst := by
  obtain ⟨entry, inEntries, named⟩ := List.mem_filterMap.mp mem
  refine List.mem_map.mpr ⟨entry, inEntries, ?_⟩
  unfold nameIn? at named
  split at named
  · rename_i parent
    rw [← parent]
    obtain ⟨front, whole⟩ := List.getLast?_eq_some_iff.mp named
    simp [whole]
  · simp at named

theorem countP_lt_countP {α : Type} {p q : α → Bool} {l : List α} {a : α}
    (imp : ∀ x, p x = true → q x = true) (mem : a ∈ l) (holds : q a = true)
    (fails : p a = false) : l.countP p < l.countP q := by
  induction l with
  | nil => simp at mem
  | cons x rest ih =>
    rcases List.mem_cons.mp mem with rfl | mem
    · have : rest.countP p ≤ rest.countP q := List.countP_mono_left fun x _ => imp x
      simp [holds, fails]
      omega
    · have step := ih mem
      by_cases hp : p x = true
      · simp [hp, imp x hp]
        omega
      · by_cases hq : q x = true <;> simp [hp, hq] <;> omega

/-- Fewer entries are below an entry of a directory than below the directory. -/
theorem countBelow_entry_lt {fs : FileSystem} {directory : Location} {name : String}
    (mem : name ∈ fs.children directory) :
    fs.countBelow (directory ++ [name]) < fs.countBelow directory := by
  obtain ⟨entry, inEntries, at_⟩ := List.mem_map.mp (mem_children mem)
  refine countP_lt_countP (a := entry) (fun other below => ?_) inEntries ?_ ?_
  · simp only [isBelow, Bool.and_eq_true, List.isPrefixOf_iff_prefix, decide_eq_true_eq] at below ⊢
    obtain ⟨⟨tail, h⟩, differ⟩ := below
    refine ⟨⟨name :: tail, by simpa using h⟩, fun same => ?_⟩
    rw [same] at h
    simp at h
  · simp [isBelow, at_]
  · simp [isBelow, at_]

/-- Entering one name either stays with the directory or replaces a link. -/
theorem pursue_enter {fs : FileSystem} {limit left : Nat} {directory : Location} {name : String}
    {place : Place} (h : fs.pursue true limit directory [.enter name] = .ok (place, left)) :
    left < limit ∨ left = limit ∧ place = .entry directory name := by
  rw [pursue] at h
  split at h
  · simp at h
  · rename_i arrived halt
    simp only [Except.ok.injEq, Prod.mk.injEq] at h
    refine .inr ⟨h.2.symm, ?_⟩
    rw [← h.1]
    simp only [advance] at halt
    split at halt
    · simp at halt
    · split at halt <;> simp at halt <;> exact halt.symm
    · simp at halt
  · split at h
    · simp at h
    · exact .inl (Nat.lt_succ_of_le (pursue_limit_le h))

/-- The files with an extension at any depth below a directory that is shown as `shown`. -/
def filesBelow (fs : FileSystem) (extension : String) (limit : Nat) (directory : Location)
    (shown : Path) : List Path :=
  (fs.children directory).attach.flatMap fun ⟨name, _mem⟩ =>
    let path := shown.join ⟨name⟩
    let own := if path.hasExtension extension then [path] else []
    match _step : fs.pursue true limit directory [.enter name] with
    | .error _ => own
    | .ok (place, left) =>
      if fs.isDirectoryAt place.location then
        fs.filesBelow extension left place.location path
      else own
termination_by (limit, fs.countBelow directory)
decreasing_by
  rcases pursue_enter _step with fewer | ⟨same, rfl⟩
  · exact .left _ _ fewer
  · subst same
    exact .right _ (countBelow_entry_lt _mem)

end FileSystem

namespace ModuleIndex

def addLoaded (loaded : List LibraryModule × List SkippedModule) (path : Path) :
    Except LoadError Metadata → List LibraryModule × List SkippedModule
  | .ok metadata => (loaded.1 ++ [⟨path, metadata⟩], loaded.2)
  | .error reason => (loaded.1, loaded.2 ++ [⟨path, reason⟩])

/-- The index of the files at the given paths; those that cannot be loaded are set aside. -/
def ofFiles (fs : FileSystem) (loader : MetadataLoader) (paths : List Path) : ModuleIndex :=
  let loaded := paths.foldl (fun loaded path => addLoaded loaded path (loader fs path)) ([], [])
  { ofModules loaded.1 with skipped := loaded.2 }

def sortPaths (paths : List Path) : List Path :=
  paths.mergeSort fun p q => !decide (q.Before p)

def build (fs : FileSystem) (loader : MetadataLoader) (extension : String) (root : Path) :
    Except IndexError ModuleIndex :=
  match fs.walk true root with
  | .error _ => .error (.rootNotFound root)
  | .ok (place, left) =>
    if fs.isDirectoryAt place.location then
      match fs.list root with
      | .error cause => .error (.unreadableRoot root cause)
      | .ok _ =>
        .ok (ofFiles fs loader (sortPaths (fs.filesBelow extension left place.location root)))
    else .error (.rootNotFound root)

end ModuleIndex

end ScriptBuild
