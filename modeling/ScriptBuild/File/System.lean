import ScriptBuild.Path.Basic
import ScriptBuild.File.Error

/-!
# File systems

A finite tree of files, directories and symbolic links, together with the directory that relative
paths start from. Every entry is listed once, under its location: the names on the way down from
the root. The order of the list is the order in which directories are enumerated; nothing else
depends on it.

There are no permissions, so whatever is there can be read, listed and written, and names are texts
of any length.
-/

namespace ScriptBuild

set_option autoImplicit false

/-- The names from the root down to an entry. -/
abbrev Location := List String

inductive Node
  | file (contents : Bytes) (executable : Bool)
  | directory
  | link (target : Path)
  deriving DecidableEq, Repr

structure FileSystem where
  entries : List (Location × Node)
  workingDirectory : Location
  distinct : (entries.map Prod.fst).Nodup
  deriving DecidableEq

namespace FileSystem

def empty : FileSystem := ⟨[], [], .nil⟩

instance : Inhabited FileSystem := ⟨empty⟩

/-- What stands at a location. The root is always a directory. -/
def node? (fs : FileSystem) (place : Location) : Option Node :=
  if place = [] then some .directory else fs.entries.lookup place

def isDirectoryAt (fs : FileSystem) (place : Location) : Bool :=
  fs.node? place == some .directory

def nameIn? (directory place : Location) : Option String :=
  if place.dropLast = directory then place.getLast? else none

def children (fs : FileSystem) (directory : Location) : List String :=
  fs.entries.filterMap fun entry => nameIn? directory entry.1

def removeWhere (fs : FileSystem) (p : Location → Bool) : FileSystem where
  entries := fs.entries.filter fun entry => !p entry.1
  workingDirectory := fs.workingDirectory
  distinct := (List.filter_sublist.map Prod.fst).nodup fs.distinct

def erase (fs : FileSystem) (place : Location) : FileSystem := fs.removeWhere (· == place)

def eraseBelow (fs : FileSystem) (place : Location) : FileSystem :=
  fs.removeWhere fun other => place.isPrefixOf other

theorem not_mem_erase (fs : FileSystem) (place : Location) :
    place ∉ (fs.erase place).entries.map Prod.fst := by
  simp [erase, removeWhere]

def put (fs : FileSystem) (place : Location) (node : Node) : FileSystem where
  entries := (place, node) :: (fs.erase place).entries
  workingDirectory := fs.workingDirectory
  distinct := List.nodup_cons.mpr ⟨fs.not_mem_erase place, (fs.erase place).distinct⟩

/-- Two file systems hold the same entries, whatever the order of enumeration. -/
def SameEntries (fs fs' : FileSystem) : Prop := ∀ place, fs.node? place = fs'.node? place

@[simp] theorem node?_root (fs : FileSystem) : fs.node? [] = some .directory := by simp [node?]

theorem lookup_filter_key (entries : List (Location × Node)) (p : Location → Bool)
    (place : Location) :
    (entries.filter fun entry => !p entry.1).lookup place =
      if p place then none else entries.lookup place := by
  induction entries with
  | nil => simp
  | cons entry rest ih =>
    obtain ⟨at_, node⟩ := entry
    by_cases hp : p at_
    · by_cases he : place = at_
      · subst he
        simp [hp, ih]
      · have : (place == at_) = false := by simp [he]
        simp [hp, ih, List.lookup_cons, this]
    · by_cases he : place = at_
      · subst he
        simp [hp]
      · have : (place == at_) = false := by simp [he]
        simp [hp, ih, List.lookup_cons, this]

theorem node?_removeWhere (fs : FileSystem) (p : Location → Bool) {place : Location}
    (notRoot : place ≠ []) :
    (fs.removeWhere p).node? place = if p place then none else fs.node? place := by
  simp [node?, notRoot, removeWhere, lookup_filter_key]

theorem node?_put_self (fs : FileSystem) {place : Location} (node : Node) (notRoot : place ≠ []) :
    (fs.put place node).node? place = some node := by
  simp [node?, notRoot, put]

theorem node?_put_of_ne (fs : FileSystem) {place other : Location} (node : Node)
    (differ : other ≠ place) : (fs.put place node).node? other = fs.node? other := by
  by_cases root : other = []
  · simp [root]
  · have apart : (other == place) = false := by simp [differ]
    have := lookup_filter_key fs.entries (· == place) other
    simp only [apart] at this
    simp [node?, root, put, erase, removeWhere, List.lookup_cons, apart, this]

end FileSystem

end ScriptBuild
