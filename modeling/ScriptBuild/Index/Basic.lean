import ScriptBuild.Metadata.Basic
import ScriptBuild.Namespace.Set
import ScriptBuild.Path.Basic

/-!
# The module index

The library modules that a build may refer to, in a fixed order, with a table from each namespace
to the positions of the modules that export it. The table is determined by the modules, and lists
positions in ascending order, so the first exporter of a namespace is the first module in index
order that declares a type in it.
-/

namespace ScriptBuild

set_option autoImplicit false

/-- A library module: where it is, which is its identity, and what it declares. -/
structure LibraryModule where
  location : Path
  metadata : Metadata
  deriving DecidableEq, Repr

namespace LibraryModule

def namespaces (m : LibraryModule) : NamespaceSet :=
  NamespaceSet.ofList (m.metadata.types.filterMap TypeDeclaration.space)

def exports (m : LibraryModule) (name : String) : Bool := m.namespaces.contains name

end LibraryModule

/-- The positions of the modules that export a namespace, for each namespace. -/
abbrev NamespaceTable := List (String × List Nat)

namespace NamespaceTable

def positions (table : NamespaceTable) (name : String) : List Nat := (table.lookup name).getD []

def record (position : Nat) (name : String) : NamespaceTable → NamespaceTable
  | [] => [(name, [position])]
  | (other, recorded) :: rest =>
    if other = name then (other, recorded ++ [position]) :: rest
    else (other, recorded) :: record position name rest

def recordModule (table : NamespaceTable) (m : LibraryModule) (position : Nat) : NamespaceTable :=
  m.namespaces.names.foldl (fun table name => record position name table) table

def ofModules (modules : List LibraryModule) : NamespaceTable :=
  modules.zipIdx.foldl (fun table (m, position) => recordModule table m position) []

end NamespaceTable

structure SkippedModule where
  path : Path
  reason : LoadError
  deriving DecidableEq, Repr

structure ModuleIndex where
  modules : List LibraryModule
  skipped : List SkippedModule
  table : NamespaceTable
  table_eq : table = NamespaceTable.ofModules modules

namespace ModuleIndex

def ofModules (modules : List LibraryModule) : ModuleIndex :=
  ⟨modules, [], NamespaceTable.ofModules modules, rfl⟩

instance : Inhabited ModuleIndex := ⟨ofModules []⟩

def size (index : ModuleIndex) : Nat := index.modules.length

def isEmpty (index : ModuleIndex) : Bool := index.modules.isEmpty

def get? (index : ModuleIndex) (location : Path) : Option LibraryModule :=
  index.modules.find? fun m => m.location.Same location

def exporters (index : ModuleIndex) (name : String) : List LibraryModule :=
  (index.table.positions name).filterMap fun position => index.modules[position]?

def firstExporter? (index : ModuleIndex) (name : String) : Option LibraryModule :=
  (index.exporters name).head?

@[simp] theorem modules_ofModules (modules : List LibraryModule) :
    (ofModules modules).modules = modules := rfl

end ModuleIndex

end ScriptBuild
