import ScriptBuild.Build.Options
import ScriptBuild.Index.Basic
import ScriptBuild.Reference.Set

/-!
# Resolving namespaces

Each imported namespace selects the first module of the index that exports it. The modules that
the host has loaded are always referred to; whether the selected ones are too depends on the
policy.
-/

namespace ScriptBuild

set_option autoImplicit false

structure Resolution where
  /-- The modules loaded by the host, as given. -/
  loaded : List Path
  /-- The selected modules, each once. -/
  matched : List Path
  /-- The namespaces that no module exports. -/
  unresolved : List String
  deriving DecidableEq, Repr

namespace Resolution

/-- The location of the module that a namespace selects. -/
def selected? (index : ModuleIndex) (name : String) : Option Path :=
  (index.firstExporter? name).map LibraryModule.location

def ofNamespaces (index : ModuleIndex) (namespaces : NamespaceSet) (loaded : List Path) :
    Resolution where
  loaded := loaded
  matched := (ReferenceSet.ofList (namespaces.names.filterMap (selected? index))).locations
  unresolved := namespaces.names.filter fun name => (index.firstExporter? name).isNone

/-- The modules to refer to under a policy: the loaded ones, then perhaps the selected ones. -/
def references (r : Resolution) : ReferencePolicy → ReferenceSet
  | .loadedOnly => ReferenceSet.ofList r.loaded
  | .loadedAndMatched => (ReferenceSet.ofList r.loaded).extend r.matched

end Resolution

end ScriptBuild
