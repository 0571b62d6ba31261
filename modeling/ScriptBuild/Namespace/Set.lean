import ScriptBuild.Text.Order

/-!
# Sets of namespaces

A set of namespaces is the ascending list of its members, so two sets with the same members are
equal. Insertion tells whether it added anything.
-/

namespace ScriptBuild

set_option autoImplicit false

/-- A finite set of namespace names, listed in ascending order. -/
structure NamespaceSet where
  names : List String
  ascending : names.Pairwise Text.Before
  deriving DecidableEq

namespace NamespaceSet

/-- Puts a name into its place in an ascending list; `none` if the list holds it already. -/
def place? (name : String) : List String → Option (List String)
  | [] => some [name]
  | other :: rest =>
    if Text.Before name other then some (name :: other :: rest)
    else if Text.Before other name then (place? name rest).map (other :: ·)
    else none

theorem mem_of_place? {name : String} {names placed : List String}
    (h : place? name names = some placed) {x : String} :
    x ∈ placed ↔ x = name ∨ x ∈ names := by
  induction names generalizing placed with
  | nil =>
    simp only [place?, Option.some.injEq] at h
    subst h
    simp
  | cons other rest ih =>
    rw [place?] at h
    split at h
    · simp only [Option.some.injEq] at h
      subst h
      simp
    · split at h
      · obtain ⟨below, hb, rfl⟩ := Option.map_eq_some_iff.mp h
        simp only [List.mem_cons, ih hb]
        exact or_left_comm
      · simp at h

theorem pairwise_of_place? {name : String} {names placed : List String}
    (ascending : names.Pairwise Text.Before) (h : place? name names = some placed) :
    placed.Pairwise Text.Before := by
  induction names generalizing placed with
  | nil =>
    simp only [place?, Option.some.injEq] at h
    subst h
    simp
  | cons other rest ih =>
    obtain ⟨first, tail⟩ := List.pairwise_cons.mp ascending
    rw [place?] at h
    split at h
    · rename_i before
      simp only [Option.some.injEq] at h
      subst h
      refine List.pairwise_cons.mpr ⟨fun x hx => ?_, ascending⟩
      rcases List.mem_cons.mp hx with rfl | hx
      · exact before
      · exact before.trans (first x hx)
    · split at h
      · rename_i after
        obtain ⟨below, hb, rfl⟩ := Option.map_eq_some_iff.mp h
        refine List.pairwise_cons.mpr ⟨fun x hx => ?_, ih tail hb⟩
        rcases (mem_of_place? hb).mp hx with rfl | hx
        · exact after
        · exact first x hx
      · simp at h

def empty : NamespaceSet := ⟨[], .nil⟩

instance : EmptyCollection NamespaceSet := ⟨empty⟩

instance : Inhabited NamespaceSet := ⟨empty⟩

def insert (set : NamespaceSet) (name : String) : Bool × NamespaceSet :=
  match h : place? name set.names with
  | none => (false, set)
  | some names => (true, ⟨names, pairwise_of_place? set.ascending h⟩)

def extend (set : NamespaceSet) (names : List String) : NamespaceSet :=
  names.foldl (fun set name => (set.insert name).2) set

def merge (set other : NamespaceSet) : NamespaceSet := set.extend other.names

def ofList (names : List String) : NamespaceSet := empty.extend names

def contains (set : NamespaceSet) (name : String) : Bool := set.names.contains name

def size (set : NamespaceSet) : Nat := set.names.length

def isEmpty (set : NamespaceSet) : Bool := set.names.isEmpty

def drain (set : NamespaceSet) : List String × NamespaceSet := (set.names, empty)

@[simp] theorem names_empty : empty.names = [] := rfl

theorem insert_of_place?_none {set : NamespaceSet} {name : String}
    (h : place? name set.names = none) : set.insert name = (false, set) := by
  unfold insert
  split
  · rfl
  · rename_i placed hp
    rw [h] at hp
    exact absurd hp (by simp)

theorem names_insert_of_place? {set : NamespaceSet} {name : String} {names : List String}
    (h : place? name set.names = some names) :
    (set.insert name).1 = true ∧ (set.insert name).2.names = names := by
  unfold insert
  split
  · rename_i hp
    rw [h] at hp
    exact absurd hp (by simp)
  · rename_i placed hp
    rw [h] at hp
    exact ⟨rfl, (Option.some.inj hp).symm⟩

end NamespaceSet

end ScriptBuild
