import ScriptBuild.Path.Basic

/-!
# Reference sets

The modules handed to a compiler, in the order in which they were added. A module that is the same
path as an earlier one is not added again, so the first spelling is kept. Paths are looked up in a
set without an order, which is kept beside the list.
-/

namespace ScriptBuild

set_option autoImplicit false

/-- A set of paths in no particular order. It knows the segments of its members, not how they are
spelled. -/
structure PathSet where
  keys : List (List Segment)
  distinct : keys.Nodup

namespace PathSet

def empty : PathSet := ⟨[], .nil⟩

def contains (set : PathSet) (p : Path) : Bool := decide (p.segments ∈ set.keys)

def insert (set : PathSet) (p : Path) : PathSet :=
  if h : p.segments ∈ set.keys then set
  else ⟨p.segments :: set.keys, List.nodup_cons.mpr ⟨h, set.distinct⟩⟩

def size (set : PathSet) : Nat := set.keys.length

/-- Whether two sets have the same members: they are of one size, and all members of the one are in
the other. -/
def agrees (set other : PathSet) : Bool :=
  set.size == other.size && set.keys.all fun key => decide (key ∈ other.keys)

theorem contains_iff {set : PathSet} {p : Path} :
    set.contains p = true ↔ p.segments ∈ set.keys := decide_eq_true_iff

theorem mem_keys_insert {set : PathSet} {p : Path} {key : List Segment} :
    key ∈ (set.insert p).keys ↔ key ∈ set.keys ∨ p.segments = key := by
  rw [insert]
  split
  · rename_i h
    exact ⟨Or.inl, fun hKey => hKey.elim id fun hSame => hSame ▸ h⟩
  · rw [List.mem_cons, or_comm]
    exact or_congr_right eq_comm

end PathSet

/-- A list of paths of which no two are the same, with the set of these paths. -/
structure ReferenceSet where
  locations : List Path
  seen : PathSet
  distinct : locations.Pairwise fun p q => ¬ p.Same q
  /-- The paths in the set are those in the list. -/
  in_step : ∀ key, key ∈ seen.keys ↔ ∃ p ∈ locations, p.segments = key

namespace ReferenceSet

def empty : ReferenceSet := ⟨[], .empty, .nil, by simp [PathSet.empty]⟩

instance : EmptyCollection ReferenceSet := ⟨empty⟩

instance : Inhabited ReferenceSet := ⟨empty⟩

def contains (set : ReferenceSet) (p : Path) : Bool := set.seen.contains p

theorem contains_iff {set : ReferenceSet} {p : Path} :
    set.contains p = true ↔ ∃ q ∈ set.locations, q.Same p :=
  PathSet.contains_iff.trans (set.in_step p.segments)

theorem pairwise_append_of_not_contains {set : ReferenceSet} {p : Path}
    (h : ¬ set.contains p = true) :
    (set.locations ++ [p]).Pairwise fun p q => ¬ p.Same q := by
  refine List.pairwise_append.mpr ⟨set.distinct, List.pairwise_singleton _ _, ?_⟩
  intro q hq r hr same
  rw [List.mem_singleton.mp hr] at same
  exact h (contains_iff.mpr ⟨q, hq, same⟩)

theorem mem_keys_seen_insert {set : ReferenceSet} {p : Path} (key : List Segment) :
    key ∈ (set.seen.insert p).keys ↔ ∃ q ∈ set.locations ++ [p], q.segments = key := by
  rw [PathSet.mem_keys_insert, set.in_step]
  simp [or_and_right, exists_or]

def insert (set : ReferenceSet) (p : Path) : Bool × ReferenceSet :=
  if h : set.contains p = true then (false, set)
  else
    (true, ⟨set.locations ++ [p], set.seen.insert p, pairwise_append_of_not_contains h,
      mem_keys_seen_insert⟩)

def extend (set : ReferenceSet) (ps : List Path) : ReferenceSet :=
  ps.foldl (fun set p => (set.insert p).2) set

def ofList (ps : List Path) : ReferenceSet := empty.extend ps

def size (set : ReferenceSet) : Nat := set.locations.length

def isEmpty (set : ReferenceSet) : Bool := set.locations.isEmpty

/-- Whether two sets hold the same paths in the same order, and look up the same paths. -/
def agrees (set other : ReferenceSet) : Bool :=
  set.locations.map Path.segments == other.locations.map Path.segments &&
    set.seen.agrees other.seen

def drain (set : ReferenceSet) : List Path × ReferenceSet := (set.locations, empty)

@[simp] theorem locations_empty : empty.locations = [] := rfl

theorem insert_of_contains {set : ReferenceSet} {p : Path} (h : set.contains p = true) :
    set.insert p = (false, set) := by
  simp [insert, h]

theorem locations_insert_of_not_contains {set : ReferenceSet} {p : Path}
    (h : ¬ set.contains p = true) :
    (set.insert p).1 = true ∧ (set.insert p).2.locations = set.locations ++ [p] := by
  simp [insert, h]

end ReferenceSet

end ScriptBuild
