import Mathlib.Data.List.Forall2
import Mathlib.Data.Set.Card
import ScriptBuild.Proofs.Reference.Set

/-!
# Runs of reference sets

However a reference set has been filled and drained, its locations are the first spellings of the
paths added since it was last drained. The set beside the list always has the paths of the list, so
it never tells two reference sets apart that have the same lists.
-/

namespace ScriptBuild

set_option autoImplicit false

variable {p : Path} {ps qs : List Path}

theorem Path.map_segments_eq_iff :
    ps.map Path.segments = qs.map Path.segments ↔ List.Forall₂ Path.Same ps qs := by
  rw [← List.forall₂_eq_eq_eq, List.forall₂_map_left_iff, List.forall₂_map_right_iff]
  rfl

def Path.sameness : Setoid Path where
  r := Path.Same
  iseqv := ⟨Path.Same.refl, Path.Same.symm, Path.Same.trans⟩

theorem PathSet.agrees_iff {set other : PathSet} :
    set.agrees other = true ↔ ∀ key, key ∈ set.keys ↔ key ∈ other.keys := by
  simp only [agrees, size, Bool.and_eq_true, beq_iff_eq, List.all_eq_true, decide_eq_true_eq]
  constructor
  · rintro ⟨hSize, hMembers⟩ key
    have hPart : set.keys.Subperm other.keys := set.distinct.subperm hMembers
    exact (hPart.perm_of_length_le hSize.ge).mem_iff
  · intro hMembers
    have hPerm := (List.perm_ext_iff_of_nodup set.distinct other.distinct).mpr hMembers
    exact ⟨hPerm.length_eq, fun key hKey => (hMembers key).mp hKey⟩

namespace ReferenceSet

variable {set other : ReferenceSet}

theorem mem_keys_seen {key : List Segment} :
    key ∈ set.seen.keys ↔ key ∈ set.locations.map Path.segments := by
  rw [set.in_step, List.mem_map]

/-- Where the lists agree, what is looked up agrees by itself. -/
theorem agrees_iff :
    set.agrees other = true ↔ List.Forall₂ Path.Same set.locations other.locations := by
  rw [← Path.map_segments_eq_iff, agrees, Bool.and_eq_true, beq_iff_eq, and_iff_left_iff_imp]
  intro hSame
  rw [PathSet.agrees_iff]
  intro key
  rw [mem_keys_seen, mem_keys_seen, hSame]

theorem insert_eq_true_iff : (set.insert p).1 = true ↔ set.contains p = false := by
  by_cases h : set.contains p = true
  · simp [insert_of_contains h, h]
  · simp [(locations_insert_of_not_contains h).1, h]

/-! ## Runs -/

inductive Step
  | insert (p : Path)
  | extend (ps : List Path)
  | drain

def apply (set : ReferenceSet) : Step → ReferenceSet
  | .insert p => (set.insert p).2
  | .extend ps => set.extend ps
  | .drain => set.drain.2

def ofSteps (steps : List Step) : ReferenceSet := steps.foldl apply empty

/-- The paths that are added after a step, where some have been added before it. -/
def Step.follow (ps : List Path) : Step → List Path
  | .insert p => ps ++ [p]
  | .extend qs => ps ++ qs
  | .drain => []

/-- The paths added since the last drain, in order, with all repetitions. -/
def added (steps : List Step) : List Path := steps.foldl Step.follow []

theorem locations_extend_of_eq (h : set.locations = Path.firstSpellings ps) (qs : List Path) :
    (set.extend qs).locations = Path.firstSpellings (ps ++ qs) := by
  rw [locations_extend, h, Path.apartFrom_left_firstSpellings, Path.firstSpellings_append]

theorem locations_apply (h : set.locations = Path.firstSpellings ps) (step : Step) :
    (set.apply step).locations = Path.firstSpellings (step.follow ps) := by
  cases step with
  | insert p => exact locations_extend_of_eq h [p]
  | extend qs => exact locations_extend_of_eq h qs
  | drain => rfl

theorem locations_ofSteps (steps : List Step) :
    (ofSteps steps).locations = Path.firstSpellings (added steps) := by
  induction steps using List.reverseRecOn with
  | nil => rfl
  | append_singleton steps step ih =>
    rw [ofSteps, added, List.foldl_concat, List.foldl_concat]
    exact locations_apply ih step

/-- The locations are one path of each class of paths that are the same. -/
theorem size_eq_ncard (h : set.locations = Path.firstSpellings ps) :
    set.size = {c | ∃ p ∈ ps, Quotient.mk Path.sameness p = c}.ncard := by
  classical
  let classes := set.locations.map (Quotient.mk Path.sameness)
  have hDistinct : classes.Nodup := by
    apply List.pairwise_map.mpr
    exact set.distinct.imp fun hApart hSame => hApart (Quotient.exact hSame)
  have hClasses : {c | ∃ p ∈ ps, Quotient.mk Path.sameness p = c} = ↑classes.toFinset := by
    ext c
    obtain ⟨q, rfl⟩ := Quotient.exists_rep c
    have hSame : (∃ p ∈ ps, Path.sameness p q) ↔ ∃ p ∈ set.locations, Path.sameness p q := by
      rw [h]
      exact Path.exists_same_firstSpellings_iff.symm
    simpa [classes, Quotient.eq] using hSame
  rw [hClasses, Set.ncard_coe_finset, List.toFinset_card_of_nodup hDistinct, List.length_map, size]

/-- After any run a reference set lists the paths added since the last drain, each in its first
spelling only and in order. It holds a path if and only if the same path has been added, tells of an
insertion whether the path was missing, and counts the paths up to their spelling. Two such sets are
equal if and only if their lists agree path by path. -/
theorem ofSteps_lists :
    (∀ steps, let set := ofSteps steps
      set.locations = Path.firstSpellings (added steps) ∧
        (∀ p, set.contains p = true ↔ ∃ q ∈ added steps, q.Same p) ∧
        (∀ p, (set.insert p).1 = true ↔ set.contains p = false) ∧
        set.size = {c | ∃ p ∈ added steps, Quotient.mk Path.sameness p = c}.ncard) ∧
    ∀ steps steps', (ofSteps steps).agrees (ofSteps steps') = true ↔
      List.Forall₂ Path.Same (ofSteps steps).locations (ofSteps steps').locations := by
  refine ⟨?_, fun _ _ => agrees_iff⟩
  intro steps set
  have hLocations : set.locations = Path.firstSpellings (added steps) := locations_ofSteps steps
  refine ⟨hLocations, ?_, fun _ => insert_eq_true_iff, size_eq_ncard hLocations⟩
  intro p
  rw [contains_iff, hLocations]
  exact Path.exists_same_firstSpellings_iff

/-- What was drained is forgotten, and a leading dot makes another path where an inner one does
not. -/
example : (ofSteps [.insert ⟨"a"⟩, .drain, .extend [⟨"b//c"⟩, ⟨"./a"⟩, ⟨"b/./c/"⟩],
    .insert ⟨"a"⟩]).locations = [⟨"b//c"⟩, ⟨"./a"⟩, ⟨"a"⟩] := by
  decide +kernel

end ReferenceSet

end ScriptBuild
