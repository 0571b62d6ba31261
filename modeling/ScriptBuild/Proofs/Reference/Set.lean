import Mathlib.Data.List.Basic
import ScriptBuild.Reference.Set

/-!
# The locations of reference sets

Adding paths to a reference set appends those that are the same as none before them. The locations
of the set of a list are therefore the first spellings of its paths, in order.
-/

namespace ScriptBuild

set_option autoImplicit false

variable {p q : Path} {ps qs : List Path} {set : ReferenceSet}

namespace Path

def apartFrom (ps qs : List Path) : List Path :=
  qs.filter fun q => decide (∀ p ∈ ps, ¬ p.Same q)

/-- The paths of a list, each in its first spelling only. -/
def firstSpellings : List Path → List Path
  | [] => []
  | p :: ps => p :: apartFrom [p] (firstSpellings ps)

theorem mem_apartFrom : q ∈ apartFrom ps qs ↔ q ∈ qs ∧ ∀ p ∈ ps, ¬ p.Same q := by
  simp [apartFrom]

@[simp] theorem apartFrom_nil_left (qs : List Path) : apartFrom [] qs = qs := by simp [apartFrom]

@[simp] theorem apartFrom_nil_right (ps : List Path) : apartFrom ps [] = [] := rfl

theorem apartFrom_apartFrom (ps qs rs : List Path) :
    apartFrom ps (apartFrom qs rs) = apartFrom (ps ++ qs) rs := by
  simp only [apartFrom, List.filter_filter]
  congr 1
  funext r
  simp [or_imp, forall_and]

theorem apartFrom_append (ps qs rs : List Path) :
    apartFrom ps (qs ++ rs) = apartFrom ps qs ++ apartFrom ps rs := List.filter_append qs rs

theorem apartFrom_congr (h : ∀ r, (∀ p ∈ ps, ¬ p.Same r) ↔ ∀ q ∈ qs, ¬ q.Same r)
    (rs : List Path) : apartFrom ps rs = apartFrom qs rs := by
  simp only [apartFrom]
  congr 1
  funext r
  simp [h r]

/-- Paths that are the same as one already there keep no further paths away. -/
theorem apart_append_apartFrom_iff (ps qs : List Path) (r : Path) :
    (∀ q ∈ ps ++ apartFrom ps qs, ¬ q.Same r) ↔ ∀ q ∈ ps ++ qs, ¬ q.Same r := by
  constructor
  · intro h q hq hqr
    rcases List.mem_append.mp hq with hq | hq
    · exact h q (List.mem_append_left _ hq) hqr
    · by_cases hOld : ∃ p ∈ ps, p.Same q
      · obtain ⟨p, hp, hpq⟩ := hOld
        exact h p (List.mem_append_left _ hp) (hpq.trans hqr)
      · have hApart : ∀ p ∈ ps, ¬ p.Same q := fun p hp hpq => hOld ⟨p, hp, hpq⟩
        exact h q (List.mem_append_right _ (mem_apartFrom.mpr ⟨hq, hApart⟩)) hqr
  · intro h q hq
    rcases List.mem_append.mp hq with hq | hq
    · exact h q (List.mem_append_left _ hq)
    · exact h q (List.mem_append_right _ (mem_apartFrom.mp hq).1)

theorem mem_of_mem_firstSpellings (h : q ∈ firstSpellings ps) : q ∈ ps := by
  induction ps with
  | nil => simp [firstSpellings] at h
  | cons p ps ih =>
    rcases List.mem_cons.mp h with rfl | h
    · exact List.mem_cons_self
    · exact List.mem_cons_of_mem _ (ih (mem_apartFrom.mp h).1)

theorem exists_same_mem_firstSpellings (h : q ∈ ps) : ∃ r ∈ firstSpellings ps, r.Same q := by
  induction ps with
  | nil => simp at h
  | cons p ps ih =>
    by_cases hpq : p.Same q
    · exact ⟨p, List.mem_cons_self, hpq⟩
    · rcases List.mem_cons.mp h with rfl | h
      · exact absurd (Same.refl q) hpq
      · obtain ⟨r, hr, hrq⟩ := ih h
        refine ⟨r, List.mem_cons_of_mem _ (mem_apartFrom.mpr ⟨hr, ?_⟩), hrq⟩
        intro p' hp' hSame
        rw [List.mem_singleton.mp hp'] at hSame
        exact hpq (hSame.trans hrq)

theorem exists_same_firstSpellings_iff :
    (∃ r ∈ firstSpellings ps, r.Same q) ↔ ∃ r ∈ ps, r.Same q := by
  constructor
  · rintro ⟨r, hr, hrq⟩
    exact ⟨r, mem_of_mem_firstSpellings hr, hrq⟩
  · rintro ⟨r, hr, hrq⟩
    obtain ⟨s, hs, hsr⟩ := exists_same_mem_firstSpellings hr
    exact ⟨s, hs, hsr.trans hrq⟩

theorem apartFrom_left_firstSpellings (ps qs : List Path) :
    apartFrom (firstSpellings ps) qs = apartFrom ps qs := by
  apply apartFrom_congr
  intro r
  have hSame : (∃ p ∈ firstSpellings ps, p.Same r) ↔ ∃ p ∈ ps, p.Same r :=
    exists_same_firstSpellings_iff
  simpa using not_congr hSame

theorem pairwise_firstSpellings (ps : List Path) :
    (firstSpellings ps).Pairwise fun p q => ¬ p.Same q := by
  induction ps with
  | nil => exact .nil
  | cons p ps ih =>
    refine List.pairwise_cons.mpr ⟨?_, ih.sublist List.filter_sublist⟩
    intro q hq
    exact (mem_apartFrom.mp hq).2 p (by simp)

theorem firstSpellings_append (ps qs : List Path) :
    firstSpellings (ps ++ qs) = firstSpellings ps ++ apartFrom ps (firstSpellings qs) := by
  induction ps with
  | nil => simp [firstSpellings]
  | cons p ps ih =>
    rw [List.cons_append, firstSpellings, ih, apartFrom_append, apartFrom_apartFrom]
    rfl

theorem firstSpellings_of_pairwise (h : ps.Pairwise fun p q => ¬ p.Same q) :
    firstSpellings ps = ps := by
  induction ps with
  | nil => rfl
  | cons p ps ih =>
    obtain ⟨hHead, hTail⟩ := List.pairwise_cons.mp h
    rw [firstSpellings, ih hTail]
    congr 1
    exact List.filter_eq_self.mpr fun q hq => by simpa using hHead q hq

/-- Removing later spellings from a part beforehand makes no difference. -/
theorem firstSpellings_append_firstSpellings (ps qs : List Path) :
    firstSpellings (ps ++ firstSpellings qs) = firstSpellings (ps ++ qs) := by
  rw [firstSpellings_append, firstSpellings_append,
    firstSpellings_of_pairwise (pairwise_firstSpellings qs)]

end Path

namespace ReferenceSet

theorem locations_insert (set : ReferenceSet) (p : Path) :
    (set.insert p).2.locations = set.locations ++ Path.apartFrom set.locations [p] := by
  by_cases h : set.contains p = true
  · obtain ⟨q, hq, hqp⟩ := contains_iff.mp h
    have hNone : Path.apartFrom set.locations [p] = [] := by
      simpa [Path.apartFrom] using ⟨q, hq, hqp⟩
    rw [insert_of_contains h, hNone, List.append_nil]
  · have hAll : Path.apartFrom set.locations [p] = [p] := by
      have hApart : ∀ q ∈ set.locations, ¬ q.Same p := fun q hq hqp =>
        h (contains_iff.mpr ⟨q, hq, hqp⟩)
      simpa [Path.apartFrom] using hApart
    rw [(locations_insert_of_not_contains h).2, hAll]

theorem locations_extend (set : ReferenceSet) (ps : List Path) :
    (set.extend ps).locations =
      set.locations ++ Path.apartFrom set.locations (Path.firstSpellings ps) := by
  induction ps generalizing set with
  | nil => simp [extend, Path.firstSpellings]
  | cons p ps ih =>
    change ((set.insert p).2.extend ps).locations = _
    rw [ih, locations_insert, Path.apartFrom_congr (Path.apart_append_apartFrom_iff _ [p]),
      List.append_assoc, ← Path.apartFrom_apartFrom, ← Path.apartFrom_append]
    rfl

theorem locations_ofList (ps : List Path) : (ofList ps).locations = Path.firstSpellings ps := by
  simp [ofList, locations_extend]

end ReferenceSet

end ScriptBuild
