import Mathlib.Data.List.Pairwise
import ScriptBuild.Index.Walk
import ScriptBuild.Proofs.Namespace.Set

/-!
# The order of paths

Of two paths that are not the same, one comes before the other. A list of paths no two of which are
the same is therefore put into one order only, and two ascending lists with the same members are
equal.
-/

namespace ScriptBuild

set_option autoImplicit false

theorem Segment.key_injective {s t : Segment} (h : s.key = t.key) : s = t := by
  cases s <;> cases t <;> simp [key] at h ⊢
  exact Text.utf8_injective h

theorem Segment.total {s t : Segment} (hst : ¬ s < t) (hts : ¬ t < s) : s = t :=
  key_injective (List.le_antisymm hts hst)

instance : Std.Trichotomous (α := Segment) (· < ·) := ⟨fun _ _ => Segment.total⟩

namespace Path

variable {p q r : Path} {ps qs : List Path}

theorem Before.same_of_not (hpq : ¬ p.Before q) (hqp : ¬ q.Before p) : p.Same q :=
  List.le_antisymm hqp hpq

theorem Before.not_trans (hpq : ¬ q.Before p) (hqr : ¬ r.Before q) : ¬ r.Before p := by
  intro hrp
  by_cases hBefore : q.Before r
  · exact hpq (hBefore.trans hrp)
  · have hSame : q.segments = r.segments := Before.same_of_not hBefore hqr
    apply hpq
    rw [Before, hSame]
    exact hrp

theorem eq_of_same {α : Type} {location : α → Path} {items : List α} {a b : α}
    (h : items.Pairwise fun a b => ¬ (location a).Same (location b)) (ha : a ∈ items)
    (hb : b ∈ items) (hSame : (location a).Same (location b)) : a = b := by
  have hSymm : Std.Symm fun a b : α => ¬ (location a).Same (location b) :=
    ⟨fun _ _ hApart hBack => hApart hBack.symm⟩
  by_contra hOther
  exact h.forall ha hb hOther hSame

abbrev Ascending (ps : List Path) : Prop := ps.Pairwise Before

theorem Ascending.nodup (h : Ascending ps) : ps.Nodup := by
  apply List.Pairwise.imp _ h
  rintro p _ hBefore rfl
  exact Before.irrefl p hBefore

theorem Ascending.pairwise_not_same (h : Ascending ps) : ps.Pairwise fun p q => ¬ p.Same q :=
  h.imp Before.not_same

theorem Ascending.eq_of_mem_iff (hps : Ascending ps) (hqs : Ascending qs)
    (hMem : ∀ p, p ∈ ps ↔ p ∈ qs) : ps = qs := by
  apply List.Perm.eq_of_pairwise _ hps hqs
  · exact (List.perm_ext_iff_of_nodup hps.nodup hqs.nodup).mpr hMem
  · intro p q _ _ hpq hqp
    exact absurd (hpq.trans hqp) (Before.irrefl p)

end Path

namespace ModuleIndex

variable {p : Path} {ps : List Path}

theorem mem_sortPaths : p ∈ sortPaths ps ↔ p ∈ ps := List.mem_mergeSort

theorem ascending_sortPaths (h : ps.Pairwise fun p q => ¬ p.Same q) :
    Path.Ascending (sortPaths ps) := by
  have hSorted : (sortPaths ps).Pairwise fun p q => !decide (q.Before p) := by
    apply List.pairwise_mergeSort
    · intro p q r hpq hqr
      simp only [Bool.not_eq_true', decide_eq_false_iff_not] at hpq hqr ⊢
      exact Path.Before.not_trans hpq hqr
    · intro p q
      by_cases hqp : q.Before p
      · have hpq : ¬ p.Before q := fun hpq => Path.Before.irrefl p (hpq.trans hqp)
        simp [hpq]
      · simp [hqp]
  have hApart : (sortPaths ps).Pairwise fun p q => ¬ p.Same q := by
    apply (List.mergeSort_perm ps _).symm.pairwise h
    intro p q hpq hqp
    exact hpq hqp.symm
  apply (hSorted.and hApart).imp
  intro p q hpq
  by_cases hBefore : p.Before q
  · exact hBefore
  · exact absurd (Path.Before.same_of_not hBefore (by simpa using hpq.1)) hpq.2

end ModuleIndex

end ScriptBuild
