import Mathlib.Data.List.Basic
import Mathlib.Data.List.Pairwise
import ScriptBuild.Namespace.Set

/-!
# Members of sets of namespaces

What each way of adding names does to the members. The order of names is total because no two
strings have the same octets, so the place of a name is missing only when the name is there
already.
-/

namespace ScriptBuild

set_option autoImplicit false

namespace Text

theorem utf8_injective {a b : String} (h : utf8 a = utf8 b) : a = b := by
  apply String.toByteArray_inj.mp
  rw [← String.utf8Encode_toList, ← String.utf8Encode_toList]
  exact congrArg List.toByteArray h

theorem Before.total {a b : String} (hab : ¬ Before a b) (hba : ¬ Before b a) : a = b :=
  utf8_injective (List.le_antisymm hba hab)

end Text

namespace NamespaceSet

variable {name x : String} {names : List String} {set other : NamespaceSet}

theorem mem_of_place?_eq_none (h : place? name names = none) : name ∈ names := by
  induction names with
  | nil => simp [place?] at h
  | cons other rest ih =>
    rw [place?] at h
    split at h
    · simp at h
    · rename_i hBefore
      split at h
      · exact List.mem_cons_of_mem _ (ih (by simpa using h))
      · rename_i hAfter
        rw [Text.Before.total hBefore hAfter]
        exact List.mem_cons_self

theorem place?_eq_none_of_mem (ascending : names.Pairwise Text.Before) (h : name ∈ names) :
    place? name names = none := by
  induction names with
  | nil => simp at h
  | cons other rest ih =>
    obtain ⟨hFirst, hRest⟩ := List.pairwise_cons.mp ascending
    rcases List.mem_cons.mp h with rfl | hMem
    · rw [place?, if_neg (Text.Before.irrefl name), if_neg (Text.Before.irrefl name)]
    · have hAfter : Text.Before other name := hFirst name hMem
      have hNotBefore : ¬ Text.Before name other := fun hBefore =>
        Text.Before.irrefl other (hAfter.trans hBefore)
      rw [place?, if_neg hNotBefore, if_pos hAfter, ih hRest hMem, Option.map_none]

theorem insert_eq_true_iff : (set.insert name).1 = true ↔ name ∉ set.names := by
  cases h : place? name set.names with
  | none => simp [insert_of_place?_none h, mem_of_place?_eq_none h]
  | some placed =>
    have hMissing : name ∉ set.names := fun hMem => by
      simp [place?_eq_none_of_mem set.ascending hMem] at h
    simp [(names_insert_of_place? h).1, hMissing]

theorem mem_names_insert : x ∈ (set.insert name).2.names ↔ x = name ∨ x ∈ set.names := by
  cases h : place? name set.names with
  | none =>
    rw [insert_of_place?_none h]
    have hMem := mem_of_place?_eq_none h
    constructor
    · exact Or.inr
    · rintro (rfl | hx)
      · exact hMem
      · exact hx
  | some placed =>
    rw [(names_insert_of_place? h).2]
    exact mem_of_place? h

theorem mem_names_extend : x ∈ (set.extend names).names ↔ x ∈ names ∨ x ∈ set.names := by
  induction names generalizing set with
  | nil => simp [extend]
  | cons name rest ih =>
    change x ∈ ((set.insert name).2.extend rest).names ↔ _
    rw [ih, mem_names_insert, List.mem_cons]
    exact or_left_comm.trans or_assoc.symm

theorem mem_names_merge : x ∈ (set.merge other).names ↔ x ∈ other.names ∨ x ∈ set.names :=
  mem_names_extend

theorem mem_names_ofList : x ∈ (ofList names).names ↔ x ∈ names := by
  simp [ofList, mem_names_extend]

theorem nodup_names (set : NamespaceSet) : set.names.Nodup :=
  set.ascending.imp fun h => h.ne

theorem eq_of_mem_iff (h : ∀ x, x ∈ set.names ↔ x ∈ other.names) : set = other := by
  have hNames : set.names = other.names := by
    apply List.Perm.eq_of_pairwise _ set.ascending other.ascending
    · exact (List.perm_ext_iff_of_nodup set.nodup_names other.nodup_names).mpr h
    · intro a b _ _ hab hba
      exact absurd (hab.trans hba) (Text.Before.irrefl a)
  cases set
  cases other
  simpa using hNames

end NamespaceSet

end ScriptBuild
