import Mathlib.Data.Set.Card
import ScriptBuild.Proofs.Namespace.Joined

/-!
# Runs of sets of namespaces

However a set of namespaces has been filled and drained, its members are the names added since it
was last drained. A set is its members, so neither the order of the steps nor repeated steps can be
seen in it, and sets may be merged in any order and grouping.
-/

namespace ScriptBuild.NamespaceSet

set_option autoImplicit false

variable {x : String} {set : NamespaceSet}

inductive Step
  | insert (name : String)
  | merge (other : NamespaceSet)
  | extend (names : List String)
  | mergeScan (text : List Char)
  | drain

def apply (set : NamespaceSet) : Step → NamespaceSet
  | .insert name => (set.insert name).2
  | .merge other => set.merge other
  | .extend names => set.extend names
  | .mergeScan text => set.merge (Scan.text text)
  | .drain => set.drain.2

def ofSteps (steps : List Step) : NamespaceSet := steps.foldl apply empty

def Step.Adds (x : String) : Step → Prop
  | .insert name => x = name
  | .merge other => x ∈ other.names
  | .extend names => x ∈ names
  | .mergeScan text => ∃ line ∈ Text.lines text, Scan.Declares line x
  | .drain => False

/-- A step adds the name, and no step after it drains the set. -/
def Added (steps : List Step) (x : String) : Prop :=
  ∃ before step after, steps = before ++ step :: after ∧ step.Adds x ∧ .drain ∉ after

theorem not_added_nil : ¬ Added [] x := by
  intro ⟨before, step, after, hSteps, _⟩
  simp at hSteps

theorem added_concat {steps : List Step} {step : Step} :
    Added (steps ++ [step]) x ↔ step.Adds x ∨ step ≠ .drain ∧ Added steps x := by
  constructor
  · intro ⟨before, earlier, after, hSteps, hAdds, hAfter⟩
    cases after using List.reverseRecOn with
    | nil =>
      obtain ⟨-, hLast⟩ := List.append_inj' hSteps rfl
      obtain rfl := List.singleton_inj.mp hLast
      exact Or.inl hAdds
    | append_singleton after last =>
      rw [← List.cons_append, ← List.append_assoc] at hSteps
      obtain ⟨hFront, hLast⟩ := List.append_inj' hSteps rfl
      obtain rfl := List.singleton_inj.mp hLast
      simp only [List.mem_append, List.mem_singleton, not_or] at hAfter
      exact Or.inr ⟨Ne.symm hAfter.2, before, earlier, after, hFront, hAdds, hAfter.1⟩
  · intro h
    rcases h with hAdds | ⟨hStays, before, earlier, after, hSteps, hAdds, hAfter⟩
    · exact ⟨steps, step, [], rfl, hAdds, List.not_mem_nil⟩
    · refine ⟨before, earlier, after ++ [step], by simp [hSteps], hAdds, ?_⟩
      simp [hAfter, Ne.symm hStays]

theorem mem_names_apply {step : Step} :
    x ∈ (set.apply step).names ↔ step.Adds x ∨ step ≠ .drain ∧ x ∈ set.names := by
  cases step with
  | insert name => simp [apply, Step.Adds, mem_names_insert]
  | merge other => simp [apply, Step.Adds, mem_names_merge]
  | extend names => simp [apply, Step.Adds, mem_names_extend]
  | mergeScan text =>
    simp [apply, Step.Adds, mem_names_merge, Scan.mem_names_text_iff, Scan.mem_lineNames_iff]
  | drain => simp [apply, Step.Adds, drain]

theorem mem_names_ofSteps {steps : List Step} : x ∈ (ofSteps steps).names ↔ Added steps x := by
  induction steps using List.reverseRecOn with
  | nil => simp [ofSteps, not_added_nil]
  | append_singleton steps step ih =>
    rw [ofSteps, List.foldl_concat, ← ofSteps, mem_names_apply, ih, added_concat]

theorem size_eq_ncard : set.size = {x | x ∈ set.names}.ncard := by
  rw [← List.coe_toFinset, Set.ncard_coe_finset, List.toFinset_card_of_nodup set.nodup_names, size]

/-! ## Merging many sets -/

/-- A way to merge sets into one another, with new sets in between. -/
inductive Merging
  | new
  | one (set : NamespaceSet)
  | merge (first second : Merging)

namespace Merging

def result : Merging → NamespaceSet
  | .new => .empty
  | .one set => set
  | .merge first second => first.result.merge second.result

def sets : Merging → List NamespaceSet
  | .new => []
  | .one set => [set]
  | .merge first second => first.sets ++ second.sets

theorem mem_names_result {m : Merging} : x ∈ m.result.names ↔ ∃ set ∈ m.sets, x ∈ set.names := by
  induction m with
  | new => simp [result, sets]
  | one set => simp [result, sets]
  | merge first second ihFirst ihSecond =>
    rw [result, mem_names_merge, ihFirst, ihSecond, sets]
    simp only [List.mem_append, or_and_right, exists_or]
    exact or_comm

theorem result_congr {m n : Merging} (h : ∀ set, set ∈ m.sets ↔ set ∈ n.sets) :
    m.result = n.result := by
  apply eq_of_mem_iff
  intro x
  simp only [mem_names_result, h]

end Merging

/-- After any run the members of a set of namespaces are the names added since the last drain, in
strictly ascending order. An insertion tells whether the name was missing, and the size counts the
distinct names. Two such sets are equal if and only if the same names have been added, so sets come
to the same whichever way they are merged. -/
theorem ofSteps_canonical :
    (∀ steps, let set := ofSteps steps
      set.names.Pairwise Text.Before ∧ (∀ x, x ∈ set.names ↔ Added steps x) ∧
        (∀ name, (set.insert name).1 = true ↔ ¬ Added steps name) ∧
        set.size = {x | Added steps x}.ncard) ∧
    (∀ steps steps', ofSteps steps = ofSteps steps' ↔ ∀ x, Added steps x ↔ Added steps' x) ∧
    ∀ m n : Merging, (∀ set, set ∈ m.sets ↔ set ∈ n.sets) → m.result = n.result := by
  refine ⟨?_, ?_, fun _ _ => Merging.result_congr⟩
  · intro steps set
    have hMembers : ∀ x, x ∈ set.names ↔ Added steps x := fun _ => mem_names_ofSteps
    refine ⟨set.ascending, hMembers, ?_, ?_⟩
    · intro name
      rw [insert_eq_true_iff, hMembers]
    · simp only [size_eq_ncard, hMembers]
  · intro steps steps'
    constructor
    · intro hSame x
      rw [← mem_names_ofSteps, hSame, mem_names_ofSteps]
    · intro hAdded
      apply eq_of_mem_iff
      intro x
      rw [mem_names_ofSteps, mem_names_ofSteps, hAdded]

/-- What two scripts import, where one of them is merged twice and in another grouping. -/
theorem merged_in_another_grouping :
    let first := ofSteps [.insert "Old", .drain, .mergeScan "using Lib.Net; using Lib;".toList]
    let second := ofSteps [.extend ["b", "B", "é"], .mergeScan "using IO = Lib;".toList]
    let again : Merging := .merge (.merge (.one first) (.one second)) (.merge .new (.one first))
    let once : Merging := .merge (.one second) (.one first)
    (∀ set, set ∈ again.sets ↔ set ∈ once.sets) ∧ again.result = once.result ∧
      once.result.names = ["B", "Lib", "Lib.Net", "b", "é"] := by
  intro first second again once
  have hNames : once.result.names = ["B", "Lib", "Lib.Net", "b", "é"] := by
    decide +kernel +revert
  have hSets : ∀ set, set ∈ again.sets ↔ set ∈ once.sets := by
    intro set
    simp only [again, once, Merging.sets, List.mem_append, List.mem_singleton, List.not_mem_nil]
    tauto
  exact ⟨hSets, ofSteps_canonical.2.2 again once hSets, hNames⟩

end ScriptBuild.NamespaceSet
