import Mathlib.Logic.Basic

/-!
# Results

When computations that may fail do not fail. A sequence of them is taken apart from its first step
on, with no look at how the steps are joined.
-/

namespace ScriptBuild

set_option autoImplicit false

variable {ε δ α β : Type} {x : Except ε α} {a b : α} {c : β}

@[simp] theorem bind_eq_ok_iff {f : α → Except ε β} :
    (x >>= f) = .ok c ↔ ∃ a, x = .ok a ∧ f a = .ok c := by
  cases x with
  | error e => exact iff_of_false nofun nofun
  | ok a =>
    constructor
    · exact fun h => ⟨a, rfl, h⟩
    · rintro ⟨_, ⟨⟩, h⟩
      exact h

@[simp] theorem map_eq_ok_iff {f : α → β} : f <$> x = .ok c ↔ ∃ a, x = .ok a ∧ f a = c := by
  cases x with
  | error e => exact iff_of_false nofun nofun
  | ok a => simp [Functor.map, Except.map]

theorem mapError_eq_ok_iff {f : ε → δ} : x.mapError f = .ok a ↔ x = .ok a := by
  cases x with
  | error e => exact iff_of_false nofun nofun
  | ok b =>
    constructor
    · rintro ⟨⟩
      rfl
    · rintro ⟨⟩
      rfl

@[simp] theorem pure_eq_ok_iff : (pure a : Except ε α) = .ok b ↔ a = b :=
  ⟨Except.ok.inj, congrArg Except.ok⟩

@[simp] theorem throw_ne_ok {e : ε} : (throw e : Except ε α) ≠ .ok a := nofun

end ScriptBuild
