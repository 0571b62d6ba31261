import Mathlib.Data.List.Induction
import ScriptBuild.Proofs.File.Named

/-!
# Trees that grow

In a tree every entry stands in a directory, so nothing stands below a location where there is
nothing. A tree grows when entries are added and none is changed: a walk that comes to an end goes
the same way in the grown tree, even if it ends where there was nothing before.
-/

namespace ScriptBuild.FileSystem

set_option autoImplicit false

variable {fs after : FileSystem} {limit left : Nat} {current location : Location} {step : Step}
  {steps : List Step} {next : Move} {halt : Halt} {place : Place} {p : Path} {node : Node}

/-! ## Trees -/

/-- Every entry stands in a directory. -/
def IsTree (fs : FileSystem) : Prop :=
  ∀ location node, fs.node? location = some node → fs.node? location.dropLast = some .directory

theorem isTree_iff :
    fs.IsTree ↔ ∀ entry ∈ fs.entries, fs.node? entry.1.dropLast = some .directory := by
  constructor
  · intro hTree entry hEntry
    obtain ⟨node, hNode⟩ := exists_node_of_mem hEntry
    exact hTree entry.1 node hNode
  · intro hEntries location node hNode
    by_cases hRoot : location = []
    · simp [hRoot]
    · obtain ⟨entry, hEntry, rfl⟩ := exists_entry hRoot hNode
      exact hEntries entry hEntry

instance (fs : FileSystem) : Decidable fs.IsTree := decidable_of_iff _ isTree_iff.symm

theorem IsTree.node?_append (hTree : fs.IsTree) (hNone : fs.node? location = none)
    (below : Location) : fs.node? (location ++ below) = none := by
  induction below using List.reverseRecOn with
  | nil => simpa using hNone
  | append_singleton below name ih =>
    cases hNode : fs.node? (location ++ (below ++ [name])) with
    | none => rfl
    | some node =>
      have hAbove := hTree _ node hNode
      rw [← List.append_assoc, List.dropLast_concat, ih] at hAbove
      simp at hAbove

/-! ## Growth -/

/-- What stands in the one file system stands in the other, at the same locations. -/
structure GrowsTo (fs after : FileSystem) : Prop where
  workingDirectory : after.workingDirectory = fs.workingDirectory
  kept : ∀ location node, fs.node? location = some node → after.node? location = some node

theorem growsTo_put (hNone : fs.node? location = none) (node : Node) :
    fs.GrowsTo (fs.put location node) := by
  refine ⟨rfl, ?_⟩
  intro other node' hOther
  rw [node?_put_of_ne fs node, hOther]
  rintro rfl
  simp [hNone] at hOther

theorem GrowsTo.start (h : fs.GrowsTo after) (p : Path) : after.start p = fs.start p := by
  rw [FileSystem.start, FileSystem.start, h.workingDirectory]

theorem GrowsTo.move (h : fs.GrowsTo after) (hMove : fs.move current step = .ok next) :
    after.move current step = .ok next := by
  unfold FileSystem.move at hMove ⊢
  cases hNode : fs.node? current with
  | none => simp [hNode] at hMove
  | some node =>
    rw [h.kept current node hNode]
    cases node with
    | file contents executable => simp [hNode] at hMove
    | link target => simp [hNode] at hMove
    | directory =>
      cases step with
      | stay => simpa [hNode] using hMove
      | up => simpa [hNode] using hMove
      | enter name =>
        cases hEntry : fs.node? (current ++ [name]) with
        | none => simp [hNode, hEntry] at hMove
        | some node =>
          have hKept : after.node? (current ++ [name]) = some node := h.kept _ node hEntry
          simp only [hNode, hEntry] at hMove
          simpa only [hKept] using hMove

/-- The last step may lead to where there is nothing yet. -/
theorem GrowsTo.advance_last (h : fs.GrowsTo after)
    (hAdvance : fs.advance false current [step] = .ok halt) :
    after.advance false current [step] = .ok halt := by
  cases hNode : fs.node? current with
  | none => simp [advance.eq_def, hNode] at hAdvance
  | some node =>
    have hKept : after.node? current = some node := h.kept current node hNode
    cases node with
    | file contents executable => simp [advance.eq_def, hNode] at hAdvance
    | link target => simp [advance.eq_def, hNode] at hAdvance
    | directory =>
      cases step with
      | stay => simpa [advance.eq_def, hNode, hKept] using hAdvance
      | up => simpa [advance.eq_def, hNode, hKept] using hAdvance
      | enter name =>
        rw [advance_enter hNode] at hAdvance
        rw [advance_enter hKept, hAdvance]

theorem GrowsTo.advance (h : fs.GrowsTo after)
    (hAdvance : fs.advance false current steps = .ok halt) :
    after.advance false current steps = .ok halt := by
  induction steps generalizing current with
  | nil => simpa using hAdvance
  | cons step rest ih =>
    by_cases hRest : rest = []
    · subst hRest
      exact h.advance_last hAdvance
    · rw [advance_cons hRest] at hAdvance ⊢
      cases hMove : fs.move current step with
      | error e => simp [hMove] at hAdvance
      | ok next =>
        rw [hMove] at hAdvance
        rw [h.move hMove]
        rcases next with next | target
        · exact ih hAdvance
        · exact hAdvance

theorem GrowsTo.pursue (h : fs.GrowsTo after)
    (hPursue : fs.pursue false limit current steps = .ok (place, left)) :
    after.pursue false limit current steps = .ok (place, left) := by
  induction limit using Nat.strongRecOn generalizing current steps with
  | ind limit ih =>
    rw [FileSystem.pursue] at hPursue ⊢
    cases hAdvance : fs.advance false current steps with
    | error e => simp [hAdvance] at hPursue
    | ok halt =>
      rw [hAdvance] at hPursue
      rw [h.advance hAdvance]
      cases halt with
      | arrived place => exact hPursue
      | atLink directory target rest =>
        cases limit with
        | zero => exact hPursue
        | succ limit => exact ih limit (Nat.lt_succ_self limit) hPursue

theorem GrowsTo.walk (h : fs.GrowsTo after) (hWalk : fs.walk false p = .ok (place, left)) :
    after.walk false p = .ok (place, left) := by
  unfold FileSystem.walk at hWalk ⊢
  split at hWalk
  · simp at hWalk
  · rename_i hText
    rw [if_neg hText, h.start]
    exact h.pursue hWalk

end ScriptBuild.FileSystem
