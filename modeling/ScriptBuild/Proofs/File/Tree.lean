import ScriptBuild.Proofs.File.Growth

/-!
# File trees

In a file tree every entry stands in a directory and has a name that entries may have. What a walk
leads to is a place in a tree, so a tree stays one when something is put there, in the place of no
directory. It also stays one when entries are taken away, as long as all that stands in them is
taken away too.
-/

namespace ScriptBuild

set_option autoImplicit false

/-- A file system that is a tree of entries with names. -/
structure FileTree extends FileSystem where
  isTree : toFileSystem.IsTree
  named : toFileSystem.Named

instance : Coe FileTree FileSystem := ⟨FileTree.toFileSystem⟩

namespace FileSystem

variable {fs mid after : FileSystem} {follow : Bool} {limit left : Nat} {name : String}
  {current directory location : Location} {steps rest : List Step} {p target : Path} {node : Node}
  {gone : Location → Bool}

/-- The files have changed and are a tree if they were one. -/
structure EvolvesTo (fs after : FileSystem) : Prop where
  workingDirectory : after.workingDirectory = fs.workingDirectory
  isTree : fs.IsTree → after.IsTree
  named : fs.Named → after.Named

theorem EvolvesTo.refl (fs : FileSystem) : fs.EvolvesTo fs := ⟨rfl, id, id⟩

theorem EvolvesTo.trans (h : fs.EvolvesTo mid) (h' : mid.EvolvesTo after) : fs.EvolvesTo after where
  workingDirectory := h'.workingDirectory.trans h.workingDirectory
  isTree hTree := h'.isTree (h.isTree hTree)
  named hNamed := h'.named (h.named hNamed)

/-! ## What is put and what is taken away -/

theorem IsTree.put (hTree : fs.IsTree) (hNot : fs.node? location ≠ some .directory)
    (hDirectory : fs.node? location.dropLast = some .directory) (node : Node) :
    (fs.put location node).IsTree := by
  have hKept : ∀ other, fs.node? other = some .directory →
      (fs.put location node).node? other = some .directory := by
    intro other hOther
    rw [node?_put_of_ne fs node, hOther]
    rintro rfl
    exact hNot hOther
  intro other node' hOther
  by_cases hSame : other = location
  · exact hKept _ (hSame ▸ hDirectory)
  · rw [node?_put_of_ne fs node hSame] at hOther
    exact hKept _ (hTree other node' hOther)

theorem Named.put (hNamed : fs.Named) (hLocation : ∀ name ∈ location, Path.IsName name)
    (node : Node) : (fs.put location node).Named := by
  intro other node' hNode name hName
  by_cases hSame : other = location
  · exact hLocation name (hSame ▸ hName)
  · rw [node?_put_of_ne fs node hSame] at hNode
    exact hNamed other node' hNode name hName

/-- With a directory all that stands in it has to go. -/
theorem evolvesTo_removeWhere (hBelow : ∀ location, fs.node? location.dropLast = some .directory →
      gone location.dropLast = true → gone location = true) :
    fs.EvolvesTo (fs.removeWhere gone) := by
  have hOld : ∀ location node, location ≠ [] →
      (fs.removeWhere gone).node? location = some node →
        gone location = false ∧ fs.node? location = some node := by
    intro location node hRoot hNode
    rw [node?_removeWhere fs gone hRoot] at hNode
    cases hGone : gone location with
    | true => simp [hGone] at hNode
    | false => exact ⟨rfl, by simpa [hGone] using hNode⟩
  refine ⟨rfl, ?_, ?_⟩
  · intro hTree location node hNode
    by_cases hRoot : location = []
    · simp [hRoot]
    · obtain ⟨hStays, hNode⟩ := hOld location node hRoot hNode
      have hAbove := hTree location node hNode
      by_cases hTop : location.dropLast = []
      · simp [hTop]
      · rw [node?_removeWhere fs gone hTop, if_neg, hAbove]
        intro hGone
        simp [hBelow location hAbove hGone] at hStays
  · intro hNamed location node hNode
    by_cases hRoot : location = []
    · simp [hRoot]
    · exact hNamed location node (hOld location node hRoot hNode).2

theorem evolvesTo_erase (hNot : fs.node? location ≠ some .directory) :
    fs.EvolvesTo (fs.erase location) := by
  apply evolvesTo_removeWhere
  intro other hAbove hGone
  rw [eq_of_beq hGone] at hAbove
  exact absurd hAbove hNot

theorem evolvesTo_eraseBelow (fs : FileSystem) (location : Location) :
    fs.EvolvesTo (fs.eraseBelow location) := by
  apply evolvesTo_removeWhere
  intro other _ hGone
  rw [List.isPrefixOf_iff_prefix] at hGone ⊢
  exact hGone.trans other.dropLast_prefix

/-! ## What walks lead to -/

theorem isName_of_mem_steps (h : .enter name ∈ p.steps) : Path.IsName name := by
  have hPiece : ∃ cs, ∃ piece ∈ Text.pieces '/' cs, Path.stepOfPiece piece = .enter name := by
    unfold Path.steps at h
    split at h
    · exact ⟨_, List.mem_map.mp h⟩
    · exact ⟨_, List.mem_map.mp h⟩
  obtain ⟨cs, piece, hPiece, hStep⟩ := hPiece
  have hSlash : '/' ∉ piece := Text.not_mem_of_mem_pieces hPiece
  unfold Path.stepOfPiece at hStep
  split at hStep
  · cases hStep
  · cases hStep
  · cases hStep
  · obtain rfl := Step.enter.inj hStep
    constructor
    all_goals simpa using ‹_›

theorem entry_of_advance_last {step : Step}
    (h : fs.advance follow current [step] = .ok (.arrived (.entry directory name))) :
    fs.node? current = some .directory ∧ current = directory ∧ step = .enter name := by
  rw [advance.eq_def] at h
  cases hNode : fs.node? current with
  | none => simp [hNode] at h
  | some node =>
    cases node with
    | file contents executable => simp [hNode] at h
    | link target => simp [hNode] at h
    | directory =>
      cases step with
      | stay => simp [hNode] at h
      | up => simp [hNode] at h
      | enter entered =>
        simp only [hNode, List.isEmpty_nil, if_true] at h
        split at h
        · split at h
          · cases h
          · cases h
            exact ⟨rfl, rfl, rfl⟩
        · cases h
          exact ⟨rfl, rfl, rfl⟩
        · cases h
          exact ⟨rfl, rfl, rfl⟩

theorem entry_of_advance
    (h : fs.advance follow current steps = .ok (.arrived (.entry directory name))) :
    fs.node? directory = some .directory ∧ .enter name ∈ steps := by
  induction steps generalizing current with
  | nil => simp at h
  | cons step rest ih =>
    by_cases hRest : rest = []
    · subst hRest
      obtain ⟨hNode, rfl, rfl⟩ := entry_of_advance_last h
      exact ⟨hNode, List.mem_singleton_self _⟩
    · rw [advance_cons hRest] at h
      cases hMove : fs.move current step with
      | error e => simp [hMove] at h
      | ok next =>
        rw [hMove] at h
        rcases next with next | target
        · obtain ⟨hDirectory, hMem⟩ := ih h
          exact ⟨hDirectory, List.mem_cons_of_mem step hMem⟩
        · simp at h

theorem rest_of_advance
    (h : fs.advance follow current steps = .ok (.atLink directory target rest)) :
    rest ⊆ steps := by
  induction steps generalizing current with
  | nil => simp at h
  | cons step steps ih =>
    by_cases hMore : steps = []
    · subst hMore
      rcases advance_last fs follow current step with
        ⟨e, hAdvance, -⟩ | ⟨place, hAdvance, -⟩ | ⟨target, -, hAdvance, -⟩
      · simp [hAdvance] at h
      · simp [hAdvance] at h
      · obtain ⟨-, -, rfl⟩ := by simpa [hAdvance] using h
        exact List.nil_subset _
    · rw [advance_cons hMore] at h
      cases hMove : fs.move current step with
      | error e => simp [hMove] at h
      | ok next =>
        rw [hMove] at h
        rcases next with next | target
        · exact List.subset_cons_of_subset step (ih h)
        · obtain ⟨-, -, rfl⟩ := by simpa using h
          exact List.subset_cons_self step _

theorem entry_of_pursue (hSteps : ∀ name, .enter name ∈ steps → Path.IsName name)
    (h : fs.pursue follow limit current steps = .ok (.entry directory name, left)) :
    fs.node? directory = some .directory ∧ Path.IsName name := by
  induction limit using Nat.strongRecOn generalizing current steps with
  | ind limit ih =>
    rw [pursue] at h
    cases hAdvance : fs.advance follow current steps with
    | error e => simp [hAdvance] at h
    | ok halt =>
      cases halt with
      | arrived place =>
        obtain ⟨rfl, -⟩ : place = .entry directory name ∧ limit = left := by
          simpa [hAdvance] using h
        obtain ⟨hDirectory, hMem⟩ := entry_of_advance hAdvance
        exact ⟨hDirectory, hSteps name hMem⟩
      | atLink before target rest =>
        cases limit with
        | zero => simp [hAdvance] at h
        | succ limit =>
          simp only [hAdvance] at h
          refine ih limit (Nat.lt_succ_self limit) ?_ h
          intro entered hMem
          rcases List.mem_append.mp hMem with hTarget | hRest
          · exact isName_of_mem_steps hTarget
          · exact hSteps entered (rest_of_advance hAdvance hRest)

theorem entry_of_walk (h : fs.walk follow p = .ok (.entry directory name, left)) :
    fs.node? directory = some .directory ∧ Path.IsName name := by
  unfold walk at h
  split at h
  · simp at h
  · exact entry_of_pursue (fun _ => isName_of_mem_steps) h

/-- Something is put where a walk leads to, in the place of no directory. -/
theorem evolvesTo_put_of_walk (hWalk : fs.walk follow p = .ok (.entry directory name, left))
    (hNot : fs.node? (directory ++ [name]) ≠ some .directory) (node : Node) :
    fs.EvolvesTo (fs.put (directory ++ [name]) node) := by
  obtain ⟨hDirectory, hName⟩ := entry_of_walk hWalk
  refine ⟨rfl, ?_, ?_⟩
  · intro hTree
    apply hTree.put hNot
    rw [List.dropLast_concat, hDirectory]
  · intro hNamed
    apply hNamed.put
    intro other hOther
    rcases List.mem_append.mp hOther with hAbove | hLast
    · exact hNamed directory .directory hDirectory other hAbove
    · rwa [List.mem_singleton.mp hLast]

theorem evolvesTo_put_of_node {old : Node} (hOld : fs.node? location = some old)
    (hNot : old ≠ .directory) (node : Node) : fs.EvolvesTo (fs.put location node) := by
  refine ⟨rfl, ?_, ?_⟩
  · intro hTree
    exact hTree.put (by simpa [hOld] using hNot) (hTree location old hOld) node
  · intro hNamed
    exact hNamed.put (hNamed location old hOld) node

end FileSystem

end ScriptBuild
