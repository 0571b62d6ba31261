import ScriptBuild.Proofs.File.Success
import ScriptBuild.Proofs.File.Tree

/-!
# Making directories

What the making of directories adds to a tree. A new directory stands where one of the paths leads
to, in another directory and where there was nothing before; all else is as it was, also if a
directory on the way cannot be made.
-/

namespace ScriptBuild.FileSystem

set_option autoImplicit false

variable {fs mid after : FileSystem} {follow : Bool} {limit left : Nat} {name : String}
  {current directory location location' : Location} {steps : List Step} {p : Path} {ps qs : List Path}

/-! ## Where a path leads to -/

/-- Where a path leads to, a link at its end not followed and slashes at its end left aside. -/
def Names (fs : FileSystem) (p : Path) (location : Location) : Prop :=
  ∃ place left, fs.walk false p.dropSlashes = .ok (place, left) ∧ place.location = location

theorem Names.unique (h : fs.Names p location) (h' : fs.Names p location') :
    location = location' := by
  obtain ⟨place, left, hWalk, rfl⟩ := h
  obtain ⟨place', left', hWalk', rfl⟩ := h'
  obtain ⟨rfl, -⟩ : place = place' ∧ left = left' := by simpa [hWalk] using hWalk'
  rfl

theorem GrowsTo.names (h : fs.GrowsTo after) (hNames : fs.Names p location) :
    after.Names p location := by
  obtain ⟨place, left, hWalk, hPlace⟩ := hNames
  exact ⟨place, left, h.walk hWalk, hPlace⟩

/-! ## What is new -/

/-- What is new are directories, each where one of some paths leads to. -/
structure Made (fs : FileSystem) (ps : List Path) (after : FileSystem) : Prop
    extends fs.EvolvesTo after where
  new : ∀ location, after.node? location = fs.node? location ∨
    fs.node? location = none ∧ after.node? location = some .directory ∧
      ∃ p ∈ ps, after.Names p location

theorem Made.grows (h : fs.Made ps after) : fs.GrowsTo after := by
  refine ⟨h.workingDirectory, ?_⟩
  intro location node hNode
  rcases h.new location with hSame | ⟨hNone, -⟩
  · rw [hSame, hNode]
  · simp [hNone] at hNode

theorem Made.refl (fs : FileSystem) (ps : List Path) : fs.Made ps fs :=
  ⟨.refl fs, fun _ => Or.inl rfl⟩

theorem Made.mono (h : fs.Made ps after) (hSub : ps ⊆ qs) : fs.Made qs after := by
  refine ⟨h.toEvolvesTo, ?_⟩
  intro location
  rcases h.new location with hSame | ⟨hNone, hNew, p, hp, hNames⟩
  · exact Or.inl hSame
  · exact Or.inr ⟨hNone, hNew, p, hSub hp, hNames⟩

theorem Made.trans (h : fs.Made ps mid) (h' : mid.Made ps after) : fs.Made ps after := by
  refine ⟨h.toEvolvesTo.trans h'.toEvolvesTo, ?_⟩
  intro location
  rcases h'.new location with hSame' | ⟨hNone', hNew', hNamed'⟩
  · rw [hSame']
    rcases h.new location with hSame | ⟨hNone, hNew, p, hp, hNames⟩
    · exact Or.inl hSame
    · exact Or.inr ⟨hNone, hNew, p, hp, h'.grows.names hNames⟩
  · rcases h.new location with hSame | ⟨hNone, hNew, -⟩
    · exact Or.inr ⟨by rw [← hSame, hNone'], hNew', hNamed'⟩
    · simp [hNone'] at hNew

theorem made_of_makeDirectory (h : fs.makeDirectory p = .ok after) : fs.Made [p] after := by
  obtain ⟨directory, name, left, hWalk, hNone, rfl⟩ := makeDirectory_eq_ok h
  have hGrows : fs.GrowsTo (fs.put (directory ++ [name]) .directory) := growsTo_put hNone _
  refine ⟨evolvesTo_put_of_walk hWalk (by simp [hNone]) _, ?_⟩
  intro location
  by_cases hSame : location = directory ++ [name]
  · subst hSame
    refine Or.inr ⟨hNone, node?_put_self fs _ (by simp), p, by simp, ?_⟩
    exact hGrows.names ⟨_, _, hWalk, rfl⟩
  · exact Or.inl (node?_put_of_ne fs _ hSame)

theorem made_of_makeChain (fs : FileSystem) (ps : List Path) : fs.Made ps (fs.makeChain ps).2 := by
  induction ps with
  | nil => exact Made.refl fs []
  | cons p parents ih =>
    have hFirst : ∀ {start made : FileSystem}, start.makeDirectory p = .ok made →
        start.Made (p :: parents) made := fun hMade =>
      (made_of_makeDirectory hMade).mono (List.cons_subset_cons p (List.nil_subset parents))
    have hAbove : fs.Made (p :: parents) (fs.makeChain parents).2 :=
      ih.mono (List.subset_cons_self p parents)
    rw [makeChain]
    split
    · rename_i made hMade
      exact hFirst hMade
    · rcases hParents : fs.makeChain parents with ⟨result, mid⟩
      rw [hParents] at hAbove
      cases result with
      | error e => exact hAbove
      | ok done =>
        simp only
        split
        · rename_i made hMade
          exact hAbove.trans (hFirst hMade)
        · exact hAbove
    · exact Made.refl fs _

theorem made_of_makeDirectories (fs : FileSystem) (p : Path) :
    fs.Made p.chain (fs.makeDirectories p).2 := by
  unfold makeDirectories
  split
  · exact Made.refl fs _
  · exact made_of_makeChain fs p.chain

end ScriptBuild.FileSystem
