import ScriptBuild.Proofs.File.Making
import ScriptBuild.Proofs.File.Named
import ScriptBuild.Proofs.File.Vacant

/-!
# Directories for passing use

A directory for passing use is made where there was nothing. Whatever happens in it, with it all of
that is gone again.
-/

namespace ScriptBuild.FileSystem

set_option autoImplicit false

variable {fs made : FileSystem} {left : Nat} {name entered : String}
  {directory place location : Location} {p path : Path}

theorem walk_join_of_directory (hName : Path.IsName name)
    (hLast : p.text.toList.getLast? ≠ some '/')
    (h : fs.walk false p = .ok (.entry directory entered, left))
    (hDirectory : fs.node? (directory ++ [entered]) = some .directory) :
    fs.walk false (p.join ⟨name⟩) = .ok (.entry (directory ++ [entered]) name, left) := by
  have hSome : p.text.toList ≠ [] := text_of_walk h
  have hText := Path.text_join_of_getLast hLast hSome hName
  have hPieces : (Text.pieces '/' name.toList).map Path.stepOfPiece = [.enter name] := by
    rw [Text.pieces_of_not_mem hName.no_slash, List.map_singleton, hName.stepOfPiece_eq]
  have hStart : fs.start (p.join ⟨name⟩) = fs.start p := by
    rw [start, start, Path.isAbsolute_join hSome hName]
  have hWalk : fs.pursue false linkLimit (fs.start p) p.steps =
      .ok (.entry directory entered, left) := by
    rwa [walk, if_neg (by simpa using hSome)] at h
  rw [walk, if_neg (by simpa using Path.text_join_ne_nil hSome hName), hStart,
    Path.steps_of_append hText hSome, hPieces,
    pursue_append_of_ok hWalk (Or.inr (by simp [Place.location, hDirectory]))
      (List.cons_ne_nil _ _), Place.location, pursue_enter_last hDirectory]

theorem isName_freshName (names : List String) : Path.IsName (freshName names) := by
  refine ⟨?_, ?_, ?_, ?_⟩ <;> simp [freshName, List.mem_replicate]

structure Scratch (fs : FileSystem) (path : Path) (place : Location) (made : FileSystem) : Prop where
  vacant : fs.node? place = none
  made_eq : made = fs.put place .directory
  ended : path.text.toList.getLast? ≠ some '/'
  reached : ∃ directory name left, place = directory ++ [name] ∧
    made.walk false path = .ok (.entry directory name, left)

theorem scratch_of_makeScratch (h : fs.makeScratch = .ok (path, place, made)) :
    fs.Scratch path place made := by
  obtain ⟨names, place', left', -, rfl, hMade, hFollowed, rfl⟩ := makeScratch_eq_ok h
  have hName := isName_freshName names
  have hRoot : scratchRoot.text.toList ≠ [] := by decide
  have hEnded := Path.getLast?_join hRoot hName
  obtain ⟨directory, name, left, hWalk, hNone, rfl⟩ := makeDirectory_eq_ok hMade
  rw [Path.dropSlashes_of_getLast hEnded] at hWalk
  have hNew : (fs.put (directory ++ [name]) .directory).node? (directory ++ [name]) =
      some .directory := node?_put_self fs _ (by simp)
  have hReached := (growsTo_put hNone .directory).walk hWalk
  obtain rfl : place' = .entry directory name := by
    rcases walk_follow (fs.put (directory ++ [name]) .directory)
      (scratchRoot.join ⟨freshName names⟩) with hSame | ⟨place, left'', target, hPlace, hLink⟩
    · rw [hSame, hReached] at hFollowed
      exact (Prod.mk.inj (Except.ok.inj hFollowed)).1.symm
    · obtain ⟨rfl, -⟩ : Place.entry directory name = place ∧ left = left'' := by
        simpa [hReached] using hPlace
      simp [Place.location, hNew] at hLink
  exact ⟨hNone, rfl, hEnded, directory, name, left, rfl, hReached⟩

theorem Scratch.ne_nil (h : fs.Scratch path place made) : place ≠ [] := by
  obtain ⟨directory, name, left, rfl, -⟩ := h.reached
  simp

theorem Scratch.grows (h : fs.Scratch path place made) : fs.GrowsTo made :=
  h.made_eq ▸ growsTo_put h.vacant _

theorem Scratch.names (h : fs.Scratch path place made) (hName : Path.IsName name) :
    made.Names (path.join ⟨name⟩) (place ++ [name]) := by
  obtain ⟨directory, entered, left, rfl, hReached⟩ := h.reached
  have hDirectory : made.node? (directory ++ [entered]) = some .directory := by
    rw [h.made_eq]
    exact node?_put_self fs _ (by simp)
  have hSome : path.text.toList ≠ [] := text_of_walk hReached
  refine ⟨.entry (directory ++ [entered]) name, left, ?_, rfl⟩
  rw [Path.dropSlashes_of_getLast (Path.getLast?_join hSome hName)]
  exact walk_join_of_directory hName h.ended hReached hDirectory

theorem Scratch.node?_below (h : fs.Scratch path place made) (hTree : fs.IsTree) :
    made.node? (place ++ [name]) = none := by
  rw [h.made_eq, node?_put_of_ne fs _ (by simp)]
  exact hTree.node?_append h.vacant [name]

theorem node?_eraseBelow (fs : FileSystem) (hPlace : place ≠ []) (location : Location) :
    (fs.eraseBelow place).node? location =
      if place.isPrefixOf location then none else fs.node? location := by
  by_cases hRoot : location = []
  · obtain ⟨name, below, rfl⟩ := List.exists_cons_of_ne_nil hPlace
    simp [hRoot]
  · exact node?_removeWhere fs _ hRoot

/-- What has changed below the new directory only is undone with it. -/
theorem Scratch.sameEntries (h : fs.Scratch path place made) (hTree : fs.IsTree)
    {after : FileSystem} (hBelow : ∀ location, after.node? location = made.node? location ∨
      ∃ name, location = place ++ [name]) : (after.eraseBelow place).SameEntries fs := by
  intro location
  rw [node?_eraseBelow after h.ne_nil]
  split
  · rename_i hPrefix
    obtain ⟨below, rfl⟩ := List.isPrefixOf_iff_prefix.mp hPrefix
    exact (hTree.node?_append h.vacant below).symm
  · rename_i hPrefix
    rcases hBelow location with hSame | ⟨name, rfl⟩
    · rw [hSame, h.made_eq, node?_put_of_ne fs]
      rintro rfl
      simp at hPrefix
    · simp [List.isPrefixOf_iff_prefix] at hPrefix

end ScriptBuild.FileSystem
