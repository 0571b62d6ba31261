import ScriptBuild.Proofs.File.Scratch
import ScriptBuild.Proofs.Path.Parent

/-!
# Making a directory with those on the way to it

A chain of directories is made from the first one that can be made downwards. A new directory is
empty, and the next path of the chain only goes to a name in it, so once a directory has been made
nothing can fail any more: the chain is made to its end, or not at all. A `..` in the path would
lead out of the new directory again, to what may not be a directory.
-/

namespace ScriptBuild.FileSystem

set_option autoImplicit false

variable {fs after made : FileSystem} {p q : Path} {name : String} {current : Location}
  {limit n : Nat} {result : Except FileError Unit} {e : FileError} {parents : List Path}

/-! ## The paths of a chain -/

theorem ancestorsUpTo_cases (n : Nat) (p : Path) :
    Path.ancestorsUpTo n p = [] ∨ ∃ m q, m < n ∧ p.parent? = some q ∧ q.text ≠ "" ∧
      Path.ancestorsUpTo n p = q :: Path.ancestorsUpTo m q := by
  cases n with
  | zero => exact Or.inl rfl
  | succ m =>
    rw [Path.ancestorsUpTo]
    cases hParent : p.parent? with
    | none => exact Or.inl rfl
    | some q =>
      by_cases hText : q.text = ""
      · exact Or.inl (by simp [hText])
      · exact Or.inr ⟨m, q, m.lt_succ_self, rfl, hText, by simp [hText]⟩

theorem not_up_of_parent (hParent : p.parent? = some q) (hUp : Segment.up ∉ p.segments) :
    Segment.up ∉ q.segments := fun hMem => hUp ((Path.prefix_of_parent? hParent).2.subset hMem)

theorem prefix_of_mem_ancestorsUpTo (h : q ∈ Path.ancestorsUpTo n p) :
    q.text.toList <+: p.text.toList ∧ q.segments <+: p.segments := by
  induction n using Nat.strongRecOn generalizing p with
  | ind n ih =>
    rcases ancestorsUpTo_cases n p with hNil | ⟨m, parent, hm, hParent, -, hCons⟩
    · simp [hNil] at h
    · obtain ⟨hText, hSegments⟩ := Path.prefix_of_parent? hParent
      rw [hCons] at h
      rcases List.mem_cons.mp h with rfl | hAbove
      · exact ⟨hText, hSegments⟩
      · obtain ⟨hText', hSegments'⟩ := ih m hm hAbove
        exact ⟨hText'.trans hText, hSegments'.trans hSegments⟩

theorem prefix_of_mem_chain (h : q ∈ p.chain) :
    q.text.toList <+: p.text.toList ∧ q.segments <+: p.segments := by
  rcases List.mem_cons.mp h with rfl | hAbove
  · exact ⟨List.prefix_rfl, List.prefix_rfl⟩
  · exact prefix_of_mem_ancestorsUpTo hAbove

/-! ## One directory -/

theorem makeDirectory_eq (fs : FileSystem) (p : Path) :
    fs.makeDirectory p =
      match fs.walk false p.dropSlashes with
      | .error e => .error e
      | .ok (.inside _, _) => .error .alreadyExists
      | .ok (.entry directory name, _) =>
        match fs.node? (directory ++ [name]) with
        | some _ => .error .alreadyExists
        | none => .ok (fs.put (directory ++ [name]) .directory) := by
  unfold makeDirectory locate
  cases fs.walk false p.dropSlashes with
  | error e => rfl
  | ok reached =>
    obtain ⟨place, left⟩ := reached
    cases place with
    | inside directory => rfl
    | entry directory name =>
      change (match fs.node? (directory ++ [name]) with | _ => _) = _
      cases fs.node? (directory ++ [name]) <;> rfl

/-- The path leads to a directory by its name, with nothing in the directory. -/
def Fresh (fs : FileSystem) (p : Path) : Prop :=
  ∃ directory name left, fs.walk false p = .ok (.entry directory name, left) ∧
    fs.node? (directory ++ [name]) = some .directory ∧
    ∀ below, fs.node? (directory ++ [name] ++ [below]) = none

theorem fresh_of_makeDirectory (hTree : fs.IsTree) (hDrop : p.dropSlashes = p)
    (h : fs.makeDirectory p = .ok made) : made.Fresh p := by
  obtain ⟨directory, name, left, hWalk, hNone, rfl⟩ := makeDirectory_eq_ok h
  rw [hDrop] at hWalk
  refine ⟨directory, name, left, (growsTo_put hNone _).walk hWalk, ?_, ?_⟩
  · exact node?_put_self fs _ (by simp)
  · intro below
    rw [node?_put_of_ne fs _ (by simp)]
    exact hTree.node?_append hNone [below]

theorem Fresh.isDirectory (h : fs.Fresh p) : fs.isDirectory p = true := by
  obtain ⟨directory, name, left, hWalk, hDirectory, -⟩ := h
  refine isDirectory_iff.mpr ⟨.entry directory name, left, ?_, hDirectory⟩
  rcases walk_follow fs p with hSame | ⟨place, left', target, hPlace, hLink⟩
  · rw [hSame, hWalk]
  · obtain ⟨rfl, -⟩ : Place.entry directory name = place ∧ left = left' := by
      simpa [hWalk] using hPlace
    simp [Place.location, hDirectory] at hLink

theorem walk_root (hText : p.text = "/") : fs.walk false p = .ok (.inside [], linkLimit) := by
  simp [walk, start, hText, Path.isAbsolute, Path.steps, Text.pieces, Path.stepOfPiece, pursue,
    advance]

theorem Fresh.text_ne_root (h : fs.Fresh p) : p.text ≠ "/" := by
  intro hText
  obtain ⟨directory, name, left, hWalk, -⟩ := h
  simp [walk_root hText] at hWalk

theorem Vacant.text_ne_root (h : fs.Vacant p) : p.text ≠ "/" := by
  intro hText
  rcases h with hNone | ⟨place, left, hPlace, hNone⟩
  · simp [walk_root hText] at hNone
  · obtain ⟨rfl, -⟩ : Place.inside [] = place ∧ linkLimit = left := by
      simpa [walk_root hText] using hPlace
    simp [Place.location] at hNone

theorem Vacant.isDirectory_eq_false (h : fs.Vacant p) : fs.isDirectory p = false := by
  by_contra hThere
  obtain ⟨place, left, hWalk, hDirectory⟩ := isDirectory_iff.mp (by simpa using hThere)
  rw [walk_of_vacant h] at hWalk
  rcases h with hNone | ⟨place', left', hPlace, hNone⟩
  · simp [hNone] at hWalk
  · obtain ⟨rfl, -⟩ : place' = place ∧ left' = left := by simpa [hPlace] using hWalk
    simp [hNone] at hDirectory

theorem pursue_stays_enter (hDirectory : fs.node? current = some .directory) :
    fs.pursue false limit current (List.replicate n .stay ++ [.enter name]) =
      .ok (.entry current name, limit) := by
  induction n with
  | zero => exact pursue_enter_last hDirectory
  | succ n ih =>
    rw [List.replicate_succ, List.cons_append, ← List.singleton_append,
      pursue_append_of_ok (pursue_stay hDirectory) (Or.inr (by simp [Place.location, hDirectory]))
        (by simp)]
    exact ih

theorem Fresh.makeDirectory_below (h : fs.Fresh q) (hSome : p.text ≠ "") (hDrop : p.dropSlashes = p)
    (hAbsolute : q.isAbsolute = p.isAbsolute)
    (hSteps : p.steps = q.steps ++ (List.replicate n .stay ++ [.enter name])) :
    ∃ made, fs.makeDirectory p = .ok made := by
  obtain ⟨directory, entered, left, hWalk, hDirectory, hBelow⟩ := h
  have hPursue : fs.pursue false linkLimit (fs.start q) q.steps =
      .ok (.entry directory entered, left) := by
    unfold walk at hWalk
    split at hWalk
    · simp at hWalk
    · exact hWalk
  have hStart : fs.start p = fs.start q := by rw [start, start, hAbsolute]
  have hWalk' : fs.walk false p.dropSlashes = .ok (.entry (directory ++ [entered]) name, left) := by
    rw [hDrop, walk, if_neg hSome, hStart, hSteps,
      pursue_append_of_ok hPursue (Or.inr (by simp [Place.location, hDirectory])) (by simp)]
    exact pursue_stays_enter hDirectory
  refine ⟨fs.put (directory ++ [entered] ++ [name]) .directory, ?_⟩
  rw [makeDirectory_eq, hWalk']
  simp only [hBelow name]

theorem makeDirectory_of_isDirectory (hDrop : p.dropSlashes = p) (h : fs.isDirectory p = true) :
    fs.makeDirectory p = .error .alreadyExists := by
  obtain ⟨place, left, hWalk, hDirectory⟩ := isDirectory_iff.mp h
  obtain ⟨place', left', node, hWalk', hNode⟩ : ∃ place' left' node,
      fs.walk false p = .ok (place', left') ∧ fs.node? place'.location = some node := by
    rcases walk_follow fs p with hSame | ⟨place', left', target, hPlace, hLink⟩
    · exact ⟨place, left, .directory, by rw [← hSame, hWalk], hDirectory⟩
    · exact ⟨place', left', _, hPlace, hLink⟩
  rw [makeDirectory_eq, hDrop, hWalk']
  cases place' with
  | inside directory => rfl
  | entry directory name =>
    rw [Place.location] at hNode
    simp only [hNode]

/-! ## The whole chain -/

theorem isTree_of_makeChain (hTree : fs.IsTree) (h : fs.makeChain parents = (result, after)) :
    after.IsTree := by
  have hAfter := (made_of_makeChain fs parents).isTree hTree
  rwa [h] at hAfter

/-- The directory parts fail, or the first directory is tried last: at once, or in what the
directory parts have left. -/
theorem makeChain_cons (h : fs.makeChain (p :: parents) = (result, after)) :
    (∃ e, fs.makeChain parents = (.error e, after) ∧ result = .error e) ∨
    ∃ mid, (mid = fs ∨ fs.makeDirectory p = .error .notFound ∧
        fs.makeChain parents = (.ok (), mid)) ∧ (fs.IsTree → mid.IsTree) ∧
      (mid.makeDirectory p = .ok after ∧ result = .ok () ∨
        ∃ e, mid.makeDirectory p = .error e ∧ after = mid ∧
          result = if mid.isDirectory p then .ok () else .error e) := by
  rw [makeChain] at h
  split at h
  · rename_i made hMade
    obtain ⟨rfl, rfl⟩ := Prod.mk.inj h
    exact Or.inr ⟨fs, Or.inl rfl, id, Or.inl ⟨hMade, rfl⟩⟩
  · rename_i hNotFound
    split at h
    · rename_i e left hParents
      obtain ⟨rfl, rfl⟩ := Prod.mk.inj h
      exact Or.inl ⟨e, hParents, rfl⟩
    · rename_i mid hParents
      refine Or.inr ⟨mid, Or.inr ⟨hNotFound, hParents⟩,
        fun hTree => isTree_of_makeChain hTree hParents, ?_⟩
      split at h
      · rename_i made hMade
        obtain ⟨rfl, rfl⟩ := Prod.mk.inj h
        exact Or.inl ⟨hMade, rfl⟩
      · rename_i e hError
        obtain ⟨rfl, rfl⟩ := Prod.mk.inj h
        exact Or.inr ⟨e, hError, rfl, rfl⟩
  · rename_i e _ hError
    obtain ⟨rfl, rfl⟩ := Prod.mk.inj h
    exact Or.inr ⟨fs, Or.inl rfl, id, Or.inr ⟨e, hError, rfl, rfl⟩⟩

theorem isDirectory_of_makeChain (hTree : fs.IsTree) (hDrop : p.dropSlashes = p)
    (h : fs.makeChain (p :: parents) = (.ok (), after)) : after.isDirectory p = true := by
  rcases makeChain_cons h with ⟨e, -, hOk⟩ | ⟨mid, -, hTree', ⟨hMade, -⟩ | ⟨e, -, rfl, hOk⟩⟩
  · simp at hOk
  · exact (fresh_of_makeDirectory (hTree' hTree) hDrop hMade).isDirectory
  · by_contra hOther
    simp [hOther] at hOk

theorem makeDirectory_below_parent (hParent : p.parent? = some q) (hq : q.text ≠ "")
    (hTrimmed : Path.Trimmed p.text.toList) (hSome : p.text ≠ "")
    (hUp : Segment.up ∉ p.segments) (h : fs.Fresh q) : ∃ made, fs.makeDirectory p = .ok made := by
  obtain hRoot | ⟨hAbsolute, k, name, hSteps⟩ := Path.steps_of_parent? hParent hq hTrimmed hUp
  · exact absurd hRoot h.text_ne_root
  · exact h.makeDirectory_below hSome (Path.dropSlashes_of_trimmed hTrimmed) hAbsolute hSteps

/-- A chain is made to its end, and ends with a new directory, or nothing is made. -/
theorem fresh_of_makeChain (hTree : fs.IsTree) (hTrimmed : Path.Trimmed p.text.toList)
    (hSome : p.text ≠ "") (hUp : Segment.up ∉ p.segments)
    (h : fs.makeChain (p :: Path.ancestorsUpTo n p) = (result, after)) :
    after = fs ∨ result = .ok () ∧ after.Fresh p := by
  induction n using Nat.strongRecOn generalizing p result after with
  | ind n ih =>
    have hDrop : p.dropSlashes = p := Path.dropSlashes_of_trimmed hTrimmed
    -- where something is made for the directory parts, the path can be made next
    have hParents : ∀ {result' mid}, fs.makeChain (Path.ancestorsUpTo n p) = (result', mid) →
        mid = fs ∨ result' = .ok () ∧ ∃ made, mid.makeDirectory p = .ok made := by
      intro result' mid hChain
      rcases ancestorsUpTo_cases n p with hNil | ⟨m, q, hm, hParent, hq, hCons⟩
      · rw [hNil, makeChain, Prod.mk.injEq] at hChain
        exact Or.inl hChain.2.symm
      · rw [hCons] at hChain
        rcases ih m hm (Path.trimmed_of_parent? hParent hq) hq (not_up_of_parent hParent hUp)
          hChain with hSame | ⟨hOk, hFresh⟩
        · exact Or.inl hSame
        · exact Or.inr ⟨hOk, makeDirectory_below_parent hParent hq hTrimmed hSome hUp hFresh⟩
    rcases makeChain_cons h with ⟨e, hChain, rfl⟩ | ⟨mid, hMid, hTree', hLast⟩
    · rcases hParents hChain with hSame | ⟨hOk, -⟩
      · exact Or.inl hSame
      · simp at hOk
    · rcases hLast with ⟨hMade, rfl⟩ | ⟨e, hError, rfl, -⟩
      · exact Or.inr ⟨rfl, fresh_of_makeDirectory (hTree' hTree) hDrop hMade⟩
      · rcases hMid with hSame | ⟨-, hChain⟩
        · exact Or.inl hSame
        · rcases hParents hChain with hSame | ⟨-, made, hMade⟩
          · exact Or.inl hSame
          · simp [hError] at hMade

/-- Where one directory of a chain can be made, the chain is made from there to its end. -/
theorem makeChain_of_makeDirectory (hTree : fs.IsTree) (hTrimmed : Path.Trimmed p.text.toList)
    (hSome : p.text ≠ "") (hUp : Segment.up ∉ p.segments) (hq : q ∈ p :: Path.ancestorsUpTo n p)
    (hMade : fs.makeDirectory q = .ok made)
    (h : fs.makeChain (p :: Path.ancestorsUpTo n p) = (result, after)) :
    fs.Vacant p ∧ result = .ok () := by
  induction n using Nat.strongRecOn generalizing p result after with
  | ind n ih =>
    have hDrop : p.dropSlashes = p := Path.dropSlashes_of_trimmed hTrimmed
    rcases List.mem_cons.mp hq with rfl | hAbove
    · obtain ⟨directory, name, left, hWalk, hNone, -⟩ := makeDirectory_eq_ok hMade
      rw [makeChain, hMade, Prod.mk.injEq] at h
      exact ⟨Or.inr ⟨.entry directory name, left, hDrop ▸ hWalk, hNone⟩, h.1.symm⟩
    · rcases ancestorsUpTo_cases n p with hNil | ⟨m, parent, hm, hParent, hText, hCons⟩
      · simp [hNil] at hAbove
      · have hTrimmed' := Path.trimmed_of_parent? hParent hText
        have hUp' := not_up_of_parent hParent hUp
        rcases hChain : fs.makeChain (Path.ancestorsUpTo n p) with ⟨result', mid⟩
        rw [hCons] at hAbove hChain
        obtain ⟨hVacant, rfl⟩ := ih m hm hTrimmed' hText hUp' hAbove hChain
        -- the directory part leads to nothing, so it is not the root and has been made
        obtain hRoot | ⟨hAbsolute, k, name, hSteps⟩ :=
          Path.steps_of_parent? hParent hText hTrimmed hUp
        · exact absurd hRoot hVacant.text_ne_root
        · have hNotFound : fs.walk false p = .error .notFound :=
            walk_append_of_vacant hVacant hText hSome hAbsolute.symm hSteps (by simp)
          have hFresh : mid.Fresh parent := by
            rcases fresh_of_makeChain hTree hTrimmed' hText hUp' hChain with rfl | ⟨-, hFresh⟩
            · have hThere := isDirectory_of_makeChain hTree
                (Path.dropSlashes_of_trimmed hTrimmed') hChain
              simp [hVacant.isDirectory_eq_false] at hThere
            · exact hFresh
          obtain ⟨made', hLast⟩ :=
            makeDirectory_below_parent hParent hText hTrimmed hSome hUp hFresh
          refine ⟨Or.inl hNotFound, ?_⟩
          rw [makeChain, makeDirectory_eq, hDrop, hNotFound, hCons] at h
          simp only [hChain, hLast, Prod.mk.injEq] at h
          exact h.1.symm

/-- What a chain changes begins with a directory that could be made in the first place. -/
theorem exists_makeDirectory_of_makeChain (h : fs.makeChain parents = (.ok (), after)) :
    after = fs ∨ ∃ q ∈ parents, ∃ made, fs.makeDirectory q = .ok made := by
  induction parents generalizing after with
  | nil =>
    rw [makeChain, Prod.mk.injEq] at h
    exact Or.inl h.2.symm
  | cons p parents ih =>
    rcases makeChain_cons h with ⟨e, -, hOk⟩ | ⟨mid, hMid, -, hLast⟩
    · simp at hOk
    · have hParents : mid = fs ∨ ∃ q ∈ parents, ∃ made, fs.makeDirectory q = .ok made := by
        rcases hMid with hSame | ⟨-, hChain⟩
        · exact Or.inl hSame
        · exact ih hChain
      rcases hParents with rfl | ⟨q, hq, hMade⟩
      · rcases hLast with ⟨hMade, -⟩ | ⟨e, -, hSame, -⟩
        · exact Or.inr ⟨p, List.mem_cons_self, after, hMade⟩
        · exact Or.inl hSame
      · exact Or.inr ⟨q, List.mem_cons_of_mem p hq, hMade⟩

theorem makeChain_of_isDirectory (hDrop : p.dropSlashes = p) (h : fs.isDirectory p = true) :
    fs.makeChain (p :: parents) = (.ok (), fs) := by
  rw [makeChain, makeDirectory_of_isDirectory hDrop h]
  simp only [h]
  rfl

end ScriptBuild.FileSystem
