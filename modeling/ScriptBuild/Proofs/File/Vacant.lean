import ScriptBuild.Proofs.File.Success
import ScriptBuild.Proofs.File.Walk
import ScriptBuild.Proofs.Path.Parts

/-!
# Paths that lead to no entry

A path is vacant if nothing stands where it leads to, not even a link. Such a path cannot be read. A
path becomes vacant when the file or the link that it leads to is erased: a walk then goes as before
or ends where the entry was. Removing a file therefore leaves its path vacant, and so does finding
that there is none.
-/

namespace ScriptBuild.FileSystem

set_option autoImplicit false

variable {fs : FileSystem} {limit left : Nat} {current erased : Location} {step : Step}
  {steps more : List Step} {place : Place} {p : Path} {contents : Bytes}

/-- Following a link at the end makes a difference only where there is one. -/
theorem advance_follow (fs : FileSystem) (current : Location) (steps : List Step) :
    fs.advance true current steps = fs.advance false current steps ∨
      ∃ place target, fs.advance false current steps = .ok (.arrived place) ∧
        fs.node? place.location = some (.link target) := by
  induction steps generalizing current with
  | nil => exact Or.inl (by simp)
  | cons step rest ih =>
    by_cases hRest : rest = []
    · subst hRest
      rw [advance.eq_def fs true, advance.eq_def fs false]
      cases fs.node? current with
      | none => exact Or.inl rfl
      | some node =>
        cases node with
        | file contents executable => exact Or.inl rfl
        | link target => exact Or.inl rfl
        | directory =>
          cases step with
          | stay => exact Or.inl (by simp)
          | up => exact Or.inl (by simp)
          | enter name =>
            cases hEntry : fs.node? (current ++ [name]) with
            | none => exact Or.inl (by simp [hEntry])
            | some node =>
              cases node with
              | file contents executable => exact Or.inl (by simp [hEntry])
              | directory => exact Or.inl (by simp [hEntry])
              | link target =>
                exact Or.inr ⟨.entry current name, target, by simp [hEntry], hEntry⟩
    · rw [advance_cons hRest, advance_cons hRest]
      cases fs.move current step with
      | error e => exact Or.inl rfl
      | ok next =>
        rcases next with next | target
        · exact ih next
        · exact Or.inl rfl

theorem pursue_follow (fs : FileSystem) (limit : Nat) (current : Location) (steps : List Step) :
    fs.pursue true limit current steps = fs.pursue false limit current steps ∨
      ∃ place left target, fs.pursue false limit current steps = .ok (place, left) ∧
        fs.node? place.location = some (.link target) := by
  induction limit using Nat.strongRecOn generalizing current steps with
  | ind limit ih =>
    rw [pursue.eq_def fs true, pursue.eq_def fs false]
    rcases advance_follow fs current steps with hSame | ⟨place, target, hArrived, hLink⟩
    · rw [hSame]
      cases fs.advance false current steps with
      | error e => exact Or.inl rfl
      | ok halt =>
        cases halt with
        | arrived place => exact Or.inl rfl
        | atLink directory target rest =>
          cases limit with
          | zero => exact Or.inl rfl
          | succ limit => exact ih limit (Nat.lt_succ_self limit) _ _
    · exact Or.inr ⟨place, limit, target, by rw [hArrived], hLink⟩

theorem node?_erase (fs : FileSystem) (hErased : erased ≠ []) (place : Location) :
    (fs.erase erased).node? place = if place = erased then none else fs.node? place := by
  by_cases hRoot : place = []
  · simp [hRoot, Ne.symm hErased]
  · rw [erase, node?_removeWhere _ _ hRoot]
    simp

theorem ne_nil_of_not_directory (h : fs.node? erased ≠ some .directory) : erased ≠ [] := by
  rintro rfl
  simp at h

theorem move_erase (current : Location) (step : Step)
    (h : fs.node? erased ≠ some .directory) :
    (fs.erase erased).move current step = fs.move current step ∨
      (fs.erase erased).move current step = .error .notFound := by
  have hErase := node?_erase fs (ne_nil_of_not_directory h)
  unfold move
  by_cases hCurrent : current = erased
  · exact Or.inr (by simp [hErase, hCurrent])
  · simp only [hErase, if_neg hCurrent]
    cases step with
    | stay => exact Or.inl rfl
    | up => exact Or.inl rfl
    | enter name =>
      by_cases hEntry : current ++ [name] = erased
      · cases fs.node? current with
        | none => exact Or.inl rfl
        | some node => cases node <;> simp [hEntry]
      · simp only [if_neg hEntry]
        exact Or.inl trivial

theorem advance_last_erase (h : fs.node? erased ≠ some .directory) :
    (fs.erase erased).advance false current [step] = fs.advance false current [step] ∨
      (fs.erase erased).advance false current [step] = .error .notFound := by
  have hErase := node?_erase fs (ne_nil_of_not_directory h)
  by_cases hCurrent : current = erased
  · refine Or.inr (advance_of_none ?_ (List.cons_ne_nil _ _))
    rw [hErase, if_pos hCurrent]
  · refine Or.inl ?_
    rw [advance.eq_def (fs.erase erased), advance.eq_def fs, hErase, if_neg hCurrent]
    cases hNode : fs.node? current with
    | none => rfl
    | some node =>
      cases node with
      | file contents executable => rfl
      | link target => rfl
      | directory =>
        cases step with
        | stay => simp
        | up => simp
        | enter name =>
          by_cases hEntry : current ++ [name] = erased
          · cases hOld : fs.node? erased with
            | none => simp [hErase, hEntry, hOld]
            | some node => cases node <;> simp [hErase, hEntry, hOld]
          · simp [hErase, hEntry]

/-- Nothing is below an entry that is no directory, so its removal can only cut walks short. -/
theorem advance_erase (current : Location) (steps : List Step)
    (h : fs.node? erased ≠ some .directory) :
    (fs.erase erased).advance false current steps = fs.advance false current steps ∨
      (fs.erase erased).advance false current steps = .error .notFound := by
  induction steps generalizing current with
  | nil => exact Or.inl (by simp)
  | cons step rest ih =>
    by_cases hRest : rest = []
    · subst hRest
      exact advance_last_erase h
    · rw [advance_cons hRest, advance_cons hRest]
      rcases move_erase current step h with hSame | hNone
      · rw [hSame]
        cases fs.move current step with
        | error e => exact Or.inl rfl
        | ok next =>
          rcases next with next | target
          · exact ih next
          · exact Or.inl rfl
      · rw [hNone]
        exact Or.inr rfl

theorem pursue_erase (limit : Nat) (current : Location) (steps : List Step)
    (h : fs.node? erased ≠ some .directory) :
    (fs.erase erased).pursue false limit current steps = fs.pursue false limit current steps ∨
      (fs.erase erased).pursue false limit current steps = .error .notFound := by
  induction limit using Nat.strongRecOn generalizing current steps with
  | ind limit ih =>
    rw [pursue.eq_def (fs.erase erased), pursue.eq_def fs]
    rcases advance_erase current steps h with hSame | hNone
    · rw [hSame]
      cases fs.advance false current steps with
      | error e => exact Or.inl rfl
      | ok halt =>
        cases halt with
        | arrived place => exact Or.inl rfl
        | atLink directory target rest =>
          cases limit with
          | zero => exact Or.inl rfl
          | succ limit => exact ih limit (Nat.lt_succ_self limit) _ _
    · rw [hNone]
      exact Or.inr rfl

theorem walk_follow (fs : FileSystem) (p : Path) :
    fs.walk true p = fs.walk false p ∨ ∃ place left target,
      fs.walk false p = .ok (place, left) ∧ fs.node? place.location = some (.link target) := by
  unfold walk
  split
  · exact Or.inl rfl
  · exact pursue_follow _ _ _ _

/-- A walk that does not follow a link at its end comes to no entry. -/
def Vacant (fs : FileSystem) (p : Path) : Prop :=
  fs.walk false p = .error .notFound ∨
    ∃ place left, fs.walk false p = .ok (place, left) ∧ fs.node? place.location = none

theorem walk_of_vacant (h : fs.Vacant p) : fs.walk true p = fs.walk false p := by
  rcases walk_follow fs p with hSame | ⟨place, left, target, hWalk, hLink⟩
  · exact hSame
  · rcases h with hError | ⟨place', left', hWalk', hNone⟩
    · simp [hWalk] at hError
    · obtain ⟨rfl, -⟩ : place = place' ∧ left = left' := by simpa [hWalk] using hWalk'
      simp [hNone] at hLink

theorem read_of_vacant (h : fs.Vacant p) : fs.read p = .error .notFound := by
  have hLookUp : fs.lookUp p = .error .notFound := by
    unfold lookUp locate
    rw [walk_of_vacant h]
    rcases h with hError | ⟨place, left, hPlace, hNone⟩
    · rw [hError]
      rfl
    · rw [hPlace]
      simp [Except.map, bind, Except.bind, hNone, throw, throwThe, MonadExceptOf.throw]
  rw [read, hLookUp]
  rfl

theorem removeFile_eq (fs : FileSystem) (p : Path) :
    fs.removeFile p =
      match fs.walk false p.dropSlashes with
      | .error e => .error e
      | .ok (.inside _, _) => .error .isADirectory
      | .ok (.entry directory name, _) =>
        match fs.node? (directory ++ [name]) with
        | none => .error .notFound
        | some .directory => .error .isADirectory
        | some _ =>
          if p.endsWithSlash then .error .notADirectory
          else .ok (fs.erase (directory ++ [name])) := by
  unfold removeFile locate
  cases fs.walk false p.dropSlashes with
  | error e => rfl
  | ok reached =>
    obtain ⟨place, left⟩ := reached
    cases place with
    | inside directory => rfl
    | entry directory name =>
      change (match fs.node? (directory ++ [name]) with | _ => _) = _
      cases fs.node? (directory ++ [name]) with
      | none => rfl
      | some node => cases node <;> rfl

theorem walk_erase (p : Path) (h : fs.node? erased ≠ some .directory) :
    (fs.erase erased).walk false p = fs.walk false p ∨
      (fs.erase erased).walk false p = .error .notFound := by
  unfold walk
  split
  · exact Or.inl rfl
  · exact pursue_erase _ _ _ h

theorem vacant_of_removeFile {after : FileSystem} (h : fs.removeFile p = .ok after) :
    after.Vacant p := by
  obtain ⟨-, directory, name, left, hWalk, -, hNode, rfl⟩ := removeFile_eq_ok h
  rcases walk_erase p hNode with hSame | hNone
  · refine Or.inr ⟨.entry directory name, left, by rw [hSame, hWalk], ?_⟩
    rw [node?_erase fs (ne_nil_of_not_directory hNode)]
    exact if_pos rfl
  · exact Or.inl hNone

theorem walk_append_of_vacant {q : Path} (h : fs.Vacant q) (hSome : q.text ≠ "")
    (hText : p.text ≠ "") (hAbsolute : p.isAbsolute = q.isAbsolute)
    (hSteps : p.steps = q.steps ++ more) (hMore : more ≠ []) :
    fs.walk false p = .error .notFound := by
  have hWalk : fs.walk false q = fs.pursue false linkLimit (fs.start p) q.steps := by
    unfold walk start
    rw [hAbsolute, if_neg hSome]
  rw [walk, if_neg hText, hSteps]
  rcases h with hNone | ⟨place, left, hPlace, hNone⟩
  · rw [hWalk] at hNone
    exact pursue_append_of_error hNone
  · rw [hWalk] at hPlace
    rw [pursue_append_of_ok hPlace (Or.inr (by simp [hNone])) hMore, pursue,
      advance_of_none hNone hMore]

theorem vacant_of_dropSlashes (h : fs.Vacant p.dropSlashes) : fs.Vacant p := by
  cases hSlash : p.endsWithSlash with
  | false =>
    have hSame : p.dropSlashes = p := by simp [Path.dropSlashes, hSlash]
    exact hSame ▸ h
  | true =>
    obtain ⟨hSome, hAbsolute, more, hMore, hSteps⟩ := Path.steps_dropSlashes hSlash
    have hText : p.text ≠ "" := by
      rintro hEmpty
      simp [Path.endsWithSlash, hEmpty] at hSlash
    exact Or.inl (walk_append_of_vacant h (by simpa using hSome) hText hAbsolute hSteps hMore)

theorem vacant_of_removeFile_notFound (h : fs.removeFile p = .error .notFound) :
    fs.Vacant p.dropSlashes := by
  rw [removeFile_eq] at h
  cases hWalk : fs.walk false p.dropSlashes with
  | error e =>
    obtain rfl : e = .notFound := by simpa [hWalk] using h
    exact Or.inl hWalk
  | ok reached =>
    obtain ⟨place, left⟩ := reached
    cases place with
    | inside directory => simp [hWalk] at h
    | entry directory name =>
      simp only [hWalk] at h
      split at h
      · rename_i hNone
        exact Or.inr ⟨_, _, hWalk, hNone⟩
      · simp at h
      · split at h <;> simp at h

end ScriptBuild.FileSystem
