import ScriptBuild.File.Access

/-!
# Walks in parts

A walk along some steps and then some more is a walk along the first, followed by a walk along the
others from where it has come to, with the links that are left. So the entries of a directory are
reached by one more step than the directory itself. Two file systems with the same entries allow
the same walks.
-/

namespace ScriptBuild.FileSystem

set_option autoImplicit false

variable {fs fs' : FileSystem} {follow : Bool} {limit left : Nat} {current : Location}
  {step : Step} {steps more rest : List Step} {place : Place} {e : FileError} {target : Path}
  {name : String} {node : Node}

/-- Where a step leads that is not the last: to a location, or before a link. -/
inductive Move
  | to (next : Location)
  | link (target : Path)
  deriving DecidableEq, Repr

def move (fs : FileSystem) (current : Location) (step : Step) : Except FileError Move :=
  match fs.node? current with
  | none => .error .notFound
  | some .directory =>
    match step with
    | .stay => .ok (.to current)
    | .up => .ok (.to current.dropLast)
    | .enter name =>
      match fs.node? (current ++ [name]) with
      | none => .error .notFound
      | some (.link target) => .ok (.link target)
      | some _ => .ok (.to (current ++ [name]))
  | some _ => .error .notADirectory

@[simp] theorem advance_nil :
    fs.advance follow current [] = .ok (.arrived (.inside current)) := by simp [advance]

theorem advance_cons (hRest : rest ≠ []) :
    fs.advance follow current (step :: rest) =
      match fs.move current step with
      | .error e => .error e
      | .ok (.to next) => fs.advance follow next rest
      | .ok (.link target) => .ok (.atLink current target rest) := by
  have hSome : rest.isEmpty = false := by simpa using hRest
  rw [advance.eq_def]
  unfold move
  cases fs.node? current with
  | none => rfl
  | some node =>
    cases node with
    | file contents executable => rfl
    | link target => rfl
    | directory =>
      cases step with
      | stay => rfl
      | up => rfl
      | enter name =>
        simp only [hSome]
        cases fs.node? (current ++ [name]) with
        | none => rfl
        | some node =>
          cases node with
          | file contents executable => rfl
          | directory => rfl
          | link target => simp

theorem advance_last (fs : FileSystem) (follow : Bool) (current : Location) (step : Step) :
    (∃ e, fs.advance follow current [step] = .error e ∧ fs.move current step = .error e) ∨
    (∃ place, fs.advance follow current [step] = .ok (.arrived place) ∧
      (fs.move current step = .ok (.to place.location) ∨
        fs.move current step = .error .notFound ∧ fs.node? place.location = none ∨
        ∃ target, follow = false ∧ fs.node? place.location = some (.link target))) ∨
    ∃ target, follow = true ∧ fs.advance follow current [step] = .ok (.atLink current target []) ∧
      fs.move current step = .ok (.link target) := by
  rw [advance.eq_def]
  unfold move
  cases hNode : fs.node? current with
  | none => exact Or.inl ⟨_, rfl, rfl⟩
  | some node =>
    cases node with
    | file contents executable => exact Or.inl ⟨_, rfl, rfl⟩
    | link target => exact Or.inl ⟨_, rfl, rfl⟩
    | directory =>
      cases step with
      | stay => exact Or.inr (Or.inl ⟨.inside current, by simp, Or.inl rfl⟩)
      | up => exact Or.inr (Or.inl ⟨.inside current.dropLast, by simp, Or.inl rfl⟩)
      | enter name =>
        cases hEntry : fs.node? (current ++ [name]) with
        | none =>
          refine Or.inr (Or.inl ⟨.entry current name, ?_, Or.inr (Or.inl ⟨?_, hEntry⟩)⟩)
          all_goals simp [hEntry]
        | some node =>
          cases node with
          | file contents executable =>
            refine Or.inr (Or.inl ⟨.entry current name, ?_, Or.inl ?_⟩)
            all_goals simp [hEntry, Place.location]
          | directory =>
            refine Or.inr (Or.inl ⟨.entry current name, ?_, Or.inl ?_⟩)
            all_goals simp [hEntry, Place.location]
          | link target =>
            cases follow with
            | true =>
              refine Or.inr (Or.inr ⟨target, rfl, ?_, ?_⟩)
              all_goals simp [hEntry]
            | false =>
              refine Or.inr (Or.inl ⟨.entry current name, ?_, Or.inr (Or.inr ⟨target, rfl, hEntry⟩)⟩)
              simp [hEntry]

theorem advance_of_none (hNone : fs.node? current = none) (hMore : more ≠ []) :
    fs.advance follow current more = .error .notFound := by
  cases more with
  | nil => exact absurd rfl hMore
  | cons step rest => rw [advance.eq_def, hNone]

theorem advance_append_of_error (h : fs.advance follow current steps = .error e) :
    fs.advance follow current (steps ++ more) = .error e := by
  induction steps generalizing current with
  | nil => simp at h
  | cons step rest ih =>
    by_cases hMore : rest ++ more = []
    · obtain ⟨rfl, rfl⟩ := List.append_eq_nil_iff.mp hMore
      exact h
    · rw [List.cons_append, advance_cons hMore]
      cases rest with
      | nil =>
        rcases advance_last fs follow current step with
          ⟨e', hAdvance, hMove⟩ | ⟨place, hAdvance, -⟩ | ⟨target, -, hAdvance, -⟩
        · rw [hAdvance] at h
          rw [hMove]
          exact h
        · simp [hAdvance] at h
        · simp [hAdvance] at h
      | cons next rest =>
        rw [advance_cons (List.cons_ne_nil _ _)] at h
        split at h
        · exact h
        · exact ih h
        · simp at h

theorem advance_append_of_atLink {directory : Location}
    (h : fs.advance follow current steps = .ok (.atLink directory target rest)) :
    fs.advance follow current (steps ++ more) = .ok (.atLink directory target (rest ++ more)) := by
  induction steps generalizing current with
  | nil => simp at h
  | cons step steps ih =>
    by_cases hMore : steps ++ more = []
    · obtain ⟨rfl, rfl⟩ := List.append_eq_nil_iff.mp hMore
      simpa using h
    · rw [List.cons_append, advance_cons hMore]
      cases steps with
      | nil =>
        rcases advance_last fs follow current step with
          ⟨e, hAdvance, -⟩ | ⟨place, hAdvance, -⟩ | ⟨target', -, hAdvance, hMove⟩
        · simp [hAdvance] at h
        · simp [hAdvance] at h
        · rw [hAdvance] at h
          obtain ⟨rfl, rfl, rfl⟩ : current = directory ∧ target' = target ∧ [] = rest := by
            simpa using h
          rw [hMove]
      | cons next steps =>
        rw [advance_cons (List.cons_ne_nil _ _)] at h
        split at h
        · simp at h
        · exact ih h
        · obtain ⟨rfl, rfl, rfl⟩ : current = directory ∧ _ = target ∧ next :: steps = rest := by
            simpa using h
          rfl

theorem advance_append_of_arrived (h : fs.advance follow current steps = .ok (.arrived place))
    (hEnd : follow = true ∨ ∀ target, fs.node? place.location ≠ some (.link target))
    (hMore : more ≠ []) :
    fs.advance follow current (steps ++ more) = fs.advance follow place.location more := by
  induction steps generalizing current with
  | nil =>
    obtain rfl : Place.inside current = place := by simpa using h
    rfl
  | cons step rest ih =>
    rw [List.cons_append, advance_cons (List.append_ne_nil_of_right_ne_nil rest hMore)]
    cases rest with
    | nil =>
      rcases advance_last fs follow current step with
        ⟨e, hAdvance, -⟩ | ⟨place', hAdvance, hCase⟩ | ⟨target, -, hAdvance, -⟩
      · simp [hAdvance] at h
      · obtain rfl : place' = place := by simpa [hAdvance] using h
        rcases hCase with hMove | ⟨hMove, hNone⟩ | ⟨target, hFollow, hLink⟩
        · rw [hMove]
          rfl
        · rw [hMove, advance_of_none hNone hMore]
        · rcases hEnd with hEnd | hEnd
          · simp [hFollow] at hEnd
          · exact absurd hLink (hEnd target)
      · simp [hAdvance] at h
    | cons next rest =>
      rw [advance_cons (List.cons_ne_nil _ _)] at h
      split at h
      · simp at h
      · exact ih h
      · simp at h

theorem pursue_append_of_error (h : fs.pursue follow limit current steps = .error e) :
    fs.pursue follow limit current (steps ++ more) = .error e := by
  induction limit using Nat.strongRecOn generalizing current steps with
  | ind limit ih =>
    rw [pursue] at h ⊢
    cases hAdvance : fs.advance follow current steps with
    | error e' =>
      rw [advance_append_of_error hAdvance]
      simpa [hAdvance] using h
    | ok halt =>
      cases halt with
      | arrived place => simp [hAdvance] at h
      | atLink directory target rest =>
        rw [advance_append_of_atLink hAdvance]
        cases limit with
        | zero => simpa [hAdvance] using h
        | succ limit =>
          simp only [hAdvance] at h ⊢
          rw [← List.append_assoc]
          exact ih limit (Nat.lt_succ_self limit) h

theorem pursue_append_of_ok (h : fs.pursue follow limit current steps = .ok (place, left))
    (hEnd : follow = true ∨ ∀ target, fs.node? place.location ≠ some (.link target))
    (hMore : more ≠ []) :
    fs.pursue follow limit current (steps ++ more) = fs.pursue follow left place.location more := by
  induction limit using Nat.strongRecOn generalizing current steps with
  | ind limit ih =>
    rw [pursue] at h
    cases hAdvance : fs.advance follow current steps with
    | error e => simp [hAdvance] at h
    | ok halt =>
      cases halt with
      | arrived place' =>
        obtain ⟨rfl, rfl⟩ : place' = place ∧ limit = left := by simpa [hAdvance] using h
        rw [pursue, advance_append_of_arrived hAdvance hEnd hMore, ← pursue]
      | atLink directory target rest =>
        rw [pursue, advance_append_of_atLink hAdvance]
        cases limit with
        | zero => simp [hAdvance] at h
        | succ limit =>
          simp only [hAdvance] at h ⊢
          rw [← List.append_assoc]
          exact ih limit (Nat.lt_succ_self limit) h

theorem advance_enter (hDir : fs.node? current = some .directory) :
    fs.advance false current [.enter name] = .ok (.arrived (.entry current name)) := by
  rw [advance.eq_def, hDir]
  cases hEntry : fs.node? (current ++ [name]) with
  | none => simp [hEntry]
  | some node => cases node <;> simp [hEntry]

theorem pursue_enter_last (hDir : fs.node? current = some .directory) :
    fs.pursue false limit current [.enter name] = .ok (.entry current name, limit) := by
  rw [pursue, advance_enter hDir]

theorem pursue_stay (hDir : fs.node? current = some .directory) :
    fs.pursue follow limit current [.stay] = .ok (.inside current, limit) := by
  rw [pursue, advance.eq_def, hDir]
  simp

theorem node?_of_pursue_stay (h : fs.pursue follow limit current [.stay] = .ok (place, left)) :
    fs.node? current = some .directory := by
  rw [pursue, advance.eq_def] at h
  cases hNode : fs.node? current with
  | none => simp [hNode] at h
  | some node => cases node <;> simp [hNode] at h ⊢

/-- Having to be in a directory before going on makes no difference to where one goes. -/
theorem pursue_of_stay (h : fs.pursue true limit current (steps ++ [.stay]) = .ok (place, left))
    (hMore : more ≠ []) :
    fs.pursue true limit current (steps ++ more) = fs.pursue true left place.location more := by
  cases hSteps : fs.pursue true limit current steps with
  | error e =>
    rw [pursue_append_of_error hSteps] at h
    simp at h
  | ok reached =>
    obtain ⟨place', left'⟩ := reached
    rw [pursue_append_of_ok hSteps (Or.inl rfl) (List.cons_ne_nil _ _)] at h
    have hDir := node?_of_pursue_stay h
    rw [pursue_stay hDir] at h
    obtain ⟨rfl, rfl⟩ : Place.inside place'.location = place ∧ left' = left := by simpa using h
    rw [pursue_append_of_ok hSteps (Or.inl rfl) hMore]
    rfl

theorem advance_congr (hSame : fs.SameEntries fs') :
    fs.advance follow current steps = fs'.advance follow current steps := by
  induction steps generalizing current with
  | nil => simp
  | cons step rest ih => simp only [advance.eq_def _ _ _ (_ :: _), hSame _, ih]

theorem pursue_congr (hSame : fs.SameEntries fs') :
    fs.pursue follow limit current steps = fs'.pursue follow limit current steps := by
  induction limit using Nat.strongRecOn generalizing current steps with
  | ind limit ih =>
    rw [pursue, pursue, advance_congr hSame]
    cases fs'.advance follow current steps with
    | error e => rfl
    | ok halt =>
      cases halt with
      | arrived place => rfl
      | atLink directory target rest =>
        cases limit with
        | zero => rfl
        | succ limit => exact ih limit (Nat.lt_succ_self limit)

end ScriptBuild.FileSystem
