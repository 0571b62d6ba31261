import ScriptBuild.Proofs.File.Growth
import ScriptBuild.Proofs.File.Vacant

/-!
# The way to a file

The steps by which a path leads to what is read through it, links included. A tree that grows leaves
every such way as it is. The removal of a file or a link cuts off exactly the ways that pass through
it, whichever path they belong to: nothing is found on them any more, and all other ways lead on to
what they led to before.
-/

namespace ScriptBuild.FileSystem

set_option autoImplicit false

variable {fs after : FileSystem} {limit : Nat} {current next last erased : Location} {step : Step}
  {steps rest : List Step} {target p : Path} {name : String} {contents : Bytes} {e : FileError}

/-! ## Ways -/

def linkStart (current : Location) (target : Path) : Location :=
  if target.isAbsolute then [] else current

/-- Steps lead from one location to another, with at most as many links on the way. -/
inductive Arrives (fs : FileSystem) : Nat → Location → List Step → Location → Prop
  | done {limit : Nat} {current : Location} : Arrives fs limit current [] current
  | goes {limit : Nat} {current next last : Location} {step : Step} {rest : List Step}
      (hMove : fs.move current step = .ok (.to next)) (hRest : Arrives fs limit next rest last) :
      Arrives fs limit current (step :: rest) last
  | follows {limit : Nat} {current last : Location} {step : Step} {rest : List Step} {target : Path}
      (hMove : fs.move current step = .ok (.link target))
      (hRest : Arrives fs limit (linkStart current target) (target.steps ++ rest) last) :
      Arrives fs (limit + 1) current (step :: rest) last

/-- The way along some steps passes through an entry. -/
inductive Passes (fs : FileSystem) (entry : Location) : Location → List Step → Prop
  | enters {current : Location} {name : String} {rest : List Step}
      (hEntry : current ++ [name] = entry) : Passes fs entry current (.enter name :: rest)
  | goes {current next : Location} {step : Step} {rest : List Step}
      (hMove : fs.move current step = .ok (.to next)) (hRest : Passes fs entry next rest) :
      Passes fs entry current (step :: rest)
  | follows {current : Location} {step : Step} {rest : List Step} {target : Path}
      (hMove : fs.move current step = .ok (.link target))
      (hRest : Passes fs entry (linkStart current target) (target.steps ++ rest)) :
      Passes fs entry current (step :: rest)

def reached (fs : FileSystem) (limit : Nat) (current : Location) (steps : List Step) :
    Except FileError Location :=
  (fs.pursue true limit current steps).map fun r => r.1.location

def Misses (fs : FileSystem) (limit : Nat) (current : Location) (steps : List Step) : Prop :=
  fs.reached limit current steps = .error .notFound ∨
    ∃ last, fs.reached limit current steps = .ok last ∧ fs.node? last = none

/-! ## Ways and walks -/

theorem reached_nil : fs.reached limit current [] = .ok current := by
  simp [reached, pursue, Except.map, Place.location]

theorem reached_of_goes (hMove : fs.move current step = .ok (.to next)) :
    fs.reached limit current (step :: rest) = fs.reached limit next rest := by
  unfold reached
  by_cases hRest : rest = []
  · subst hRest
    rcases advance_last fs true current step with
      ⟨e, -, hError⟩ | ⟨place, hAdvance, hCase⟩ | ⟨target, -, -, hLink⟩
    · simp [hMove] at hError
    · rcases hCase with hTo | ⟨hNone, -⟩ | ⟨target, hFollow, -⟩
      · obtain rfl : next = place.location := by simpa [hMove] using hTo
        rw [pursue, hAdvance, pursue, advance_nil]
        rfl
      · simp [hMove] at hNone
      · simp at hFollow
    · simp [hMove] at hLink
  · rw [pursue, advance_cons hRest, hMove, pursue.eq_def fs true limit next]

theorem advance_of_link (hMove : fs.move current step = .ok (.link target)) :
    fs.advance true current (step :: rest) = .ok (.atLink current target rest) := by
  by_cases hRest : rest = []
  · subst hRest
    rcases advance_last fs true current step with
      ⟨e, -, hError⟩ | ⟨place, -, hCase⟩ | ⟨target', -, hAdvance, hLink⟩
    · simp [hMove] at hError
    · rcases hCase with hTo | ⟨hNone, -⟩ | ⟨target', hFollow, -⟩
      · simp [hMove] at hTo
      · simp [hMove] at hNone
      · simp at hFollow
    · obtain rfl : target = target' := by simpa [hMove] using hLink
      exact hAdvance
  · rw [advance_cons hRest, hMove]

theorem reached_of_follows (hMove : fs.move current step = .ok (.link target)) :
    fs.reached (limit + 1) current (step :: rest) =
      fs.reached limit (linkStart current target) (target.steps ++ rest) := by
  rw [reached, pursue, advance_of_link hMove]
  rfl

theorem reached_of_follows_zero (hMove : fs.move current step = .ok (.link target)) :
    fs.reached 0 current (step :: rest) = .error .tooManyLinks := by
  rw [reached, pursue, advance_of_link hMove]
  rfl

/-- A step that cannot be made ends the walk, at the latest where there is nothing. -/
theorem reached_of_error (limit : Nat) (rest : List Step)
    (hMove : fs.move current step = .error e) :
    fs.reached limit current (step :: rest) = .error e ∨
      e = .notFound ∧ fs.Misses limit current (step :: rest) := by
  by_cases hRest : rest = []
  · subst hRest
    rcases advance_last fs true current step with
      ⟨e', hAdvance, hError⟩ | ⟨place, hAdvance, hCase⟩ | ⟨target, -, -, hLink⟩
    · obtain rfl : e = e' := by simpa [hMove] using hError
      refine Or.inl ?_
      rw [reached, pursue, hAdvance]
      rfl
    · rcases hCase with hTo | ⟨hNone, hNode⟩ | ⟨target, hFollow, -⟩
      · simp [hMove] at hTo
      · obtain rfl : e = .notFound := by simpa [hMove] using hNone
        refine Or.inr ⟨rfl, Or.inr ⟨place.location, ?_, hNode⟩⟩
        rw [reached, pursue, hAdvance]
        rfl
      · simp at hFollow
    · simp [hMove] at hLink
  · refine Or.inl ?_
    rw [reached, pursue, advance_cons hRest, hMove]
    rfl

theorem misses_of_notFound (hMove : fs.move current step = .error .notFound) :
    fs.Misses limit current (step :: rest) := by
  rcases reached_of_error limit rest hMove with hReached | ⟨-, hMisses⟩
  · exact Or.inl hReached
  · exact hMisses

theorem reached_of_arrives (h : fs.Arrives limit current steps last) :
    fs.reached limit current steps = .ok last := by
  induction h with
  | done => exact reached_nil
  | goes hMove _ ih => rw [reached_of_goes hMove, ih]
  | follows hMove _ ih => rw [reached_of_follows hMove, ih]

theorem arrives_of_reached (h : fs.reached limit current steps = .ok last)
    (hNode : fs.node? last ≠ none) : fs.Arrives limit current steps last := by
  -- a step shortens the way, a link lengthens it at the cost of the limit
  induction limit using Nat.strongRecOn generalizing current steps with
  | ind limit ih =>
    induction steps generalizing current with
    | nil =>
      rw [reached_nil] at h
      obtain rfl := Except.ok.inj h
      exact .done
    | cons step rest ihRest =>
      cases hMove : fs.move current step with
      | error e =>
        rcases reached_of_error limit rest hMove with hError | ⟨-, hMisses⟩
        · simp [hError] at h
        · rcases hMisses with hError | ⟨last', hLast, hNone⟩
          · simp [hError] at h
          · obtain rfl : last' = last := by simpa [hLast] using h
            exact absurd hNone hNode
      | ok moved =>
        rcases moved with next | target
        · rw [reached_of_goes hMove] at h
          exact .goes hMove (ihRest h)
        · cases limit with
          | zero => simp [reached_of_follows_zero hMove] at h
          | succ limit =>
            rw [reached_of_follows hMove] at h
            exact .follows hMove (ih limit (Nat.lt_succ_self limit) h)

theorem read_eq (fs : FileSystem) (p : Path) :
    fs.read p =
      if p.text = "" then .error .notFound
      else
        match fs.reached linkLimit (fs.start p) p.steps with
        | .error e => .error e
        | .ok last =>
          match fs.node? last with
          | none => .error .notFound
          | some (.file contents _) => .ok contents
          | some _ => .error .isADirectory := by
  unfold read lookUp locate walk reached
  split
  · rfl
  · cases fs.pursue true linkLimit (fs.start p) p.steps with
    | error e => rfl
    | ok r =>
      simp only [Except.map, bind, Except.bind]
      cases fs.node? r.1.location with
      | none => rfl
      | some node => cases node <;> rfl

theorem read_eq_ok_iff : fs.read p = .ok contents ↔ p.text ≠ "" ∧ ∃ last executable,
    fs.Arrives linkLimit (fs.start p) p.steps last ∧
      fs.node? last = some (.file contents executable) := by
  rw [read_eq]
  split
  · simp_all
  · rename_i hText
    constructor
    · intro h
      cases hReached : fs.reached linkLimit (fs.start p) p.steps with
      | error e => simp [hReached] at h
      | ok last =>
        rw [hReached] at h
        simp only at h
        split at h
        · simp at h
        · rename_i found executable hNode
          obtain rfl := Except.ok.inj h
          exact ⟨hText, last, executable, arrives_of_reached hReached (by simp [hNode]), hNode⟩
        · simp at h
    · rintro ⟨-, last, executable, hArrives, hNode⟩
      simp [reached_of_arrives hArrives, hNode]

theorem read_of_misses (h : fs.Misses linkLimit (fs.start p) p.steps) :
    fs.read p = .error .notFound := by
  rw [read_eq]
  split
  · rfl
  · rcases h with hError | ⟨last, hReached, hNone⟩
    · rw [hError]
    · simp [hReached, hNone]

/-! ## Growth -/

theorem Arrives.grows (h : fs.Arrives limit current steps last) (hGrows : fs.GrowsTo after) :
    after.Arrives limit current steps last := by
  induction h with
  | done => exact .done
  | goes hMove _ ih => exact .goes (hGrows.move hMove) ih
  | follows hMove _ ih => exact .follows (hGrows.move hMove) ih

theorem GrowsTo.read (h : fs.GrowsTo after) (hRead : fs.read p = .ok contents) :
    after.read p = .ok contents := by
  obtain ⟨hText, last, executable, hArrives, hNode⟩ := read_eq_ok_iff.mp hRead
  refine read_eq_ok_iff.mpr ⟨hText, last, executable, ?_, h.kept last _ hNode⟩
  rw [h.start]
  exact hArrives.grows h

/-! ## Removal -/

theorem passes_of_goes (hMove : fs.move current step = .ok (.to next)) :
    fs.Passes erased current (step :: rest) ↔
      (∃ name, step = .enter name ∧ current ++ [name] = erased) ∨ fs.Passes erased next rest := by
  constructor
  · intro h
    cases h with
    | enters hEntry => exact Or.inl ⟨_, rfl, hEntry⟩
    | goes hMove' hRest =>
      obtain rfl : next = _ := by simpa [hMove] using hMove'
      exact Or.inr hRest
    | follows hMove' _ => simp [hMove] at hMove'
  · rintro (⟨name, rfl, hEntry⟩ | hRest)
    · exact .enters hEntry
    · exact .goes hMove hRest

theorem passes_of_follows (hMove : fs.move current step = .ok (.link target)) :
    fs.Passes erased current (step :: rest) ↔
      (∃ name, step = .enter name ∧ current ++ [name] = erased) ∨
        fs.Passes erased (linkStart current target) (target.steps ++ rest) := by
  constructor
  · intro h
    cases h with
    | enters hEntry => exact Or.inl ⟨_, rfl, hEntry⟩
    | goes hMove' _ => simp [hMove] at hMove'
    | follows hMove' hRest =>
      obtain rfl : target = _ := by simpa [hMove] using hMove'
      exact Or.inr hRest
  · rintro (⟨name, rfl, hEntry⟩ | hRest)
    · exact .enters hEntry
    · exact .follows hMove hRest

theorem directory_of_move {moved : Move} (hMove : fs.move current step = .ok moved) :
    fs.node? current = some .directory := by
  unfold move at hMove
  cases hNode : fs.node? current with
  | none => simp [hNode] at hMove
  | some node => cases node <;> simp [hNode] at hMove ⊢

theorem node?_of_move_enter {moved : Move} (hMove : fs.move current (.enter name) = .ok moved) :
    fs.node? (current ++ [name]) ≠ none := by
  intro hNone
  have hError : fs.move current (.enter name) = .error .notFound := by
    rw [move, directory_of_move hMove]
    simp [hNone]
  simp [hError] at hMove

theorem Arrives.not_passes (h : fs.Arrives limit current steps last)
    (hNone : fs.node? erased = none) : ¬ fs.Passes erased current steps := by
  induction h with
  | done =>
    intro hPasses
    cases hPasses
  | goes hMove _ ih =>
    rw [passes_of_goes hMove]
    rintro (⟨name, rfl, rfl⟩ | hRest)
    · exact node?_of_move_enter hMove hNone
    · exact ih hRest
  | follows hMove _ ih =>
    rw [passes_of_follows hMove]
    rintro (⟨name, rfl, rfl⟩ | hRest)
    · exact node?_of_move_enter hMove hNone
    · exact ih hRest

theorem move_erase_of_ne (hErased : erased ≠ []) (hCurrent : current ≠ erased)
    (hEntry : ¬ ∃ name, step = .enter name ∧ current ++ [name] = erased) :
    (fs.erase erased).move current step = fs.move current step := by
  unfold move
  rw [node?_erase fs hErased, if_neg hCurrent]
  cases step with
  | stay => rfl
  | up => rfl
  | enter name =>
    have hOther : current ++ [name] ≠ erased := fun hEq => hEntry ⟨name, rfl, hEq⟩
    simp only [node?_erase fs hErased, if_neg hOther]

theorem move_erase_entered (hErased : erased ≠ []) (hCurrent : fs.node? current = some .directory)
    (hOther : current ≠ erased) (hEntry : current ++ [name] = erased) :
    (fs.erase erased).move current (.enter name) = .error .notFound := by
  rw [move, node?_erase fs hErased, if_neg hOther, hCurrent]
  simp only
  rw [node?_erase fs hErased, if_pos hEntry]

theorem next_ne_of_move (hTree : fs.IsTree) (hErased : fs.node? erased ≠ some .directory)
    (hMove : fs.move current step = .ok (.to next))
    (hEntry : ¬ ∃ name, step = .enter name ∧ current ++ [name] = erased) : next ≠ erased := by
  have hDirectory : fs.node? current = some .directory := directory_of_move hMove
  rintro rfl
  unfold move at hMove
  rw [hDirectory] at hMove
  cases step with
  | stay =>
    obtain rfl : current = next := by simpa using hMove
    exact hErased hDirectory
  | up =>
    obtain rfl : current.dropLast = next := by simpa using hMove
    exact hErased (hTree current _ hDirectory)
  | enter name =>
    simp only at hMove
    split at hMove
    · simp at hMove
    · simp at hMove
    · exact hEntry ⟨name, rfl, by simpa using hMove⟩

theorem linkStart_ne (hCurrent : current ≠ erased) (hErased : erased ≠ []) (target : Path) :
    linkStart current target ≠ erased := by
  unfold linkStart
  split
  · exact hErased.symm
  · exact hCurrent

/-- The removal of a file or a link cuts off the ways that pass through it, and no others. -/
theorem Arrives.erase (hTree : fs.IsTree) (hErased : fs.node? erased ≠ some .directory)
    (h : fs.Arrives limit current steps last) (hCurrent : current ≠ erased) :
    fs.Passes erased current steps ∧ (fs.erase erased).Misses limit current steps ∨
      ¬ fs.Passes erased current steps ∧ last ≠ erased ∧
        (fs.erase erased).Arrives limit current steps last := by
  have hRoot : erased ≠ [] := ne_nil_of_not_directory hErased
  -- along the way, no location reached is the erased one: only its name leads into it
  induction h with
  | done =>
    refine Or.inr ⟨?_, hCurrent, .done⟩
    intro hPasses
    cases hPasses
  | @goes limit current next last step rest hMove _ ih =>
    by_cases hEntry : ∃ name, step = .enter name ∧ current ++ [name] = erased
    · obtain ⟨name, rfl, hEq⟩ := hEntry
      exact Or.inl ⟨.enters hEq, misses_of_notFound
        (move_erase_entered hRoot (directory_of_move hMove) hCurrent hEq)⟩
    · have hMove' : (fs.erase erased).move current step = .ok (.to next) := by
        rw [move_erase_of_ne hRoot hCurrent hEntry, hMove]
      rcases ih (next_ne_of_move hTree hErased hMove hEntry) with
        ⟨hPasses, hMisses⟩ | ⟨hNot, hLast, hArrives⟩
      · refine Or.inl ⟨.goes hMove hPasses, ?_⟩
        rwa [Misses, reached_of_goes hMove']
      · refine Or.inr ⟨?_, hLast, .goes hMove' hArrives⟩
        rw [passes_of_goes hMove]
        exact not_or.mpr ⟨hEntry, hNot⟩
  | @follows limit current last step rest target hMove _ ih =>
    by_cases hEntry : ∃ name, step = .enter name ∧ current ++ [name] = erased
    · obtain ⟨name, rfl, hEq⟩ := hEntry
      exact Or.inl ⟨.enters hEq, misses_of_notFound
        (move_erase_entered hRoot (directory_of_move hMove) hCurrent hEq)⟩
    · have hMove' : (fs.erase erased).move current step = .ok (.link target) := by
        rw [move_erase_of_ne hRoot hCurrent hEntry, hMove]
      rcases ih (linkStart_ne hCurrent hRoot target) with
        ⟨hPasses, hMisses⟩ | ⟨hNot, hLast, hArrives⟩
      · refine Or.inl ⟨.follows hMove hPasses, ?_⟩
        rwa [Misses, reached_of_follows hMove']
      · refine Or.inr ⟨?_, hLast, .follows hMove' hArrives⟩
        rw [passes_of_follows hMove]
        exact not_or.mpr ⟨hEntry, hNot⟩

theorem steps_ne_nil (p : Path) : p.steps ≠ [] := by
  unfold Path.steps
  split <;> simp [Text.pieces_ne_nil]

theorem Arrives.directory (h : fs.Arrives limit current steps last) (hSteps : steps ≠ []) :
    fs.node? current = some .directory := by
  cases h with
  | done => exact absurd rfl hSteps
  | goes hMove _ => exact directory_of_move hMove
  | follows hMove _ => exact directory_of_move hMove

/-- After the removal of a file or a link, what could be read is not found or still there, depending
on whether the way to it passes through what is gone. -/
theorem read_erase (hTree : fs.IsTree) (hErased : fs.node? erased ≠ some .directory)
    (hRead : fs.read p = .ok contents) :
    fs.Passes erased (fs.start p) p.steps ∧ (fs.erase erased).read p = .error .notFound ∨
      ¬ fs.Passes erased (fs.start p) p.steps ∧ (fs.erase erased).read p = .ok contents := by
  obtain ⟨hText, last, executable, hArrives, hNode⟩ := read_eq_ok_iff.mp hRead
  have hStart : fs.start p ≠ erased := by
    intro hEq
    exact hErased (hEq ▸ hArrives.directory (steps_ne_nil p))
  rcases hArrives.erase hTree hErased hStart with ⟨hPasses, hMisses⟩ | ⟨hNot, hLast, hArrives'⟩
  · exact Or.inl ⟨hPasses, read_of_misses hMisses⟩
  · refine Or.inr ⟨hNot, read_eq_ok_iff.mpr ⟨hText, last, executable, hArrives', ?_⟩⟩
    rw [node?_erase fs (ne_nil_of_not_directory hErased), if_neg hLast, hNode]

theorem not_passes_of_read (hNone : fs.node? erased = none) (hRead : fs.read p = .ok contents) :
    ¬ fs.Passes erased (fs.start p) p.steps := by
  obtain ⟨-, last, executable, hArrives, -⟩ := read_eq_ok_iff.mp hRead
  exact hArrives.not_passes hNone

end ScriptBuild.FileSystem
