import ScriptBuild.Text.Line

/-!
# Lines and pieces of concatenated texts

Texts that hold no newline, are not empty and do not end with a carriage return are read back as
the lines of their concatenation with newlines in between. The pieces of two texts with a separator
in between are those of the one and then those of the other. A text is what its pieces are joined
to, so a text without some of its lines is what the other pieces are joined to.
-/

namespace ScriptBuild.Text

set_option autoImplicit false

variable {c : Char} {rest line : List Char} {below : List (List Char)}

/-- A text that line ends around it leave as it is. -/
structure Unbroken (line : List Char) : Prop where
  ne_nil : line ≠ []
  no_newline : '\n' ∉ line
  no_return : line.getLast? ≠ some '\r'

def joinLines (ls : List (List Char)) : List Char := List.intercalate ['\n'] ls

theorem joinLines_cons_cons (line next : List Char) (below : List (List Char)) :
    joinLines (line :: next :: below) = line ++ '\n' :: joinLines (next :: below) := by
  rw [joinLines, List.intercalate_cons_cons, joinLines, List.append_assoc, List.singleton_append]

theorem joinLines_cons (line : List Char) (below : List (List Char)) :
    joinLines (line :: below) = line ++ below.flatMap fun l => '\n' :: l := by
  induction below generalizing line with
  | nil => simp [joinLines]
  | cons next below ih => rw [joinLines_cons_cons, ih, List.flatMap_cons, List.cons_append]

theorem lines_cons (hc : c ≠ '\n') (hReturn : c = '\r' → rest.head? ≠ some '\n') :
    lines (c :: rest) = consLine c (lines rest) := by
  rw [lines.eq_4]
  · exact hc
  · rintro tail rfl rfl
    exact hReturn rfl rfl

theorem lines_append_newline (hNewline : '\n' ∉ line) (hReturn : line.getLast? ≠ some '\r') :
    lines (line ++ '\n' :: rest) = line :: lines rest := by
  induction line with
  | nil => simp
  | cons c cs ih =>
    simp only [List.mem_cons, not_or] at hNewline
    have hTail : cs.getLast? ≠ some '\r' := by
      cases cs with
      | nil => simp
      | cons d ds => simpa using hReturn
    rw [List.cons_append, lines_cons (Ne.symm hNewline.1), ih hNewline.2 hTail]
    · rfl
    · rintro rfl hHead
      cases cs with
      | nil => simp at hReturn
      | cons d ds =>
        simp only [List.cons_append, List.head?_cons, Option.some.injEq] at hHead
        simp [hHead] at hNewline

theorem lines_append_return_newline (hNewline : '\n' ∉ line) :
    lines (line ++ '\r' :: '\n' :: rest) = line :: lines rest := by
  induction line with
  | nil => simp
  | cons c cs ih =>
    simp only [List.mem_cons, not_or] at hNewline
    rw [List.cons_append, lines_cons (Ne.symm hNewline.1), ih hNewline.2]
    · rfl
    · rintro - hHead
      cases cs with
      | nil => simp at hHead
      | cons d ds =>
        simp only [List.cons_append, List.head?_cons, Option.some.injEq] at hHead
        simp [hHead] at hNewline

/-- A newline ends a line, which loses a carriage return before it and nothing else. -/
theorem exists_lines_append_newline (hNewline : '\n' ∉ line) :
    ∃ ended, (line = ended ∨ line = ended ++ ['\r']) ∧
      ∀ rest, lines (line ++ '\n' :: rest) = ended :: lines rest := by
  by_cases hReturn : line.getLast? = some '\r'
  · obtain ⟨ended, rfl⟩ := List.getLast?_eq_some_iff.mp hReturn
    refine ⟨ended, Or.inr rfl, fun rest => ?_⟩
    rw [List.append_assoc]
    exact lines_append_return_newline fun hMem => hNewline (List.mem_append_left _ hMem)
  · exact ⟨line, Or.inl rfl, fun rest => lines_append_newline hNewline hReturn⟩

theorem lines_of_no_newline (hne : line ≠ []) (hNewline : '\n' ∉ line) : lines line = [line] := by
  induction line with
  | nil => exact absurd rfl hne
  | cons c cs ih =>
    simp only [List.mem_cons, not_or] at hNewline
    rw [lines_cons (Ne.symm hNewline.1)]
    · cases cs with
      | nil => rfl
      | cons d ds => rw [ih (by simp) hNewline.2, consLine]
    · intro _ hHead
      cases cs with
      | nil => simp at hHead
      | cons d ds =>
        simp only [List.head?_cons, Option.some.injEq] at hHead
        simp [hHead] at hNewline

theorem lines_append_flatMap (hLine : Unbroken line) (hBelow : ∀ l ∈ below, Unbroken l) :
    lines (line ++ below.flatMap fun l => '\n' :: l) = line :: below := by
  induction below generalizing line with
  | nil => simp [lines_of_no_newline hLine.ne_nil hLine.no_newline]
  | cons next below ih =>
    rw [List.flatMap_cons, List.cons_append, lines_append_newline hLine.no_newline hLine.no_return,
      ih (hBelow next (by simp)) fun l hl => hBelow l (by simp [hl])]

theorem lines_joinLines {ls : List (List Char)} (h : ∀ l ∈ ls, Unbroken l) :
    lines (joinLines ls) = ls := by
  cases ls with
  | nil => simp [joinLines]
  | cons line below =>
    rw [joinLines_cons]
    exact lines_append_flatMap (h line (by simp)) fun l hl => h l (by simp [hl])

theorem lines_flatMap_newline {ls : List (List Char)} (h : ∀ l ∈ ls, Unbroken l) :
    lines (ls.flatMap fun l => l ++ ['\n']) = ls := by
  induction ls with
  | nil => rfl
  | cons line below ih =>
    have hLine : Unbroken line := h line (by simp)
    rw [List.flatMap_cons, List.append_assoc, List.singleton_append,
      lines_append_newline hLine.no_newline hLine.no_return, ih fun l hl => h l (by simp [hl])]

section Pieces

variable {separator : Char} {cs : List Char}

/-- Pieces are what splitting a list at a separator gives. -/
theorem pieces_eq_splitOn (separator : Char) (cs : List Char) :
    pieces separator cs = cs.splitOn separator := by
  induction cs with
  | nil => exact (List.splitOn_nil separator).symm
  | cons c cs ih =>
    have hSome : cs.splitOn separator ≠ [] := List.splitOn_ne_nil separator cs
    obtain ⟨piece, others, hPieces⟩ := List.exists_cons_of_ne_nil hSome
    rw [pieces, ih, List.splitOn_cons_eq_if_modifyHead, hPieces]
    simp only [beq_iff_eq]
    rfl

theorem pieces_ne_nil (separator : Char) (cs : List Char) : pieces separator cs ≠ [] := by
  rw [pieces_eq_splitOn]
  exact List.splitOn_ne_nil separator cs

theorem pieces_append (separator : Char) (cs rest : List Char) :
    pieces separator (cs ++ separator :: rest) = pieces separator cs ++ pieces separator rest := by
  simp only [pieces_eq_splitOn]
  exact List.splitOn_append_cons_self cs rest

theorem pieces_of_not_mem (h : separator ∉ cs) : pieces separator cs = [cs] := by
  rw [pieces_eq_splitOn]
  exact List.splitOn_eq_singleton h

theorem intercalate_pieces (separator : Char) (cs : List Char) :
    List.intercalate [separator] (pieces separator cs) = cs := by
  rw [pieces_eq_splitOn]
  exact List.intercalate_splitOn separator

theorem pieces_intercalate {ps : List (List Char)} (hSome : ps ≠ [])
    (hPlain : ∀ piece ∈ ps, separator ∉ piece) :
    pieces separator (List.intercalate [separator] ps) = ps := by
  rw [pieces_eq_splitOn]
  exact List.splitOn_intercalate separator hPlain hSome

theorem not_mem_of_mem_pieces {piece : List Char} (h : piece ∈ pieces separator cs) :
    separator ∉ piece := by
  induction cs generalizing piece with
  | nil =>
    rw [pieces, List.mem_singleton] at h
    subst h
    exact List.not_mem_nil
  | cons c cs ih =>
    rw [pieces] at h
    split at h
    · rcases List.mem_cons.mp h with hEmpty | hBelow
      · subst hEmpty
        exact List.not_mem_nil
      · exact ih hBelow
    · rename_i hc
      cases hPieces : pieces separator cs with
      | nil => exact absurd hPieces (pieces_ne_nil separator cs)
      | cons first others =>
        rw [hPieces] at h ih
        rcases List.mem_cons.mp h with hFirst | hOther
        · subst hFirst
          intro hMem
          rcases List.mem_cons.mp hMem with hSame | hMem
          · exact hc hSame.symm
          · exact ih List.mem_cons_self hMem
        · exact ih (List.mem_cons_of_mem first hOther)

end Pieces

section RawLines

variable {cs : List Char} {ls : List (List Char)}

/-- The lines of a text as they stand in it, between its newlines. A carriage return before a
newline is kept. -/
def rawLines (cs : List Char) : List (List Char) := pieces '\n' cs

def keepAt {α : Type} (keep : Nat → Bool) : List α → List α
  | [] => []
  | x :: xs =>
    if keep 0 then x :: keepAt (fun i => keep (i + 1)) xs else keepAt (fun i => keep (i + 1)) xs

theorem newline_not_mem_rawLines (h : line ∈ rawLines cs) : '\n' ∉ line :=
  not_mem_of_mem_pieces h

theorem joinLines_rawLines (cs : List Char) : joinLines (rawLines cs) = cs :=
  intercalate_pieces '\n' cs

theorem rawLines_joinLines (hSome : ls ≠ []) (hPlain : ∀ line ∈ ls, '\n' ∉ line) :
    rawLines (joinLines ls) = ls := pieces_intercalate hSome hPlain

theorem mem_of_mem_keepAt {α : Type} {keep : Nat → Bool} {x : α} {xs : List α}
    (h : x ∈ keepAt keep xs) : x ∈ xs := by
  induction xs generalizing keep with
  | nil => exact h
  | cons y ys ih =>
    rw [keepAt] at h
    split at h
    · rcases List.mem_cons.mp h with hHead | hTail
      · rw [hHead]
        exact List.mem_cons_self
      · exact List.mem_cons_of_mem y (ih hTail)
    · exact List.mem_cons_of_mem y (ih h)

theorem keepAt_all {α : Type} (xs : List α) : keepAt (fun _ => true) xs = xs := by
  induction xs with
  | nil => rfl
  | cons x xs ih => rw [keepAt, if_pos rfl, ih]

end RawLines

end ScriptBuild.Text
