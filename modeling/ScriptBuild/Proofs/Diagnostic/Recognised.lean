import ScriptBuild.Proofs.Diagnostic.Grammar
import ScriptBuild.Proofs.Text.Line

/-!
# Recognised lines

The lines of a text that state something, and the diagnostics that they state one after the other. A
newline between two texts keeps their lines apart: white space at the end of a line belongs to its
message, so it does not matter that a carriage return before the newline is lost.

A related line takes over the severity and the code of the diagnostic above it and passes them on to
the related line below it. So what stands above a text is felt only as far as its first lines are
related ones.
-/

namespace ScriptBuild.Diagnostic

set_option autoImplicit false

open Text

def Line.file : Line → Path
  | .complete d => d.file
  | .related file _ _ _ => file

def Line.isRelated : Line → Bool
  | .complete _ => false
  | .related _ _ _ _ => true

def like (e d : Diagnostic) : Diagnostic := { d with severity := e.severity, code := e.code }

variable {α : Type} {read? : List Char → Option α} {cs line x rest : List Char} {c : Char} {l : Line}
  {u : Wording} {d e : Diagnostic} {previous : Option Diagnostic} {ls ms : List Line} {file : Path}

/-! ## White space at the end of a line -/

/-- A header ends with a colon, so another character at the end of a text belongs to what stands
behind the header. -/
theorem exists_concat_of_colon (hc : c ≠ ':') (h : cs ++ [c] = x ++ ':' :: rest) :
    ∃ message, rest = message ++ [c] ∧ cs = x ++ ':' :: message := by
  cases rest using List.reverseRecOn with
  | nil =>
    obtain ⟨-, hLast⟩ := List.append_inj' h rfl
    exact absurd (List.singleton_inj.mp hLast) hc
  | append_singleton message d =>
    rw [← List.cons_append, ← List.append_assoc] at h
    obtain ⟨hFront, hLast⟩ := List.append_inj' h rfl
    obtain rfl := List.singleton_inj.mp hLast
    exact ⟨message, rfl, hFront⟩

theorem not_isBlank_colon (hc : isBlank c = true) : c ≠ ':' := by
  intro h
  subst h
  exact absurd hc (by decide)

theorem Spot.text_append (s : Spot) (rest : List Char) : s.text ++ rest =
    ('(' :: (s.row ++ ',' :: (s.column ++ ')' :: s.gap))) ++ ':' :: rest := by
  simp [Spot.text]

theorem Wording.append_text (gap : List Char) (u : Wording) : gap ++ u.text =
    (gap ++ (u.severity.word.toList ++ (u.between ++ (u.code ++ u.gap)))) ++ ':' :: u.message := by
  simp [Wording.text]

theorem place?_concat (hc : c ≠ ':') :
    place? (cs ++ [c]) = (place? cs).map fun found => (found.1, found.2 ++ [c]) := by
  ext ⟨place, rest⟩
  rw [Option.map_eq_some_iff, place?_eq_some_iff_spot, Prod.exists]
  constructor
  · intro ⟨s, hPlace, hcs⟩
    rw [Spot.text_append] at hcs
    obtain ⟨message, hRest, hFront⟩ := exists_concat_of_colon hc hcs
    rw [← Spot.text_append] at hFront
    exact ⟨place, message, place?_eq_some_iff_spot.mpr ⟨s, hPlace, hFront⟩, by rw [hRest]⟩
  · intro ⟨place', message, hRead, hSame⟩
    obtain ⟨s, hPlace, hcs⟩ := place?_eq_some_iff_spot.mp hRead
    obtain ⟨hPlaces, hRest⟩ := Prod.mk.inj hSame
    refine ⟨s, hPlace.trans hPlaces, ?_⟩
    rw [hcs, ← hRest, List.append_assoc]

theorem finding?_dropBlank_concat (hc : isBlank c = true) :
    finding? (dropBlank (cs ++ [c])) = finding? (dropBlank cs) := by
  ext finding
  rw [finding?_dropBlank_eq_some_iff, finding?_dropBlank_eq_some_iff]
  constructor
  · rintro ⟨u, hFinding, gap, hGap, hcs⟩
    rw [Wording.append_text] at hcs
    obtain ⟨message, hMessage, hFront⟩ := exists_concat_of_colon (not_isBlank_colon hc) hcs
    refine ⟨{ u with message := message }, ?_, gap, hGap, ?_⟩
    · rw [← hFinding, Wording.finding, Wording.finding, hMessage, trim_concat_of_isBlank hc]
    · rw [Wording.append_text]
      exact hFront
  · rintro ⟨u, hFinding, gap, hGap, hcs⟩
    refine ⟨{ u with message := u.message ++ [c] }, ?_, gap, hGap, ?_⟩
    · rw [← hFinding, Wording.finding, Wording.finding, trim_concat_of_isBlank hc]
    · rw [hcs, Wording.append_text, Wording.append_text, List.append_assoc, List.cons_append]

theorem locatedTail?_concat (hc : isBlank c = true) :
    locatedTail? (cs ++ [c]) = locatedTail? cs := by
  rw [locatedTail?, place?_concat (not_isBlank_colon hc), locatedTail?]
  cases place? cs with
  | none => rfl
  | some found => simp [finding?_dropBlank_concat hc]

theorem relatedTail?_concat (hc : isBlank c = true) :
    relatedTail? (cs ++ [c]) = relatedTail? cs := by
  rw [relatedTail?, place?_concat (not_isBlank_colon hc), relatedTail?]
  cases place? cs with
  | none => rfl
  | some found => simp [trim_concat_of_isBlank hc]

section Concat

variable (hRead : ∀ cs, read? (cs ++ [c]) = read? cs) (hNil : read? [] = none)

include hRead hNil

theorem shortest?_concat : shortest? read? (line ++ [c]) = shortest? read? line := by
  induction line with
  | nil => simp [shortest?, hNil]
  | cons d line ih => rw [List.cons_append, shortest?, shortest?, hRead, ih]

theorem withFile?_concat : withFile? read? (line ++ [c]) = withFile? read? line := by
  induction line with
  | nil =>
    rw [List.nil_append, withFile?_cons, withFile?_nil]
    simp [shortest?, hNil]
  | cons d line ih =>
    have hShortest : shortest? read? (d :: line ++ [c]) = shortest? read? (d :: line) :=
      shortest?_concat hRead hNil
    rw [List.cons_append] at hShortest ⊢
    rw [withFile?_cons, withFile?_cons, ih, hShortest]

end Concat

theorem line?_concat (hc : isBlank c = true) : line? (line ++ [c]) = line? line := by
  have hLocated : located? (line ++ [c]) = located? line := by
    rw [located?, withFile?_concat (fun _ => locatedTail?_concat hc) rfl, located?]
  have hUnlocated : unlocated? (line ++ [c]) = unlocated? line := by
    rw [unlocated?, finding?_dropBlank_concat hc, unlocated?]
  have hRelated : related? (line ++ [c]) = related? line := by
    rw [related?, withFile?_concat (fun _ => relatedTail?_concat hc) rfl, related?]
  rw [line?, hLocated, hUnlocated, hRelated, line?]

/-! ## The lines of a text -/

theorem line?_cases (h : line? cs = some l) :
    (∃ d, located? cs = some d ∧ l = .complete d) ∨
    (∃ d, located? cs = none ∧ unlocated? cs = some d ∧ l = .complete d) ∨
    (located? cs = none ∧ unlocated? cs = none ∧ related? cs = some l) := by
  rw [line?] at h
  split at h
  · rename_i d hLocated
    exact Or.inl ⟨d, hLocated, (Option.some.inj h).symm⟩
  · rename_i hLocated
    split at h
    · rename_i d hUnlocated
      exact Or.inr (Or.inl ⟨d, hLocated, hUnlocated, (Option.some.inj h).symm⟩)
    · rename_i hUnlocated
      exact Or.inr (Or.inr ⟨hLocated, hUnlocated, h⟩)

theorem recognised_of_no_newline (hNewline : '\n' ∉ line) :
    recognised line = (line? line).toList := by
  by_cases hNil : line = []
  · subst hNil
    rfl
  · rw [recognised, lines_of_no_newline hNil hNewline]
    cases hLine : line? line with
    | none => rw [List.filterMap_cons_none hLine]; rfl
    | some l => rw [List.filterMap_cons_some hLine]; rfl

theorem recognised_line_append_newline (hNewline : '\n' ∉ line) :
    recognised (line ++ '\n' :: rest) = recognised line ++ recognised rest := by
  obtain ⟨ended, hEnded, hLines⟩ := exists_lines_append_newline hNewline
  have hLine : line? line = line? ended := by
    rcases hEnded with rfl | rfl
    · rfl
    · exact line?_concat (by decide)
  rw [recognised_of_no_newline hNewline, hLine, recognised, hLines, recognised]
  cases hRead : line? ended with
  | none => rw [List.filterMap_cons_none hRead]; rfl
  | some l => rw [List.filterMap_cons_some hRead]; rfl

/-- A newline between two texts keeps their lines apart. -/
theorem recognised_append_newline :
    recognised (cs ++ '\n' :: rest) = recognised cs ++ recognised rest := by
  induction hLength : cs.length using Nat.strongRecOn generalizing cs with
  | ind n ih =>
    by_cases hNewline : '\n' ∈ cs
    · -- the first line is split off, and what is below it is shorter
      obtain ⟨line, below, rfl, hLine⟩ := List.eq_append_cons_of_mem hNewline
      have hShorter : below.length < n := by
        rw [← hLength, List.length_append, List.length_cons]
        omega
      rw [List.append_assoc, List.cons_append, recognised_line_append_newline hLine,
        recognised_line_append_newline hLine, ih below.length hShorter rfl, List.append_assoc]
    · exact recognised_line_append_newline hNewline

/-! ## The diagnostics of recognised lines -/

theorem file_after (previous : Option Diagnostic) (l : Line) : (l.after previous).file = l.file := by
  cases l with
  | complete d => rfl
  | related file row column message => cases previous <;> rfl

theorem map_file_entries (previous : Option Diagnostic) (ls : List Line) :
    (entries previous ls).map Diagnostic.file = ls.map Line.file := by
  induction ls generalizing previous with
  | nil => rfl
  | cons l ls ih => rw [entries_cons, List.map_cons, List.map_cons, file_after, ih]

theorem exists_mem_ofText_iff : (∃ d ∈ ofText cs, d.file = file) ↔
    ∃ line ∈ lines cs, ∃ l, line? line = some l ∧ l.file = file := by
  rw [← List.mem_map, ofText, map_file_entries, List.mem_map, recognised]
  simp only [List.mem_filterMap]
  constructor
  · rintro ⟨l, ⟨line, hLine, hRead⟩, hFile⟩
    exact ⟨line, hLine, l, hRead, hFile⟩
  · rintro ⟨line, hLine, l, hRead, hFile⟩
    exact ⟨l, ⟨line, hLine, hRead⟩, hFile⟩

theorem ofText_of_no_newline (hNewline : '\n' ∉ line) :
    ofText line = ((line? line).map (Line.after none)).toList := by
  rw [ofText, recognised_of_no_newline hNewline]
  cases line? line <;> rfl

theorem entries_append (previous : Option Diagnostic) (ls ms : List Line) :
    entries previous (ls ++ ms) =
      entries previous ls ++ entries ((entries previous ls).getLast?.or previous) ms := by
  induction ls generalizing previous with
  | nil => rfl
  | cons l ls ih =>
    have hLast : (entries (some (l.after previous)) ls).getLast?.or (some (l.after previous)) =
        (l.after previous :: entries (some (l.after previous)) ls).getLast?.or previous := by
      rw [List.getLast?_cons]
      cases (entries (some (l.after previous)) ls).getLast? <;> rfl
    rw [List.cons_append, entries_cons, entries_cons, ih, hLast, List.cons_append]

theorem after_of_isRelated (previous : Option Diagnostic) (h : l.isRelated = true) :
    l.after (some e) = like e (l.after previous) := by
  cases l with
  | complete d => cases h
  | related file row column message => cases previous <;> rfl

theorem after_of_not_isRelated (previous q : Option Diagnostic) (h : ¬ l.isRelated = true) :
    l.after q = l.after previous := by
  cases l with
  | complete d => rfl
  | related file row column message => exact absurd rfl h

theorem like_like (e d : Diagnostic) : like (like e d) = like e := rfl

/-- What stands above a list of lines is felt by its first related lines only. -/
theorem entries_some (e : Diagnostic) (previous : Option Diagnostic) (ls : List Line) :
    entries (some e) ls =
      ((entries previous ls).take (ls.takeWhile Line.isRelated).length).map (like e) ++
        (entries previous ls).drop (ls.takeWhile Line.isRelated).length := by
  induction ls generalizing e previous with
  | nil => rfl
  | cons l ls ih =>
    by_cases hRelated : l.isRelated = true
    · rw [List.takeWhile_cons_of_pos hRelated, entries_cons, entries_cons,
        after_of_isRelated previous hRelated, ih _ (some (l.after previous)), like_like]
      rfl
    · rw [List.takeWhile_cons_of_neg hRelated, entries_cons, entries_cons,
        after_of_not_isRelated previous (some e) hRelated]
      rfl

theorem carried_of_mem_take (hMem : d ∈ (entries previous ls).take
    (ls.takeWhile Line.isRelated).length) :
    d.severity = (previous.map Diagnostic.severity).getD .error ∧
      d.code = (previous.map Diagnostic.code).getD "" := by
  induction ls generalizing previous with
  | nil => simp at hMem
  | cons l ls ih =>
    by_cases hRelated : l.isRelated = true
    · have hAfter : (l.after previous).severity = (previous.map Diagnostic.severity).getD .error ∧
          (l.after previous).code = (previous.map Diagnostic.code).getD "" := by
        cases l with
        | complete d => cases hRelated
        | related file row column message => cases previous <;> exact ⟨rfl, rfl⟩
      rw [List.takeWhile_cons_of_pos hRelated, entries_cons, List.length_cons,
        List.take_succ_cons] at hMem
      rcases List.mem_cons.mp hMem with rfl | hMem
      · exact hAfter
      · obtain ⟨hSeverity, hCode⟩ := ih hMem
        exact ⟨hSeverity.trans hAfter.1, hCode.trans hAfter.2⟩
    · rw [List.takeWhile_cons_of_neg hRelated] at hMem
      simp at hMem

end ScriptBuild.Diagnostic
