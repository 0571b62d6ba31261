import Mathlib.Data.List.ReduceOption
import ScriptBuild.Proofs.Diagnostic.Recognised

/-!
# Related lines and the verdict

A related line has the severity and the code of the diagnostic above it, which may be a related line
itself. What is handed down in this way is the same at every line of such a run, so a related line,
like a line that states nothing, can be left out without changing what any other line states. Whether
a text holds an error is therefore decided by the lines that have a severity of their own, and by a
related line only if nothing is stated above it.
-/

namespace ScriptBuild.Diagnostic

set_option autoImplicit false

open Text

/-! ## Kinds of lines -/

/-- A line that has a severity of its own. -/
inductive Judges (line : List Char) : Severity → Prop
  | located {p : Placing} {rest : List Char} {u : Wording} (hSplit : Preferred IsWorded line p rest)
      (hWords : Worded rest u) : Judges line u.severity
  | unlocated {u : Wording} (hNowhere : ¬ Placed IsWorded line) (hWords : Worded line u) :
      Judges line u.severity

/-- A line that only points at another place of the diagnostic above it. -/
structure PointsBack (line : List Char) : Prop where
  nowhere : ¬ Placed IsWorded line
  wordless : ¬ IsWorded line
  marked : ∃ p message, Preferred Anything line p message ∧ relatedMarker.toList <:+: message

structure Silent (line : List Char) : Prop where
  unjudged : ∀ severity, ¬ Judges line severity
  pointless : ¬ PointsBack line

variable {cs line : List Char} {ls above below : List (List Char)} {l : Line} {lines : List Line}
  {severity : Severity} {d : Diagnostic} {previous other : Option Diagnostic} {keep : Nat → Bool}

theorem line?_of_judges (h : Judges line severity) :
    ∃ d, line? line = some (.complete d) ∧ d.severity = severity := by
  cases h with
  | located hSplit hWords =>
    rw [line?, located?_of_preferred hSplit hWords]
    exact ⟨_, rfl, rfl⟩
  | unlocated hNowhere hWords =>
    rw [line?, located?_eq_none_iff.mpr hNowhere, unlocated?_of_worded hWords]
    exact ⟨_, rfl, rfl⟩

theorem line?_of_pointsBack (h : PointsBack line) :
    ∃ l, line? line = some l ∧ l.isRelated = true := by
  obtain ⟨p, message, hSplit, hMarked⟩ := h.marked
  rw [line?, located?_eq_none_iff.mpr h.nowhere, unlocated?_eq_none_iff.mpr h.wordless,
    related?_of_preferred hSplit hMarked]
  exact ⟨_, rfl, rfl⟩

theorem line?_of_silent (h : Silent line) : line? line = none := by
  have hNowhere : ¬ Placed IsWorded line := by
    intro hPlaced
    obtain ⟨p, rest, hSplit⟩ := exists_preferred_of_placed readsBehind_locatedTail? hPlaced
    obtain ⟨u, hWords⟩ := hSplit.behind
    exact h.unjudged _ (.located hSplit hWords)
  have hWordless : ¬ IsWorded line := by
    intro ⟨u, hWords⟩
    exact h.unjudged _ (.unlocated hNowhere hWords)
  have hUnmarked : related? line = none := by
    apply related?_eq_none
    intro p message hSplit hMarked
    exact h.pointless ⟨hNowhere, hWordless, p, message, hSplit, hMarked⟩
  rw [line?, located?_eq_none_iff.mpr hNowhere, unlocated?_eq_none_iff.mpr hWordless, hUnmarked]

theorem PointsBack.not_judges (h : PointsBack line) : ¬ Judges line severity := by
  intro hJudges
  cases hJudges with
  | located hSplit hWords => exact h.nowhere ⟨_, _, hSplit.joined, hSplit.behind⟩
  | unlocated _ hWords => exact h.wordless ⟨_, hWords⟩

theorem line?_kinds (line : List Char) :
    (∃ d, line? line = some (.complete d) ∧ Judges line d.severity) ∨
    (∃ l, line? line = some l ∧ l.isRelated = true ∧ PointsBack line) ∨
    (line? line = none ∧ Silent line) := by
  by_cases hJudges : ∃ severity, Judges line severity
  · obtain ⟨severity, hJudges⟩ := hJudges
    obtain ⟨d, hLine, hSeverity⟩ := line?_of_judges hJudges
    exact Or.inl ⟨d, hLine, hSeverity ▸ hJudges⟩
  by_cases hBack : PointsBack line
  · obtain ⟨l, hLine, hRelated⟩ := line?_of_pointsBack hBack
    exact Or.inr (Or.inl ⟨l, hLine, hRelated, hBack⟩)
  · have hSilent : Silent line := ⟨fun severity h => hJudges ⟨severity, h⟩, hBack⟩
    exact Or.inr (Or.inr ⟨line?_of_silent hSilent, hSilent⟩)

theorem judges_iff :
    Judges line severity ↔ ∃ d, line? line = some (.complete d) ∧ d.severity = severity := by
  constructor
  · exact line?_of_judges
  · intro ⟨d, hLine, hSeverity⟩
    obtain ⟨e, hSame, hJudges⟩ | ⟨l, hSame, hRelated, -⟩ | ⟨hSame, -⟩ := line?_kinds line
    · rw [hLine] at hSame
      cases hSame
      exact hSeverity ▸ hJudges
    · rw [hLine] at hSame
      cases hSame
      cases hRelated
    · rw [hLine] at hSame
      cases hSame

theorem pointsBack_iff : PointsBack line ↔ ∃ l, line? line = some l ∧ l.isRelated = true := by
  constructor
  · exact line?_of_pointsBack
  · intro ⟨l, hLine, hRelated⟩
    obtain ⟨e, hSame, -⟩ | ⟨m, -, -, hBack⟩ | ⟨hSame, -⟩ := line?_kinds line
    · rw [hLine] at hSame
      cases hSame
      cases hRelated
    · exact hBack
    · rw [hLine] at hSame
      cases hSame

theorem silent_iff : Silent line ↔ line? line = none := by
  constructor
  · exact line?_of_silent
  · intro hLine
    obtain ⟨e, hSame, -⟩ | ⟨m, hSame, -, -⟩ | ⟨-, hSilent⟩ := line?_kinds line
    · rw [hLine] at hSame
      cases hSame
    · rw [hLine] at hSame
      cases hSame
    · exact hSilent

/-! ## What is handed down -/

/-- The severity and the code that a related line takes over. -/
def carried (previous : Option Diagnostic) : Severity × String :=
  ((previous.map Diagnostic.severity).getD .error, (previous.map Diagnostic.code).getD "")

theorem after_related (previous : Option Diagnostic) (file : Path) (row column : UInt32)
    (message : String) : (Line.related file row column message).after previous =
      ⟨file, row, column, (carried previous).1, (carried previous).2, message⟩ := by
  cases previous <;> rfl

theorem after_congr (h : carried previous = carried other) (l : Line) :
    l.after previous = l.after other := by
  cases l with
  | complete d => rfl
  | related file row column message => rw [after_related, after_related, h]

theorem carried_after (h : l.isRelated = true) :
    carried (some (l.after previous)) = carried previous := by
  cases l with
  | complete d => cases h
  | related file row column message =>
    rw [after_related]
    rfl

def statements (previous : Option Diagnostic) : List (List Char) → List (Option Diagnostic)
  | [] => []
  | line :: below =>
    (line? line).map (Line.after previous) ::
      statements (((line? line).map (Line.after previous)).or previous) below

/-- Leaving out lines without a severity of their own changes nothing in what the others state. The
diagnostic above a line may become another one, but what it hands down stays the same. -/
theorem entries_keepAt (hCarried : carried previous = carried other)
    (hKeep : ∀ i line, ls[i]? = some line → keep i = false → ∀ severity, ¬ Judges line severity) :
    entries previous ((keepAt keep ls).filterMap line?) =
      (keepAt keep (statements other ls)).reduceOption := by
  -- what stands above differs between the two sides as soon as a related line is left out
  induction ls generalizing keep previous other with
  | nil => rfl
  | cons line below ih =>
    have hBelow : ∀ i next, below[i]? = some next → keep (i + 1) = false →
        ∀ severity, ¬ Judges next severity := by
      intro i next hNext hDropped
      exact hKeep (i + 1) next hNext hDropped
    rw [keepAt, statements, keepAt]
    cases hLine : line? line with
    | none =>
      rw [Option.map_none, Option.none_or]
      split
      · rw [List.filterMap_cons_none hLine, List.reduceOption_cons_of_none]
        exact ih hCarried hBelow
      · exact ih hCarried hBelow
    | some l =>
      rw [Option.map_some, Option.some_or]
      split
      · rw [List.filterMap_cons_some hLine, List.reduceOption_cons_of_some, entries_cons,
          after_congr hCarried l, ih rfl hBelow]
      · rename_i hDropped
        cases l with
        | complete d =>
          have hJudges : Judges line d.severity := judges_iff.mpr ⟨d, hLine, rfl⟩
          exact absurd hJudges (hKeep 0 line rfl (Bool.eq_false_iff.mpr hDropped) _)
        | related file row column message =>
          -- the line that is left out hands down what it would have taken over
          apply ih _ hBelow
          rw [carried_after rfl, hCarried]

theorem reduceOption_statements (previous : Option Diagnostic) (ls : List (List Char)) :
    (statements previous ls).reduceOption = entries previous (ls.filterMap line?) := by
  have hAll : entries previous ((keepAt (fun _ => true) ls).filterMap line?) =
      (keepAt (fun _ => true) (statements previous ls)).reduceOption := by
    apply entries_keepAt rfl
    intro i line _ hDropped
    cases hDropped
  rw [keepAt_all, keepAt_all] at hAll
  exact hAll.symm

/-! ## Texts -/

theorem recognised_joinLines (hNewline : ∀ line ∈ ls, '\n' ∉ line) :
    recognised (joinLines ls) = ls.filterMap line? := by
  rw [List.filterMap_eq_flatMap_toList]
  induction ls with
  | nil => rfl
  | cons line below ih =>
    obtain ⟨hLine, hBelow⟩ := List.forall_mem_cons.mp hNewline
    rw [List.flatMap_cons, ← ih hBelow, ← recognised_of_no_newline hLine]
    cases below with
    | nil =>
      rw [joinLines_cons, List.flatMap_nil, List.append_nil]
      exact (List.append_nil _).symm
    | cons next below => rw [joinLines_cons_cons, recognised_append_newline]

theorem recognised_eq_filterMap_rawLines (cs : List Char) :
    recognised cs = (rawLines cs).filterMap line? := by
  have hNewline : ∀ line ∈ rawLines cs, '\n' ∉ line := fun _ hLine => newline_not_mem_rawLines hLine
  rw [← recognised_joinLines hNewline, joinLines_rawLines]

theorem ofText_eq_reduceOption_statements (cs : List Char) :
    ofText cs = (statements none (rawLines cs)).reduceOption := by
  rw [reduceOption_statements, ofText, recognised_eq_filterMap_rawLines]

theorem ofText_keepAt (hKeep : ∀ i line, (rawLines cs)[i]? = some line → keep i = false →
      PointsBack line ∨ Silent line) :
    ofText (joinLines (keepAt keep (rawLines cs))) =
      (keepAt keep (statements none (rawLines cs))).reduceOption := by
  have hNewline : ∀ line ∈ keepAt keep (rawLines cs), '\n' ∉ line := by
    intro line hLine
    exact newline_not_mem_rawLines (mem_of_mem_keepAt hLine)
  rw [ofText, recognised_joinLines hNewline]
  apply entries_keepAt rfl
  intro i line hLine hDropped severity hJudges
  obtain hBack | hSilent := hKeep i line hLine hDropped
  · exact hBack.not_judges hJudges
  · exact hSilent.unjudged severity hJudges

theorem exists_entry_of_pointsBack (hLines : rawLines cs = above ++ line :: below)
    (hBack : PointsBack line) :
    ∃ ds d es, ofText cs = ds ++ d :: es ∧ AreEntries none above ds ∧
      IsEntry ds.getLast? line (some d) ∧ AreEntries (some d) below es ∧
      ∀ e ∈ ds.getLast?, d.severity = e.severity ∧ d.code = e.code := by
  obtain ⟨l, hLine, hRelated⟩ := pointsBack_iff.mp hBack
  have hAbove := areEntries_iff.mpr (rfl : entries none (above.filterMap line?) = _)
  generalize entries none (above.filterMap line?) = ds at hAbove
  have hSplit : ofText cs = ds ++ l.after ds.getLast? ::
      entries (some (l.after ds.getLast?)) (below.filterMap line?) := by
    rw [ofText, recognised_eq_filterMap_rawLines, hLines, List.filterMap_append,
      List.filterMap_cons_some hLine, entries_append, Option.or_none, areEntries_iff.mp hAbove,
      entries_cons]
  refine ⟨ds, _, _, hSplit, hAbove, ?_, areEntries_iff.mpr rfl, ?_⟩
  · rw [isEntry_iff, hLine, Option.map_some]
  · intro e hLast
    have hHanded : carried (some (l.after ds.getLast?)) = carried ds.getLast? :=
      carried_after hRelated
    rw [Option.mem_def.mp hLast] at hHanded ⊢
    exact Prod.mk.inj hHanded

/-- Among the diagnostics of recognised lines there is an error if a line states one by itself, or if
the first line takes one over. -/
theorem exists_error_entries_iff (previous : Option Diagnostic) (lines : List Line) :
    (∃ d ∈ entries previous lines, d.severity = .error) ↔
      (∃ l ∈ lines.head?, l.isRelated = true) ∧ (carried previous).1 = .error ∨
        ∃ d, Line.complete d ∈ lines ∧ d.severity = .error := by
  induction lines generalizing previous with
  | nil => simp
  | cons l rest ih =>
    rw [entries_cons, List.exists_mem_cons_iff, ih]
    cases l with
    | complete d =>
      have hHead : carried (some d) = (d.severity, d.code) := rfl
      simp only [Line.after, hHead, List.head?_cons, List.mem_cons, Line.complete.injEq]
      constructor
      · intro h
        obtain hError | ⟨-, hError⟩ | ⟨e, hMem, hError⟩ := h
        · exact Or.inr ⟨d, Or.inl rfl, hError⟩
        · exact Or.inr ⟨d, Or.inl rfl, hError⟩
        · exact Or.inr ⟨e, Or.inr hMem, hError⟩
      · intro h
        obtain ⟨⟨l, hFirst, hRelated⟩, -⟩ | ⟨e, hMem, hError⟩ := h
        · cases hFirst
          cases hRelated
        · obtain hSame | hMem := hMem
          · exact Or.inl (hSame ▸ hError)
          · exact Or.inr (Or.inr ⟨e, hMem, hError⟩)
    | related file row column message =>
      have hRelated : (Line.related file row column message).isRelated = true := rfl
      have hSeverity : ((Line.related file row column message).after previous).severity =
          (carried previous).1 := by rw [after_related]
      rw [hSeverity, carried_after hRelated]
      constructor
      · intro h
        obtain hError | ⟨-, hError⟩ | ⟨e, hMem, hError⟩ := h
        · exact Or.inl ⟨⟨_, rfl, hRelated⟩, hError⟩
        · exact Or.inl ⟨⟨_, rfl, hRelated⟩, hError⟩
        · exact Or.inr ⟨e, List.mem_cons_of_mem _ hMem, hError⟩
      · intro h
        obtain ⟨-, hError⟩ | ⟨e, hMem, hError⟩ := h
        · exact Or.inl hError
        · obtain hSame | hMem := List.mem_cons.mp hMem
          · cases hSame
          · exact Or.inr (Or.inr ⟨e, hMem, hError⟩)

theorem first_recognised_related_iff :
    (∃ l ∈ (recognised cs).head?, l.isRelated = true) ↔
      ∃ above line below, rawLines cs = above ++ line :: below ∧ (∀ other ∈ above, Silent other) ∧
        PointsBack line := by
  rw [recognised_eq_filterMap_rawLines, List.head?_filterMap]
  constructor
  · intro ⟨l, hFirst, hRelated⟩
    obtain ⟨above, line, below, hLines, hLine, hAbove⟩ := List.findSome?_eq_some_iff.mp hFirst
    exact ⟨above, line, below, hLines, fun other hOther => silent_iff.mpr (hAbove other hOther),
      pointsBack_iff.mpr ⟨l, hLine, hRelated⟩⟩
  · intro ⟨above, line, below, hLines, hAbove, hBack⟩
    obtain ⟨l, hLine, hRelated⟩ := pointsBack_iff.mp hBack
    refine ⟨l, ?_, hRelated⟩
    apply List.findSome?_eq_some_iff.mpr
    exact ⟨above, line, below, hLines, hLine, fun other hOther => silent_iff.mp (hAbove other hOther)⟩

theorem exists_error_iff : (∃ d ∈ ofText cs, d.severity = .error) ↔
    (∃ above line below, rawLines cs = above ++ line :: below ∧ (∀ other ∈ above, Silent other) ∧
      PointsBack line) ∨ ∃ line ∈ rawLines cs, Judges line .error := by
  have hFirst : (carried none).1 = .error := rfl
  rw [ofText, exists_error_entries_iff, first_recognised_related_iff, and_iff_left hFirst,
    recognised_eq_filterMap_rawLines]
  apply or_congr Iff.rfl
  constructor
  · intro h
    obtain ⟨d, hMem, hError⟩ := h
    obtain ⟨line, hLine, hRead⟩ := List.mem_filterMap.mp hMem
    exact ⟨line, hLine, judges_iff.mpr ⟨d, hRead, hError⟩⟩
  · intro h
    obtain ⟨line, hLine, hJudges⟩ := h
    obtain ⟨d, hRead, hError⟩ := judges_iff.mp hJudges
    exact ⟨d, List.mem_filterMap.mpr ⟨line, hLine, hRead⟩, hError⟩

/-- A related line has the severity and the code of the diagnostic above it. Any of the related and
the silent lines can be left out, and the other lines state what they stated before. There is an
error exactly if a line has that severity by itself or the first line that states anything is a
related one. -/
theorem ofText_of_related_lines (cs : List Char) :
    (∀ above line below, rawLines cs = above ++ line :: below → PointsBack line →
      ∃ ds d es, ofText cs = ds ++ d :: es ∧ AreEntries none above ds ∧
        IsEntry ds.getLast? line (some d) ∧ AreEntries (some d) below es ∧
        ∀ e ∈ ds.getLast?, d.severity = e.severity ∧ d.code = e.code) ∧
    (ofText cs = (statements none (rawLines cs)).reduceOption ∧
      ∀ keep : Nat → Bool,
        (∀ i line, (rawLines cs)[i]? = some line → keep i = false →
          PointsBack line ∨ Silent line) →
        ofText (joinLines (keepAt keep (rawLines cs))) =
          (keepAt keep (statements none (rawLines cs))).reduceOption) ∧
    ((∃ d ∈ ofText cs, d.severity = .error) ↔
      (∃ above line below, rawLines cs = above ++ line :: below ∧ (∀ other ∈ above, Silent other) ∧
        PointsBack line) ∨ ∃ line ∈ rawLines cs, Judges line .error) := by
  refine ⟨?_, ⟨ofText_eq_reduceOption_statements cs, ?_⟩, exists_error_iff⟩
  · intro above line below hLines hBack
    exact exists_entry_of_pointsBack hLines hBack
  · intro keep hKeep
    exact ofText_keepAt hKeep

/-- Of two places below a warning, with noise in between, the first and the noise are left out. The
second one still is a warning. -/
theorem ofText_of_warned_places :
    let line (place : String) : List Char := place.toList ++ relatedMarker.toList
    let text := joinLines ["a.cs(1,2): warning CS1: x".toList, "noise".toList, line "b.cs(3,4): ",
      line "c.cs(5,6): "]
    let keep (i : Nat) : Bool := i == 0 || i == 3
    let warning : Diagnostic := ⟨⟨"a.cs"⟩, 1, 2, .warning, "CS1", "x"⟩
    (∀ i line, (rawLines text)[i]? = some line → keep i = false → PointsBack line ∨ Silent line) ∧
      ofText (joinLines (keepAt keep (rawLines text))) =
        [warning, ⟨⟨"c.cs"⟩, 5, 6, .warning, "CS1", relatedMarker⟩] ∧
      PointsBack (line "b.cs(3,4): ") ∧
      ∃ ds d es, ofText text = ds ++ d :: es ∧ AreEntries none ["a.cs(1,2): warning CS1: x".toList,
        "noise".toList] ds ∧ ∀ e ∈ ds.getLast?, d.severity = e.severity ∧ d.code = e.code := by
  intro line text keep warning
  have hStated : (keepAt keep (statements none (rawLines text))).reduceOption =
      [warning, ⟨⟨"c.cs"⟩, 5, 6, .warning, "CS1", relatedMarker⟩] := by
    decide +kernel +revert
  have hLines : rawLines text = ["a.cs(1,2): warning CS1: x".toList, "noise".toList] ++
      line "b.cs(3,4): " :: [line "c.cs(5,6): "] := by
    decide +kernel +revert
  have hBack : PointsBack (line "b.cs(3,4): ") := by
    have hRead : line? (line "b.cs(3,4): ") = some (.related ⟨"b.cs"⟩ 3 4 relatedMarker) := by
      decide +kernel +revert
    exact pointsBack_iff.mpr ⟨_, hRead, rfl⟩
  have hSilent : Silent "noise".toList := silent_iff.mpr (by decide +kernel)
  have hKeep : ∀ i line, (rawLines text)[i]? = some line → keep i = false →
      PointsBack line ∨ Silent line := by
    intro i other hOther hDropped
    rw [hLines] at hOther
    match i with
    | 0 => cases hDropped
    | 1 => exact Or.inr (Option.some.inj hOther ▸ hSilent)
    | 2 => exact Or.inl (Option.some.inj hOther ▸ hBack)
    | 3 => cases hDropped
    | i + 4 => cases hOther
  obtain ⟨ds, d, es, hText, hAbove, -, -, hLast⟩ :=
    (ofText_of_related_lines text).1 _ _ _ hLines hBack
  refine ⟨hKeep, ?_, hBack, ds, d, es, hText, hAbove, hLast⟩
  rw [(ofText_of_related_lines text).2.1.2 keep hKeep, hStated]

end ScriptBuild.Diagnostic
