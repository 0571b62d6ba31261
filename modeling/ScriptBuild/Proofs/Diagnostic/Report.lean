import ScriptBuild.Build.Compiler
import ScriptBuild.Build.Process
import ScriptBuild.Proofs.Diagnostic.Grammar
import ScriptBuild.Proofs.Diagnostic.Reprint

/-!
# Reports line by line

A diagnostic takes its texts from one line of the output, but for the code of a related place, which
is that of the diagnostic above. So none of its texts holds a newline, whatever the compiler prints,
and the report of the diagnostics has one line for each of them, in their order, below its first.
-/

namespace ScriptBuild

set_option autoImplicit false

open Text

namespace Diagnostic

variable {Behind : List Char → Prop} {line rest : List Char} {p : Placing} {u : Wording}
  {previous : Option Diagnostic} {d : Diagnostic} {ds : List Diagnostic}

/-! ## What a line states -/

theorem Preferred.newline_not_mem (hSplit : Preferred Behind line p rest) (hLine : '\n' ∉ line) :
    '\n' ∉ p.file ∧ '\n' ∉ rest := by
  rw [hSplit.joined, Placing.text] at hLine
  simp only [List.mem_append, not_or] at hLine
  exact ⟨hLine.1.2.1, hLine.2⟩

theorem Worded.newline_not_mem (hWords : Worded rest u) (hRest : '\n' ∉ rest) :
    '\n' ∉ u.code ∧ '\n' ∉ u.message := by
  obtain ⟨gap, -, hText⟩ := hWords
  rw [hText, Wording.text] at hRest
  simp only [List.mem_append, List.mem_cons, not_or] at hRest
  obtain ⟨-, -, -, hCode, -, -, hMessage⟩ := hRest
  exact ⟨hCode, hMessage⟩

theorem IsEntry.onOneLine (h : IsEntry previous line (some d)) (hLine : '\n' ∉ line)
    (hAbove : '\n' ∉ ((previous.map Diagnostic.code).getD "").toList) : OnOneLine d := by
  cases h with
  | located hSplit hWords _ _ =>
    obtain ⟨hFile, hRest⟩ := hSplit.newline_not_mem hLine
    obtain ⟨hCode, hMessage⟩ := hWords.newline_not_mem hRest
    refine OnOneLine.of_trim ?_ ?_ hMessage String.toList_ofList
    · simpa using hFile
    · simpa using hCode
  | unlocated _ hWords =>
    obtain ⟨hCode, hMessage⟩ := hWords.newline_not_mem hLine
    refine OnOneLine.of_trim ?_ ?_ hMessage String.toList_ofList
    · simp
    · simpa using hCode
  | related _ _ hSplit _ _ _ =>
    obtain ⟨hFile, hMessage⟩ := hSplit.newline_not_mem hLine
    refine OnOneLine.of_trim ?_ hAbove hMessage String.toList_ofList
    simpa using hFile

theorem AreEntries.onOneLine {ls : List (List Char)} (h : AreEntries previous ls ds)
    (hLines : ∀ line ∈ ls, '\n' ∉ line)
    (hAbove : '\n' ∉ ((previous.map Diagnostic.code).getD "").toList) :
    ∀ d ∈ ds, OnOneLine d := by
  induction h with
  | nil => exact List.forall_mem_nil _
  | @states previous line below d ds hStates _ ih =>
    obtain ⟨hLine, hBelow⟩ := List.forall_mem_cons.mp hLines
    have hFirst : OnOneLine d := hStates.onOneLine hLine hAbove
    exact List.forall_mem_cons.mpr ⟨hFirst, ih hBelow hFirst.code⟩
  | passes _ _ ih =>
    obtain ⟨-, hBelow⟩ := List.forall_mem_cons.mp hLines
    exact ih hBelow hAbove

theorem onOneLine_of_mem_ofText {cs : List Char} (hMem : d ∈ ofText cs) : OnOneLine d := by
  have hEntries : AreEntries none (lines cs) (ofText cs) := areEntries_iff.mpr rfl
  apply hEntries.onOneLine _ _ d hMem
  · exact fun _ hLine => not_mem_of_mem_lines hLine
  · simp

/-! ## The line of a diagnostic in a report -/

theorem isRelated_iff_marked : d.isRelated = true ↔ relatedMarker.toList <:+: d.message.toList :=
  occursIn_iff

theorem reportLine_of_marked (hMarked : relatedMarker.toList <:+: d.message.toList) :
    d.reportLine.toList = "    ".toList ++ d.message.toList := by
  rw [reportLine, if_pos (isRelated_iff_marked.mpr hMarked)]
  exact String.toList_ofList

theorem reportLine_of_unmarked (hUnmarked : ¬ relatedMarker.toList <:+: d.message.toList) :
    d.reportLine = d.text := by
  rw [reportLine, if_neg (mt isRelated_iff_marked.mp hUnmarked)]

theorem length_message_add_four_lt (d : Diagnostic) :
    d.message.toList.length + 4 < d.text.toList.length := by
  rw [toList_text]
  simp [heading, placeText]
  omega

/-- The text of a diagnostic is too long for a message that is only set in. -/
theorem reportLine_eq_iff : d.reportLine.toList = "    ".toList ++ d.message.toList ↔
    relatedMarker.toList <:+: d.message.toList := by
  constructor
  · intro hLine
    by_contra hUnmarked
    rw [reportLine_of_unmarked hUnmarked] at hLine
    have hLength : d.text.toList.length = 4 + d.message.toList.length := by
      rw [hLine, List.length_append]
      rfl
    have hLonger : d.message.toList.length + 4 < d.text.toList.length :=
      length_message_add_four_lt d
    omega
  · exact reportLine_of_marked

theorem message_suffix_reportLine (d : Diagnostic) :
    d.message.toList <:+ d.reportLine.toList := by
  by_cases hMarked : relatedMarker.toList <:+: d.message.toList
  · rw [reportLine_of_marked hMarked]
    exact List.suffix_append _ _
  · rw [reportLine_of_unmarked hMarked, toList_text]
    exact (List.suffix_cons ' ' _).trans (List.suffix_append _ _)

theorem OnOneLine.unbroken_reportLine (h : OnOneLine d) : Unbroken d.reportLine.toList := by
  by_cases hMarked : relatedMarker.toList <:+: d.message.toList
  · have hIndent : "    ".toList ++ d.message.toList =
        "   ".toList ++ ' ' :: d.message.toList := rfl
    rw [reportLine_of_marked hMarked, hIndent]
    exact unbroken_append_space (by decide) h.message h.ended
  · rw [reportLine_of_unmarked hMarked]
    exact h.unbroken_text

/-! ## Whole reports -/

theorem unbroken_of_mem_reportLines (h : ∀ d ∈ ds, OnOneLine d) :
    ∀ line ∈ reportTitle ds.length :: ds.map fun d => d.reportLine.toList, Unbroken line := by
  rw [List.forall_mem_cons, List.forall_mem_map]
  exact ⟨unbroken_reportTitle ds.length, fun d hd => (h d hd).unbroken_reportLine⟩

theorem rawLines_report (h : ∀ d ∈ ds, OnOneLine d) : rawLines (report ds).toList =
    reportTitle ds.length :: ds.map fun d => d.reportLine.toList := by
  rw [toList_report_eq_joinLines]
  apply rawLines_joinLines (List.cons_ne_nil _ _)
  exact fun line hLine => (unbroken_of_mem_reportLines h line hLine).no_newline

theorem lines_report (h : ∀ d ∈ ds, OnOneLine d) :
    lines (report ds).toList = rawLines (report ds).toList := by
  rw [rawLines_report h, toList_report_eq_joinLines]
  exact lines_joinLines (unbroken_of_mem_reportLines h)

end Diagnostic

namespace ExternalCompiler

open Diagnostic

theorem onOneLine_of_mem_diagnostics {exit : Exit} {d : Diagnostic} (hMem : d ∈ diagnostics exit) :
    OnOneLine d := by
  rcases List.mem_append.mp hMem with hOut | hErr
  · exact onOneLine_of_mem_ofText hOut
  · exact onOneLine_of_mem_ofText hErr

/-- Whatever a compiler prints on its two outputs, the report of it states the number of diagnostics
on its first line, and each of them on a line of its own. -/
theorem lines_of_report (exit : Exit) :
    let found := diagnostics exit
    let written := rawLines (BuildError.compilation found).message.toList
    (∀ d ∈ found, '\n' ∉ d.file.text.toList ∧ '\n' ∉ d.code.toList ∧ '\n' ∉ d.message.toList) ∧
      written.length = 1 + found.length ∧
      written.head? = some ("Compilation failed; ".toList ++ Nat.toDigits 10 found.length ++
        " errors: ".toList) ∧
      lines (BuildError.compilation found).message.toList = written ∧
      ∀ (i : Nat) (d : Diagnostic), found[i]? = some d →
        ∃ line, written[i + 1]? = some line ∧
          (line = "    ".toList ++ d.message.toList ↔
            relatedMarker.toList <:+: d.message.toList) ∧
          (¬ relatedMarker.toList <:+: d.message.toList → line = d.text.toList) ∧
          d.message.toList <:+ line := by
  intro found written
  have hOneLine : ∀ d ∈ found, OnOneLine d := fun d hd => onOneLine_of_mem_diagnostics hd
  have hWritten : written = reportTitle found.length :: found.map fun d => d.reportLine.toList :=
    rawLines_report hOneLine
  refine ⟨?_, ?_, ?_, lines_report hOneLine, ?_⟩
  · intro d hd
    exact ⟨(hOneLine d hd).file, (hOneLine d hd).code, (hOneLine d hd).message⟩
  · rw [hWritten, List.length_cons, List.length_map, Nat.add_comm]
  · rw [hWritten]
    rfl
  · intro i d hd
    refine ⟨d.reportLine.toList, ?_, reportLine_eq_iff, ?_, message_suffix_reportLine d⟩
    · rw [hWritten, List.getElem?_cons_succ, List.getElem?_map, hd, Option.map_some]
    · intro hUnmarked
      rw [reportLine_of_unmarked hUnmarked]

/-- A message may hold other line ends or nothing at all, and octets may be ill-formed. -/
theorem lines_of_crowded_report :
    let exit : Exit := ⟨1, utf8 "a.cs(1,2): error CS1: x\ry\u2028z\r\nwarning CS2:\n",
      0xff :: utf8 "b.cs(3,4): (Location of the symbol related to previous error)\r", .empty⟩
    let located : Diagnostic := ⟨⟨"a.cs"⟩, 1, 2, .error, "CS1", "x\ry\u2028z"⟩
    let unlocated : Diagnostic := ⟨⟨""⟩, 0, 0, .warning, "CS2", ""⟩
    let place : Diagnostic := ⟨⟨"\ufffdb.cs"⟩, 3, 4, .error, "", relatedMarker⟩
    let found := diagnostics exit
    let written := rawLines (BuildError.compilation found).message.toList
    found = [located, unlocated, place] ∧ written.length = 4 ∧
      written[2]? = some "(0,0): warning CS2: ".toList ∧
      written[3]? = some ("    ".toList ++ relatedMarker.toList) := by
  intro exit located unlocated place found written
  have hFound : found = [located, unlocated, place] := by decide +kernel +revert
  have hUnmarked : ¬ relatedMarker.toList <:+: unlocated.message.toList := by
    decide +kernel +revert
  have hStated : unlocated.text.toList = "(0,0): warning CS2: ".toList := by decide +kernel +revert
  have hSecond : found[1]? = some unlocated := by rw [hFound]; rfl
  have hThird : found[2]? = some place := by rw [hFound]; rfl
  obtain ⟨-, hLength, -, -, hLines⟩ := lines_of_report exit
  refine ⟨hFound, ?_, ?_, ?_⟩
  · calc written.length = 1 + found.length := hLength
      _ = 4 := by rw [hFound]; rfl
  · obtain ⟨line, hLine, -, hText, -⟩ := hLines 1 unlocated hSecond
    rw [hLine, hText hUnmarked, hStated]
  · obtain ⟨line, hLine, hIndented, -⟩ := hLines 2 place hThird
    rw [hLine, hIndented.mpr (List.infix_refl _)]

end ExternalCompiler

end ScriptBuild
