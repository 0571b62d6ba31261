import ScriptBuild.Proofs.Namespace.Scan
import ScriptBuild.Proofs.Text.Line
import ScriptBuild.Proofs.Text.Utf8

/-!
# Texts joined by newlines

Two texts with a newline between them declare what the one and the other declare. The newline ends
whatever character is incomplete before it, and a carriage return that it takes into the line end
was white space after the last declaration.
-/

namespace ScriptBuild.Scan

set_option autoImplicit false

open Text Declaration

variable {c : Char} {line cs rest : List Char} {name : String} {texts : List Bytes}

theorem mem_names_text_iff : name ∈ (text cs).names ↔ ∃ line ∈ lines cs, name ∈ lineNames line := by
  rw [text, NamespaceSet.mem_names_ofList, List.mem_flatMap]

theorem mem_lineNames_iff : name ∈ lineNames line ↔ Declares line name := by
  have hTracks : Tracks [] false true := ⟨rfl, by simp [atStatement_nil]⟩
  exact mem_namesFrom_iff hTracks

/-- A declaration ends with a semicolon, so another character at the end of a line is none of it. -/
theorem declares_concat (hc : c ≠ ';') : Declares (line ++ [c]) name ↔ Declares line name := by
  constructor
  · rintro ⟨before, decl, rest, hLine, hAt, hWritten⟩
    cases rest using List.reverseRecOn with
    | nil =>
      obtain ⟨body, rfl, -⟩ := exists_body_of_written hWritten
      rw [List.append_nil, ← List.append_assoc] at hLine
      obtain ⟨-, hLast⟩ := List.append_inj' hLine rfl
      exact absurd (List.singleton_inj.mp hLast) hc
    | append_singleton rest d =>
      rw [← List.append_assoc] at hLine
      obtain ⟨rfl, -⟩ := List.append_inj' hLine rfl
      exact ⟨before, decl, rest, rfl, hAt, hWritten⟩
  · rintro ⟨before, decl, rest, rfl, hAt, hWritten⟩
    exact ⟨before, decl, rest ++ [c], by simp, hAt, hWritten⟩

theorem lineNames_nil : lineNames [] = [] := by simp [lineNames, namesFrom]

theorem mem_names_text_of_no_newline (hNewline : '\n' ∉ line) :
    name ∈ (text line).names ↔ Declares line name := by
  rw [← mem_lineNames_iff, mem_names_text_iff]
  by_cases hEmpty : line = []
  · subst hEmpty
    simp [lineNames_nil]
  · rw [lines_of_no_newline hEmpty hNewline]
    simp

theorem mem_names_line_append_newline (hNewline : '\n' ∉ line) :
    name ∈ (text (line ++ '\n' :: rest)).names ↔
      name ∈ (text line).names ∨ name ∈ (text rest).names := by
  obtain ⟨ended, hEnded, hLines⟩ := exists_lines_append_newline hNewline
  have hFirst : name ∈ (text line).names ↔ name ∈ lineNames ended := by
    rw [mem_names_text_of_no_newline hNewline, mem_lineNames_iff]
    rcases hEnded with rfl | rfl
    · rfl
    · exact declares_concat (by decide)
  rw [hFirst, mem_names_text_iff, hLines, mem_names_text_iff]
  simp

/-- A newline between two texts keeps what each of them declares apart. -/
theorem mem_names_text_append_newline :
    name ∈ (text (cs ++ '\n' :: rest)).names ↔
      name ∈ (text cs).names ∨ name ∈ (text rest).names := by
  induction hLength : cs.length using Nat.strongRecOn generalizing cs with
  | ind n ih =>
    by_cases hNewline : '\n' ∈ cs
    · -- the first line is split off, and what is below it is shorter
      obtain ⟨line, below, rfl, hLine⟩ := List.eq_append_cons_of_mem hNewline
      have hShorter : below.length < n := by
        rw [← hLength, List.length_append, List.length_cons]
        omega
      rw [List.append_assoc, List.cons_append, mem_names_line_append_newline hLine,
        mem_names_line_append_newline hLine, ih below.length hShorter rfl, or_assoc]
    · exact mem_names_line_append_newline hNewline

theorem mem_names_contents_append_newline {bs rest : Bytes} :
    name ∈ (contents (bs ++ 0x0a :: rest)).names ↔
      name ∈ (contents bs).names ∨ name ∈ (contents rest).names := by
  have hDecode : decodeLossy (bs ++ 0x0a :: rest) = decodeLossy bs ++ '\n' :: decodeLossy rest :=
    decodeLossy_append_ascii (by decide) bs rest
  rw [contents, hDecode, mem_names_text_append_newline, contents, contents]

def joined (texts : List Bytes) : Bytes := List.intercalate [0x0a] texts

theorem mem_names_contents_joined :
    name ∈ (contents (joined texts)).names ↔ ∃ text ∈ texts, name ∈ (contents text).names := by
  induction texts with
  | nil => simp [joined, contents, mem_names_text_iff]
  | cons first below ih =>
    cases below with
    | nil => simp [joined]
    | cons next below =>
      have hJoined : joined (first :: next :: below) = first ++ 0x0a :: joined (next :: below) := by
        simp [joined, List.intercalate_cons_cons]
      rw [hJoined, mem_names_contents_append_newline, ih]
      simp

end ScriptBuild.Scan
