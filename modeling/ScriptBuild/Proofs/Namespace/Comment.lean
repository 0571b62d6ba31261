import ScriptBuild.Proofs.Namespace.Joined

/-!
# Comments

A line that begins with two slashes is read like any other one. The slashes keep the start of the
line from being in statement position, so what such a line declares stands behind a semicolon or a
brace within it. A text declares what it declares without these lines, and besides that the names
that they declare in this way.
-/

namespace ScriptBuild.Scan

set_option autoImplicit false

open Text Declaration

variable {c : Char} {cs line before gap : List Char} {ls : List (List Char)} {name : String}

/-- Whether the first characters of a line, less the white space before them, are two slashes. -/
def isComment (line : List Char) : Bool := ['/', '/'].isPrefixOf (dropBlank line)

def withoutComments (cs : List Char) : List Char :=
  joinLines ((rawLines cs).filter fun line => !isComment line)

/-- A line declares a name right behind the end of a statement or block within it. -/
def DeclaresBehind (line : List Char) (name : String) : Prop :=
  ∃ before c gap decl rest, line = before ++ c :: (gap ++ (decl ++ rest)) ∧
    (c = ';' ∨ c = '{' ∨ c = '}') ∧ Blank gap ∧ Written name.toList decl

theorem isComment_iff : isComment line = true ↔
    ∃ gap rest, Blank gap ∧ line = gap ++ '/' :: '/' :: rest := by
  rw [isComment, List.isPrefixOf_iff_prefix]
  constructor
  · intro ⟨rest, hRest⟩
    obtain ⟨gap, hGap, hLine⟩ := exists_blank_append_dropBlank line
    refine ⟨gap, rest, hGap, ?_⟩
    rw [hLine, ← hRest]
    rfl
  · intro ⟨gap, rest, hGap, hLine⟩
    refine ⟨rest, ?_⟩
    rw [hLine, dropBlank_append_cons hGap (by decide)]
    rfl

/-! ## Positions in a comment -/

theorem atStatement_append_blank (hGap : Blank gap) :
    AtStatement (before ++ gap) ↔ AtStatement before := by
  induction gap using List.reverseRecOn with
  | nil => rw [List.append_nil]
  | append_singleton gap c ih =>
    obtain ⟨hGap, hc⟩ := blank_append.mp hGap
    rw [← List.append_assoc, atStatement_concat, if_pos (blank_cons.mp hc).1, ih hGap]

theorem declares_of_declaresBehind (h : DeclaresBehind line name) : Declares line name := by
  obtain ⟨before, c, gap, decl, rest, hLine, hEnds, hGap, hWritten⟩ := h
  have hBlank : isBlank c = false := by
    obtain rfl | rfl | rfl := hEnds
    all_goals decide
  have hAt : AtStatement ((before ++ [c]) ++ gap) := by
    rw [atStatement_append_blank hGap, atStatement_concat, hBlank]
    exact endsStatement_iff.mpr hEnds
  refine ⟨(before ++ [c]) ++ gap, decl, rest, ?_, hAt, hWritten⟩
  rw [hLine]
  simp

/-- The start of a comment is no place for a declaration. -/
theorem declaresBehind_of_isComment (hComment : isComment line = true) (h : Declares line name) :
    DeclaresBehind line name := by
  obtain ⟨before, decl, rest, hLine, hAt, hWritten⟩ := h
  obtain ⟨gap, hGap, hBefore⟩ := exists_dropBlankEnd_append_blank before
  obtain hStart | ⟨front, c, hFront, hEnds⟩ := hAt
  · -- the line would begin with the keyword and with the slashes
    exfalso
    obtain ⟨indent, comment, hIndent, hSlashes⟩ := isComment_iff.mp hComment
    obtain ⟨body, hDecl, -⟩ := exists_body_of_written hWritten
    rw [hStart, List.nil_append] at hBefore
    have hFirst : dropBlank line = 'u' :: (body ++ [';'] ++ rest) := by
      rw [hLine, hBefore, hDecl, List.append_assoc]
      exact dropBlank_append_cons hGap (by decide)
    rw [hSlashes, dropBlank_append_cons hIndent (by decide)] at hFirst
    cases hFirst
  · rw [hFront] at hBefore
    refine ⟨front, c, gap, decl, rest, ?_, hEnds, hGap, hWritten⟩
    rw [hLine, hBefore]
    simp

/-! ## Texts without their comments -/

theorem mem_names_text_joinLines (hNewline : ∀ line ∈ ls, '\n' ∉ line) :
    name ∈ (text (joinLines ls)).names ↔ ∃ line ∈ ls, Declares line name := by
  induction ls with
  | nil => simp [joinLines, mem_names_text_iff]
  | cons line below ih =>
    obtain ⟨hLine, hBelow⟩ := List.forall_mem_cons.mp hNewline
    rw [List.exists_mem_cons_iff, ← ih hBelow, ← mem_names_text_of_no_newline hLine]
    cases below with
    | nil => simp [joinLines, mem_names_text_iff]
    | cons next below => rw [joinLines_cons_cons, mem_names_text_append_newline]

theorem mem_names_text_iff_rawLines :
    name ∈ (text cs).names ↔ ∃ line ∈ rawLines cs, Declares line name := by
  have hNewline : ∀ line ∈ rawLines cs, '\n' ∉ line := fun _ hLine => newline_not_mem_rawLines hLine
  rw [← mem_names_text_joinLines hNewline, joinLines_rawLines]

theorem mem_names_withoutComments : name ∈ (text (withoutComments cs)).names ↔
    ∃ line ∈ rawLines cs, isComment line = false ∧ Declares line name := by
  have hNewline : ∀ line ∈ (rawLines cs).filter (fun line => !isComment line), '\n' ∉ line := by
    intro line hLine
    exact newline_not_mem_rawLines (List.mem_of_mem_filter hLine)
  rw [withoutComments, mem_names_text_joinLines hNewline]
  simp only [List.mem_filter, Bool.not_eq_true', and_assoc]

theorem mem_names_text_iff_comments : name ∈ (text cs).names ↔
    name ∈ (text (withoutComments cs)).names ∨
      ∃ line ∈ rawLines cs, isComment line = true ∧ DeclaresBehind line name := by
  rw [mem_names_text_iff_rawLines, mem_names_withoutComments]
  constructor
  · intro ⟨line, hLine, hDeclares⟩
    cases hComment : isComment line with
    | false => exact Or.inl ⟨line, hLine, hComment, hDeclares⟩
    | true => exact Or.inr ⟨line, hLine, hComment, declaresBehind_of_isComment hComment hDeclares⟩
  · intro h
    obtain ⟨line, hLine, -, hDeclares⟩ | ⟨line, hLine, -, hBehind⟩ := h
    · exact ⟨line, hLine, hDeclares⟩
    · exact ⟨line, hLine, declares_of_declaresBehind hBehind⟩

/-- A text declares the names that it declares without its comments, and those that a comment
declares behind a semicolon or a brace. So the comments can be left out exactly if each of the
latter is declared outside of them as well. -/
theorem text_withoutComments_iff (cs : List Char) :
    (∀ name, name ∈ (text cs).names ↔ name ∈ (text (withoutComments cs)).names ∨
      ∃ line ∈ rawLines cs, isComment line = true ∧ DeclaresBehind line name) ∧
    (text (withoutComments cs) = text cs ↔
      ∀ line ∈ rawLines cs, isComment line = true → ∀ name, DeclaresBehind line name →
        name ∈ (text (withoutComments cs)).names) := by
  refine ⟨fun name => mem_names_text_iff_comments, ?_⟩
  constructor
  · intro hSame line hLine hComment name hBehind
    rw [hSame]
    exact mem_names_text_iff_comments.mpr (Or.inr ⟨line, hLine, hComment, hBehind⟩)
  · intro hOutside
    apply NamespaceSet.eq_of_mem_iff
    intro name
    refine Iff.trans ?_ mem_names_text_iff_comments.symm
    constructor
    · exact Or.inl
    · intro h
      obtain hName | ⟨line, hLine, hComment, hBehind⟩ := h
      · exact hName
      · exact hOutside line hLine hComment name hBehind

/-- A comment that repeats a declaration behind a brace, and one that ends a statement only behind
its declaration. -/
theorem text_of_idle_comments :
    let cs := "using A.B;\n\t// class C { using A.B; }\r\n//using D;".toList
    (∀ line ∈ rawLines cs, isComment line = true → ∀ name, DeclaresBehind line name →
      name ∈ (text (withoutComments cs)).names) ∧ text (withoutComments cs) = text cs := by
  intro cs
  have hOutside : ∀ line ∈ rawLines cs, isComment line = true →
      ∀ name ∈ lineNames line, name ∈ (text (withoutComments cs)).names := by
    decide +kernel +revert
  have hBehind : ∀ line ∈ rawLines cs, isComment line = true → ∀ name, DeclaresBehind line name →
      name ∈ (text (withoutComments cs)).names := by
    intro line hLine hComment name hBehind
    apply hOutside line hLine hComment
    exact mem_lineNames_iff.mpr (declares_of_declaresBehind hBehind)
  exact ⟨hBehind, (text_withoutComments_iff cs).2.mpr hBehind⟩

/-- A semicolon in a comment puts what follows it in statement position. -/
theorem text_of_comment_with_semicolon :
    (¬ ∀ cs, text (withoutComments cs) = text cs) ∧
      (text "// see below; using Lib.Net;".toList).names = ["Lib.Net"] := by
  have hWith : (text "// see below; using Lib.Net;".toList).names = ["Lib.Net"] := by decide +kernel
  have hWithout : (text (withoutComments "// see below; using Lib.Net;".toList)).names = [] := by
    decide +kernel
  refine ⟨?_, hWith⟩
  intro hSame
  rw [hSame, hWith] at hWithout
  cases hWithout

end ScriptBuild.Scan
