import ScriptBuild.Namespace.Scan
import ScriptBuild.Proofs.Namespace.Declaration
import ScriptBuild.Proofs.Namespace.Set

/-!
# What scripts declare

A line declares a name if one of the written forms of its declaration stands anywhere in statement
position. Searching from left to right, each time from the end of the declaration before, finds
exactly these names: no statement position lies strictly within a declaration, wherever that one
stands.
-/

namespace ScriptBuild.Scan

set_option autoImplicit false

open Text Declaration

variable {c : Char} {before cs decl gap rest : List Char} {name : String}

/-- The text before a declaration leaves it in statement position: less the white space at its end,
it is empty or ends a statement or block. -/
def AtStatement (before : List Char) : Prop :=
  dropBlankEnd before = [] ∨
    ∃ front c, dropBlankEnd before = front ++ [c] ∧ (c = ';' ∨ c = '{' ∨ c = '}')

def Declares (line : List Char) (name : String) : Prop :=
  ∃ before decl rest, line = before ++ decl ++ rest ∧ AtStatement before ∧
    Written name.toList decl

def DeclaresAfter (before cs : List Char) (name : String) : Prop :=
  ∃ gap decl rest, cs = gap ++ decl ++ rest ∧ AtStatement (before ++ gap) ∧
    Written name.toList decl

theorem endsStatement_iff : endsStatement c = true ↔ c = ';' ∨ c = '{' ∨ c = '}' := by
  simp [endsStatement, or_assoc]

theorem atStatement_nil : AtStatement [] := Or.inl rfl

theorem atStatement_concat :
    AtStatement (before ++ [c]) ↔
      if isBlank c then AtStatement before else endsStatement c = true := by
  rw [AtStatement, dropBlankEnd_concat]
  split
  · rfl
  · rw [endsStatement_iff]
    constructor
    · rintro (h | ⟨front, d, h, hd⟩)
      · simp at h
      · obtain ⟨-, hcd⟩ := List.append_inj' h rfl
        obtain rfl : c = d := by simpa using hcd
        exact hd
    · intro h
      exact Or.inr ⟨before, c, rfl, h⟩

/-- A word before the keyword is no statement position, so the test for one hides nothing. -/
theorem not_isWord_of_atStatement (h : AtStatement (before ++ [c])) : isWord c = false := by
  rw [atStatement_concat] at h
  split at h
  · rename_i hBlank
    exact not_isWord_of_isBlank hBlank
  · rcases endsStatement_iff.mp h with rfl | rfl | rfl <;> decide

theorem not_endsStatement_of_isBlank (h : isBlank c = true) : endsStatement c = false := by
  by_contra hEnds
  rcases endsStatement_iff.mp (by simpa using hEnds) with rfl | rfl | rfl <;>
    exact absurd h (by decide)

theorem not_endsStatement_of_isNameChar (h : isNameChar c = true) : endsStatement c = false := by
  by_contra hEnds
  rcases endsStatement_iff.mp (by simpa using hEnds) with rfl | rfl | rfl <;>
    exact absurd h (by decide)

/-! ## Within a declaration -/

theorem not_endsStatement_of_identifier (h : Identifier cs) :
    ∀ c ∈ cs, endsStatement c = false := by
  obtain ⟨d, letters, rfl, hd, hLetters⟩ := h
  intro c hc
  rcases List.mem_cons.mp hc with rfl | hc
  · exact not_endsStatement_of_isNameChar (isNameChar_of_isNameStart hd)
  · exact not_endsStatement_of_isNameChar (hLetters c hc)

theorem not_endsStatement_of_dotted (h : Dotted cs) : ∀ c ∈ cs, endsStatement c = false := by
  induction h with
  | single hName => exact not_endsStatement_of_identifier hName
  | cons hName _ ih =>
    intro c hc
    rcases List.mem_append.mp hc with hc | hc
    · exact not_endsStatement_of_identifier hName c hc
    · rcases List.mem_cons.mp hc with rfl | hc
      · decide
      · exact ih c hc

theorem not_endsStatement_of_aliasPart (h : AliasPart cs) : ∀ c ∈ cs, endsStatement c = false := by
  cases h with
  | absent => simp
  | present hAlias hBefore hBehind =>
    intro c hc
    simp only [List.mem_append, List.mem_cons] at hc
    rcases hc with (hc | hc) | rfl | hc
    · exact not_endsStatement_of_identifier hAlias c hc
    · exact not_endsStatement_of_isBlank (hBefore c hc)
    · decide
    · exact not_endsStatement_of_isBlank (hBehind c hc)

theorem exists_body_of_written {name : List Char} (h : Written name decl) :
    ∃ body, decl = 'u' :: body ++ [';'] ∧ ∀ c ∈ body, endsStatement c = false := by
  cases h with
  | @mk gap target _ hGap hTarget =>
  cases hTarget with
  | @mk part close hPart hName hClose =>
    refine ⟨"sing".toList ++ gap ++ part ++ name ++ close, by simp, ?_⟩
    intro c hc
    simp only [List.mem_append] at hc
    rcases hc with (((hc | hc) | hc) | hc) | hc
    · have hKeyword : "sing".toList.any endsStatement = false := by decide
      simpa using List.any_eq_false.mp hKeyword c hc
    · exact not_endsStatement_of_isBlank (hGap c hc)
    · exact not_endsStatement_of_aliasPart hPart c hc
    · exact not_endsStatement_of_dotted hName c hc
    · exact not_endsStatement_of_isBlank (hClose c hc)

theorem not_atStatement_of_body {body : List Char} (hBody : ∀ c ∈ body, endsStatement c = false) :
    ¬ AtStatement (before ++ 'u' :: body) := by
  induction body using List.reverseRecOn with
  | nil =>
    rw [atStatement_concat, if_neg (by decide)]
    decide
  | append_singleton front c ih =>
    have hFront : ∀ d ∈ front, endsStatement d = false := fun d hd =>
      hBody d (List.mem_append_left _ hd)
    have hText : before ++ 'u' :: (front ++ [c]) = (before ++ 'u' :: front) ++ [c] := by simp
    rw [hText, atStatement_concat]
    split
    · exact ih hFront
    · simp [hBody c (by simp)]

/-- Strictly within a declaration there is no statement position. -/
theorem not_atStatement_within {name : List Char} (h : Written name (gap ++ rest))
    (hGap : gap ≠ []) (hRest : rest ≠ []) : ¬ AtStatement (before ++ gap) := by
  obtain ⟨body, hDecl, hBody⟩ := exists_body_of_written h
  cases gap with
  | nil => exact absurd rfl hGap
  | cons d front =>
    rw [← List.dropLast_append_getLast hRest, ← List.append_assoc] at hDecl
    obtain ⟨hFront, -⟩ := List.append_inj' hDecl rfl
    obtain ⟨rfl, rfl⟩ := List.cons.inj hFront
    exact not_atStatement_of_body fun c hc => hBody c (List.mem_append_left _ hc)

theorem atStatement_append_written {name : List Char} (h : Written name decl) :
    AtStatement (before ++ decl) := by
  obtain ⟨body, rfl, -⟩ := exists_body_of_written h
  rw [← List.append_assoc, atStatement_concat, if_neg (by decide)]
  decide

/-! ## Searching a line -/

theorem not_declaresAfter_nil : ¬ DeclaresAfter before [] name := by
  rintro ⟨gap, decl, rest, hText, -, hWritten⟩
  obtain ⟨body, rfl, -⟩ := exists_body_of_written hWritten
  simp at hText

theorem declaresAfter_cons
    (hNone : AtStatement before → Declaration.read? (c :: rest) = none) :
    DeclaresAfter before (c :: rest) name ↔ DeclaresAfter (before ++ [c]) rest name := by
  constructor
  · rintro ⟨gap, decl, tail, hText, hAt, hWritten⟩
    cases gap with
    | nil =>
      rw [List.append_nil] at hAt
      rw [hText, List.nil_append, read?_append hWritten] at hNone
      exact absurd (hNone hAt) (by simp)
    | cons d gap =>
      obtain ⟨rfl, rfl⟩ := List.cons.inj hText
      exact ⟨gap, decl, tail, rfl, by simpa using hAt, hWritten⟩
  · rintro ⟨gap, decl, tail, rfl, hAt, hWritten⟩
    exact ⟨c :: gap, decl, tail, rfl, by simpa using hAt, hWritten⟩

/-- A declaration, whether it counts or not, hides no other one. -/
theorem declaresAfter_append {found : String} (hFound : Written found.toList decl) :
    DeclaresAfter before (decl ++ rest) name ↔
      AtStatement before ∧ name = found ∨ DeclaresAfter (before ++ decl) rest name := by
  constructor
  · rintro ⟨gap, decl', tail, hText, hAt, hWritten⟩
    rw [List.append_assoc] at hText
    rcases List.append_eq_append_iff.mp hText with ⟨gap', rfl, rfl⟩ | ⟨part, rfl, hPart⟩
    · refine Or.inr ⟨gap', decl', tail, (List.append_assoc _ _ _).symm, ?_, hWritten⟩
      rwa [List.append_assoc]
    · by_cases hEnd : part = []
      · subst hEnd
        rw [List.nil_append] at hPart
        exact Or.inr ⟨[], decl', tail, hPart.symm, by simpa using hAt, hWritten⟩
      · by_cases hStart : gap = []
        · subst hStart
          have hFirst : Declaration.read? (part ++ rest) = some (found, rest) :=
            read?_eq_some_iff.mpr ⟨part, hFound, rfl⟩
          have hSecond : Declaration.read? (part ++ rest) = some (name, tail) :=
            read?_eq_some_iff.mpr ⟨decl', hWritten, hPart.symm⟩
          rw [hFirst] at hSecond
          obtain ⟨rfl, -⟩ := Prod.mk.inj (Option.some.inj hSecond)
          exact Or.inl ⟨by simpa using hAt, rfl⟩
        · exact absurd hAt (not_atStatement_within hFound hStart hEnd)
  · rintro (⟨hAt, rfl⟩ | ⟨gap, decl', tail, rfl, hAt, hWritten⟩)
    · exact ⟨[], decl, rest, rfl, by simpa using hAt, hFound⟩
    · refine ⟨decl ++ gap, decl', tail, by simp, ?_, hWritten⟩
      rwa [List.append_assoc] at hAt

/-- The flags that a search carries describe the part of the line before it. -/
structure Tracks (before : List Char) (inWord atStatement : Bool) : Prop where
  word : inWord = before.getLast?.any isWord
  statement : atStatement = true ↔ AtStatement before

theorem Tracks.inWord_eq_false {inWord atStatement : Bool}
    (h : Tracks before inWord atStatement) (hAt : AtStatement before) : inWord = false := by
  rw [h.word]
  cases before using List.reverseRecOn with
  | nil => rfl
  | append_singleton front c => simpa using not_isWord_of_atStatement hAt

theorem Tracks.concat {inWord atStatement : Bool} (h : Tracks before inWord atStatement)
    (c : Char) : Tracks (before ++ [c]) (isWord c)
      (if isBlank c then atStatement else endsStatement c) where
  word := by simp
  statement := by
    rw [atStatement_concat]
    split
    · exact h.statement
    · rfl

theorem tracks_append_written {name : List Char} (h : Written name decl) :
    Tracks (before ++ decl) false true where
  word := by
    obtain ⟨body, rfl, -⟩ := exists_body_of_written h
    rw [← List.append_assoc, List.getLast?_concat]
    decide
  statement := by simp [atStatement_append_written h]

theorem read?_of_declaration? {inWord : Bool} {found : String}
    (h : declaration? inWord cs = some (found, rest)) :
    Declaration.read? cs = some (found, rest) := by
  rw [declaration?] at h
  split at h
  · simp at h
  · exact h

theorem mem_namesFrom_iff {inWord atStatement : Bool} (h : Tracks before inWord atStatement) :
    name ∈ namesFrom inWord atStatement cs ↔ DeclaresAfter before cs name := by
  fun_induction namesFrom inWord atStatement cs generalizing before with
  | case1 => simp [not_declaresAfter_nil]
  | case2 inWord atStatement c rest found after hFound ih =>
    obtain ⟨decl, hWritten, hText⟩ := read?_eq_some_iff.mp (read?_of_declaration? hFound)
    have hAfter : name ∈ namesFrom false true after ↔ DeclaresAfter (before ++ decl) after name :=
      ih (tracks_append_written hWritten)
    rw [hText, declaresAfter_append hWritten, List.mem_append, hAfter, ← h.statement]
    cases atStatement <;> simp
  | case3 inWord atStatement c rest hNone ih =>
    have hRead : AtStatement before → Declaration.read? (c :: rest) = none := by
      intro hAt
      rw [declaration?, h.inWord_eq_false hAt] at hNone
      exact hNone
    rw [declaresAfter_cons hRead]
    exact ih (h.concat c)

/-- The scanner accepts exactly its grammar: a text declares the names that one of its lines
declares anywhere in statement position. -/
theorem mem_text_iff (cs : List Char) (name : String) :
    name ∈ (Scan.text cs).names ↔ ∃ line ∈ lines cs, Declares line name := by
  have hTracks : Tracks [] false true := ⟨rfl, by simp [atStatement_nil]⟩
  rw [Scan.text, NamespaceSet.mem_names_ofList, List.mem_flatMap]
  constructor
  · rintro ⟨line, hLine, hName⟩
    exact ⟨line, hLine, (mem_namesFrom_iff hTracks).mp hName⟩
  · rintro ⟨line, hLine, hDeclares⟩
    exact ⟨line, hLine, (mem_namesFrom_iff hTracks).mpr hDeclares⟩

-- Declarations out of place are passed over, and the one after them is not.
example : (Scan.text "x using A; using using B; using C = D.E ;".toList).names = ["D.E"] := by
  decide +kernel

end ScriptBuild.Scan
