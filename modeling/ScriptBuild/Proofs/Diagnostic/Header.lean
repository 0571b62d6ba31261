import ScriptBuild.Diagnostic.Line
import ScriptBuild.Proofs.Text.Blank

/-!
# The headers of diagnostics

What may stand between the file name and the message of a diagnostic, given apart from the way it is
read. A reader accepts a text exactly when it starts with such a header. The only opening
parenthesis of a header is its first character, so what a reader accepts at one place depends on
nothing from the next opening parenthesis on.
-/

namespace ScriptBuild.Diagnostic

set_option autoImplicit false

open Text

variable {c d : Char} {p : Char → Bool} {cs xs rest header : List Char} {severity : Severity}
  {place : UInt32 × UInt32} {code : String}

def Run (p : Char → Bool) (cs : List Char) : Prop := cs ≠ [] ∧ ∀ c ∈ cs, p c = true

instance (p : Char → Bool) (cs : List Char) : Decidable (Run p cs) :=
  decidable_of_iff (cs ≠ [] ∧ cs.all p = true) (by simp [Run])

inductive PlaceHeader : UInt32 × UInt32 → List Char → Prop
  | mk {line column gap : List Char} : Run isDigit line → Run isDigit column → Blank gap →
      PlaceHeader (placeNumber line, placeNumber column)
        ('(' :: (line ++ ',' :: (column ++ ')' :: (gap ++ [':']))))

inductive FindingHeader (severity : Severity) (code : String) : List Char → Prop
  | mk {between gap : List Char} : Run isBlank between → Run isWord code.toList → Blank gap →
      FindingHeader severity code
        (severity.word.toList ++ (between ++ (code.toList ++ (gap ++ [':']))))

inductive LocatedHeader (place : UInt32 × UInt32) (severity : Severity) (code : String) :
    List Char → Prop
  | mk {front gap back : List Char} : PlaceHeader place front → Blank gap →
      FindingHeader severity code back → LocatedHeader place severity code (front ++ (gap ++ back))

/-! ## Readers of a part -/

theorem run?_append (hRun : Run p xs) (hd : p d = false) :
    run? p (xs ++ d :: rest) = some (xs, d :: rest) := by
  have hTake : (xs ++ d :: rest).takeWhile p = xs := by
    rw [List.takeWhile_append_of_pos hRun.2]
    simp [hd]
  have hDrop : (xs ++ d :: rest).dropWhile p = d :: rest := by
    rw [List.dropWhile_append_of_pos hRun.2]
    simp [hd]
  cases xs with
  | nil => exact absurd rfl hRun.1
  | cons x xs => simp only [run?, hTake, hDrop]

theorem run_of_run? (h : run? p cs = some (xs, rest)) : Run p xs ∧ cs = xs ++ rest := by
  rw [run?] at h
  cases hTake : cs.takeWhile p with
  | nil => simp [hTake] at h
  | cons x taken =>
    simp only [hTake, Option.some.injEq, Prod.mk.injEq] at h
    obtain ⟨rfl, rfl⟩ := h
    refine ⟨⟨by simp, ?_⟩, ?_⟩
    · rw [← hTake]
      exact fun _ hc => List.mem_takeWhile_imp hc
    · rw [← hTake, List.takeWhile_append_dropWhile]

theorem skip?_eq_some_iff : skip? c cs = some rest ↔ cs = c :: rest := by
  cases cs with
  | nil => simp [skip?]
  | cons d ds => simp [skip?]

theorem severity?_eq_some_iff :
    severity? cs = some (severity, rest) ↔ cs = severity.word.toList ++ rest := by
  constructor
  · intro h
    rw [severity?.eq_def] at h
    split at h
    · obtain ⟨rfl, rfl⟩ := by simpa using h
      rfl
    · obtain ⟨rfl, rfl⟩ := by simpa using h
      rfl
    · simp at h
  · rintro rfl
    cases severity <;> rfl

theorem dropBlank_append_word {gap : List Char} (hGap : Blank gap) :
    dropBlank (gap ++ (severity.word.toList ++ rest)) = severity.word.toList ++ rest := by
  cases severity with
  | error => exact dropBlank_append_cons hGap (by decide)
  | warning => exact dropBlank_append_cons hGap (by decide)

theorem run?_append_word {word : List Char} (hRun : Run isBlank xs) (hWord : Run isWord word) :
    run? isBlank (xs ++ (word ++ rest)) = some (xs, word ++ rest) := by
  cases word with
  | nil => exact absurd rfl hWord.1
  | cons d ds =>
    have hd : isBlank d = false := by
      by_contra hBlank
      have hNot : isWord d = false := not_isWord_of_isBlank (by simpa using hBlank)
      simp [hWord.2 d (by simp)] at hNot
    exact run?_append hRun hd

theorem run?_append_colon {gap : List Char} (hRun : Run isWord xs) (hGap : Blank gap) :
    run? isWord (xs ++ (gap ++ ':' :: rest)) = some (xs, gap ++ ':' :: rest) := by
  cases gap with
  | nil => exact run?_append hRun (by decide)
  | cons d ds => exact run?_append hRun (not_isWord_of_isBlank (blank_cons.mp hGap).1)

/-! ## Readers of a header -/

theorem place?_eq_some_iff :
    place? cs = some (place, rest) ↔ ∃ header, PlaceHeader place header ∧ cs = header ++ rest := by
  constructor
  · intro h
    simp only [place?, Option.bind_eq_bind, Option.bind_eq_some_iff, Prod.exists,
      skip?_eq_some_iff, Option.pure_def, Option.some.injEq, Prod.mk.injEq] at h
    obtain ⟨_, rfl, line, _, hLine, _, rfl, column, _, hColumn, afterClose, rfl, _, hColon, rfl,
      rfl⟩ := h
    obtain ⟨hLineRun, rfl⟩ := run_of_run? hLine
    obtain ⟨hColumnRun, rfl⟩ := run_of_run? hColumn
    obtain ⟨gap, hGap, hEq⟩ := exists_blank_append_dropBlank afterClose
    rw [hColon] at hEq
    exact ⟨_, .mk hLineRun hColumnRun hGap, by simp [hEq]⟩
  · rintro ⟨_, @⟨line, column, gap, hLine, hColumn, hGap⟩, rfl⟩
    have hColon : dropBlank (gap ++ ':' :: rest) = ':' :: rest :=
      dropBlank_append_cons hGap (by decide)
    simp [place?, skip?, run?_append hLine (d := ',') (by decide),
      run?_append hColumn (d := ')') (by decide), hColon]

theorem finding?_eq_some_iff {finding : Finding} :
    finding? cs = some finding ↔ ∃ header message,
      FindingHeader finding.severity finding.code header ∧ cs = header ++ message ∧
        finding.message = String.ofList (trim message) := by
  constructor
  · intro h
    simp only [finding?, Option.bind_eq_bind, Option.bind_eq_some_iff, Prod.exists,
      skip?_eq_some_iff, severity?_eq_some_iff, Option.pure_def, Option.some.injEq] at h
    obtain ⟨severity, _, rfl, between, _, hBetween, code, afterCode, hCode, message, hColon,
      rfl⟩ := h
    obtain ⟨hBetweenRun, rfl⟩ := run_of_run? hBetween
    obtain ⟨hCodeRun, rfl⟩ := run_of_run? hCode
    obtain ⟨gap, hGap, hEq⟩ := exists_blank_append_dropBlank afterCode
    rw [hColon] at hEq
    exact ⟨_, message, .mk hBetweenRun (by simpa using hCodeRun) hGap, by simp [hEq], rfl⟩
  · obtain ⟨severity, code, text⟩ := finding
    rintro ⟨_, message, @⟨between, gap, hBetween, hCode, hGap⟩, rfl, rfl⟩
    have hSeverity : severity? (severity.word.toList ++ (between ++ (code.toList ++ (gap ++ ':' ::
        message)))) = some (severity, between ++ (code.toList ++ (gap ++ ':' :: message))) :=
      severity?_eq_some_iff.mpr rfl
    have hColon : dropBlank (gap ++ ':' :: message) = ':' :: message :=
      dropBlank_append_cons hGap (by decide)
    simp [finding?, skip?, hSeverity, run?_append_word hBetween hCode,
      run?_append_colon hCode hGap, hColon]

theorem locatedTail?_eq_some_iff {finding : Finding} :
    locatedTail? cs = some (place, finding) ↔ ∃ header message,
      LocatedHeader place finding.severity finding.code header ∧ cs = header ++ message ∧
        finding.message = String.ofList (trim message) := by
  constructor
  · intro h
    simp only [locatedTail?, Option.bind_eq_bind, Option.bind_eq_some_iff, Prod.exists,
      Option.pure_def, Option.some.injEq, Prod.mk.injEq] at h
    obtain ⟨line, column, rest, hPlace, found, hFinding, rfl, rfl⟩ := h
    obtain ⟨front, hFront, rfl⟩ := place?_eq_some_iff.mp hPlace
    obtain ⟨back, message, hBack, hRest, hMessage⟩ := finding?_eq_some_iff.mp hFinding
    obtain ⟨gap, hGap, hEq⟩ := exists_blank_append_dropBlank rest
    rw [hRest] at hEq
    exact ⟨_, message, .mk hFront hGap hBack, by simp [hEq], hMessage⟩
  · rintro ⟨_, message, @⟨front, gap, back, hFront, hGap, hBack⟩, rfl, hMessage⟩
    have hPlace : place? (front ++ (gap ++ (back ++ message))) =
        some (place, gap ++ (back ++ message)) := place?_eq_some_iff.mpr ⟨front, hFront, rfl⟩
    have hDrop : dropBlank (gap ++ (back ++ message)) = back ++ message := by
      obtain ⟨-, -, -⟩ := hBack
      simp only [List.append_assoc]
      exact dropBlank_append_word hGap
    have hFinding : finding? (back ++ message) = some finding :=
      finding?_eq_some_iff.mpr ⟨back, message, hBack, rfl, hMessage⟩
    simp [locatedTail?, hPlace, hDrop, hFinding]

theorem relatedTail?_eq_some_iff {text : String} :
    relatedTail? cs = some (place, text) ↔ ∃ header message,
      PlaceHeader place header ∧ cs = header ++ message ∧ text = String.ofList (trim message) := by
  constructor
  · intro h
    simp only [relatedTail?, Option.bind_eq_bind, Option.bind_eq_some_iff, Prod.exists,
      Option.pure_def, Option.some.injEq, Prod.mk.injEq] at h
    obtain ⟨line, column, message, hPlace, rfl, rfl⟩ := h
    obtain ⟨header, hHeader, rfl⟩ := place?_eq_some_iff.mp hPlace
    exact ⟨header, message, hHeader, rfl, rfl⟩
  · rintro ⟨header, message, hHeader, rfl, rfl⟩
    have hPlace : place? (header ++ message) = some (place, message) :=
      place?_eq_some_iff.mpr ⟨header, hHeader, rfl⟩
    simp [relatedTail?, hPlace]

/-! ## Where a header begins -/

theorem not_mem_of_run (hRun : Run p xs) (hc : p c = false) : c ∉ xs := by
  intro hMem
  simp [hRun.2 c hMem] at hc

theorem not_mem_of_blank (hBlank : Blank xs) (hc : isBlank c = false) : c ∉ xs := by
  intro hMem
  simp [hBlank c hMem] at hc

theorem PlaceHeader.opened (h : PlaceHeader place header) : ∃ t, header = '(' :: t ∧ '(' ∉ t := by
  obtain ⟨hLine, hColumn, hGap⟩ := h
  refine ⟨_, rfl, ?_⟩
  simp [not_mem_of_run hLine (c := '(') (by decide), not_mem_of_run hColumn (c := '(') (by decide),
    not_mem_of_blank hGap (c := '(') (by decide)]

theorem FindingHeader.no_opening (h : FindingHeader severity code header) : '(' ∉ header := by
  obtain ⟨hBetween, hCode, hGap⟩ := h
  have hWord : '(' ∉ severity.word.toList := by cases severity <;> decide
  simp [hWord, not_mem_of_blank hBetween.2 (c := '(') (by decide),
    not_mem_of_run hCode (c := '(') (by decide), not_mem_of_blank hGap (c := '(') (by decide)]

theorem FindingHeader.coded (h : FindingHeader severity code header) : Run isWord code.toList := by
  obtain ⟨-, hCode, -⟩ := h
  exact hCode

theorem LocatedHeader.coded (h : LocatedHeader place severity code header) :
    Run isWord code.toList := by
  obtain ⟨-, -, hBack⟩ := h
  exact hBack.coded

theorem LocatedHeader.opened (h : LocatedHeader place severity code header) :
    ∃ t, header = '(' :: t ∧ '(' ∉ t := by
  obtain ⟨hFront, hGap, hBack⟩ := h
  obtain ⟨t, rfl, ht⟩ := hFront.opened
  refine ⟨_, rfl, ?_⟩
  simp [ht, not_mem_of_blank hGap (c := '(') (by decide), hBack.no_opening]

end ScriptBuild.Diagnostic
