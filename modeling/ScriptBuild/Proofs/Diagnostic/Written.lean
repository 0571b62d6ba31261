import ScriptBuild.Diagnostic.Listing
import ScriptBuild.Proofs.Diagnostic.Header
import ScriptBuild.Proofs.Text.Line

/-!
# Diagnostics as they are written

The line that states a diagnostic is its file name, a header, a space and its message. The numbers
in the header are read back, and nothing in the line is a line end, as long as nothing in the texts
of the diagnostic is.
-/

namespace ScriptBuild.Diagnostic

set_option autoImplicit false

open Text

variable {c : Char} {message : List Char} {d : Diagnostic}

/-! ## Numbers -/

theorem isDigit_of_mem_toDigits {n : Nat} (hc : c ∈ Nat.toDigits 10 n) :
    c.isDigit = true ∧ isDigit c = true := by
  have hDigit : c.isDigit = true := Nat.isDigit_of_mem_toDigits (by decide) (by decide) hc
  have hBounds := Char.isDigit_iff_toNat.mp hDigit
  have hNine : '9'.toNat = 57 := rfl
  exact ⟨hDigit, isDigit_of_isDigit hDigit (by omega)⟩

theorem run_toDigits (n : Nat) : Run isDigit (Nat.toDigits 10 n) :=
  ⟨Nat.toDigits_ne_nil, fun _ hc => (isDigit_of_mem_toDigits hc).2⟩

theorem decimal_toDigits (n : Nat) : decimal (Nat.toDigits 10 n) = n :=
  Nat.ofDigitChars_ten_toDigits

theorem placeNumber_toDigits (n : UInt32) : placeNumber (Nat.toDigits 10 n.toNat) = n := by
  have hAll : (Nat.toDigits 10 n.toNat).all Char.isDigit = true :=
    List.all_eq_true.mpr fun _ hc => (isDigit_of_mem_toDigits hc).1
  have hBound : n.toNat < UInt32.size := n.toNat_lt_size
  rw [placeNumber, hAll, decimal_toDigits, if_pos (by simpa using hBound)]
  exact UInt32.ofNat_toNat

theorem placeHeader_placeText (row column : UInt32) :
    PlaceHeader (row, column) (placeText row column ++ [':']) := by
  have hMade := PlaceHeader.mk (run_toDigits row.toNat) (run_toDigits column.toNat) blank_nil
  rw [placeNumber_toDigits, placeNumber_toDigits] at hMade
  simpa [placeText] using hMade

theorem newline_not_mem_placeText (row column : UInt32) : '\n' ∉ placeText row column := by
  have hNumber (n : Nat) : '\n' ∉ Nat.toDigits 10 n := not_mem_of_run (run_toDigits n) (by decide)
  simp [placeText, hNumber]

/-! ## Lines -/

theorem exists_header (d : Diagnostic) (hCode : Run isWord d.code.toList) :
    ∃ header, LocatedHeader (d.line, d.column) d.severity d.code header ∧
      d.text.toList = d.file.text.toList ++ (header ++ ' ' :: d.message.toList) := by
  have hPlace : PlaceHeader (d.line, d.column) (placeText d.line d.column ++ [':']) :=
    placeHeader_placeText d.line d.column
  have hSpace : Run isBlank [' '] := ⟨by simp, by simp; decide⟩
  refine ⟨_, .mk hPlace hSpace.2 (.mk hSpace hCode blank_nil), ?_⟩
  simp [text]

def heading (d : Diagnostic) : List Char :=
  d.file.text.toList ++ placeText d.line d.column ++ ": ".toList ++
    d.severity.word.toList ++ ' ' :: d.code.toList ++ [':']

theorem toList_text (d : Diagnostic) : d.text.toList = d.heading ++ ' ' :: d.message.toList := by
  simp [text, heading]

/-- A diagnostic whose texts hold no newline, and whose message does not end with white space. -/
structure OnOneLine (d : Diagnostic) : Prop where
  file : '\n' ∉ d.file.text.toList
  code : '\n' ∉ d.code.toList
  message : '\n' ∉ d.message.toList
  ended : ∀ c ∈ d.message.toList.getLast?, isBlank c = false

theorem OnOneLine.of_trim (hFile : '\n' ∉ d.file.text.toList) (hCode : '\n' ∉ d.code.toList)
    (hMessage : '\n' ∉ message) (hTrim : d.message.toList = trim message) : OnOneLine d := by
  refine ⟨hFile, hCode, ?_, ?_⟩
  · rw [hTrim]
    exact fun hMem => hMessage ((trim_isInfix message).subset hMem)
  · rw [hTrim]
    exact fun c hLast => not_isBlank_of_mem_getLast?_trim hLast

theorem OnOneLine.newline_not_mem_heading (h : OnOneLine d) : '\n' ∉ d.heading := by
  have hPlace : '\n' ∉ placeText d.line d.column := newline_not_mem_placeText d.line d.column
  have hWord : '\n' ∉ d.severity.word.toList := by cases d.severity <;> decide
  simp [heading, hPlace, hWord, h.file, h.code]

/-- A line that ends with a space and a message is left as it is if neither holds a newline and the
message does not end with white space. -/
theorem unbroken_append_space {front : List Char} (hFront : '\n' ∉ front)
    (hMessage : '\n' ∉ message) (hEnd : ∀ c ∈ message.getLast?, isBlank c = false) :
    Unbroken (front ++ ' ' :: message) := by
  refine ⟨by simp, by simp [hFront, hMessage], ?_⟩
  rw [List.getLast?_append, List.getLast?_cons]
  cases hLast : message.getLast? with
  | none => simp
  | some c =>
    simp only [Option.getD_some, Option.some_or, ne_eq, Option.some.injEq]
    rintro rfl
    exact absurd (hEnd _ hLast) (by decide)

theorem OnOneLine.unbroken_text (h : OnOneLine d) : Unbroken d.text.toList := by
  rw [toList_text]
  exact unbroken_append_space h.newline_not_mem_heading h.message h.ended

end ScriptBuild.Diagnostic
