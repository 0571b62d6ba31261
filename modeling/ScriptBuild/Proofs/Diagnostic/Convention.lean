import Mathlib.Data.List.Infix
import ScriptBuild.Proofs.Diagnostic.Reprint

/-!
# Output in the console convention

A compiler that keeps to the convention states each diagnostic on a line of its own, in one of three
forms. The conditions on the parts are those that keep the forms apart: the only place with a colon
after it stands behind the file name, and a line without a file has none. Output in the convention is
read back without loss, whatever lines that state nothing stand in between.
-/

namespace ScriptBuild.Diagnostic

set_option autoImplicit false

open Text

variable {α : Type} {read? : List Char → Option α} {Header : List Char → Prop} {c : Char}
  {cs f r t a line file message : List Char} {severity : Severity} {d : Diagnostic}
  {previous : Option Diagnostic} {ds : List Diagnostic} {ls : List (List Char)}

/-! ## The convention -/

/-- A text that holds no place with a colon after it. -/
def Unplaced (cs : List Char) : Prop :=
  ∀ before place header after, cs = before ++ (header ++ after) → ¬ PlaceHeader place header

structure IsFile (file : List Char) : Prop where
  ne_nil : file ≠ []
  no_newline : '\n' ∉ file
  flush : ∀ c ∈ file.head?, isBlank c = false
  unplaced : Unplaced file

/-- A message in the convention: on one line, with no white space at either end. -/
structure IsMessage (message : List Char) : Prop where
  no_newline : '\n' ∉ message
  flush : ∀ c ∈ message.head?, isBlank c = false
  ended : ∀ c ∈ message.getLast?, isBlank c = false

theorem isMessage_iff : IsMessage message ↔ '\n' ∉ message ∧
    message.head?.all (!isBlank ·) = true ∧ message.getLast?.all (!isBlank ·) = true := by
  rw [Option.all_eq_true, Option.all_eq_true]
  simp only [Bool.not_eq_true']
  exact ⟨fun h => ⟨h.no_newline, h.flush, h.ended⟩, fun ⟨hNewline, hFlush, hEnded⟩ =>
    ⟨hNewline, hFlush, hEnded⟩⟩

instance (message : List Char) : Decidable (IsMessage message) :=
  decidable_of_iff _ isMessage_iff.symm

def unlocatedText (severity : Severity) (code message : String) : List Char :=
  severity.word.toList ++ ' ' :: code.toList ++ ": ".toList ++ message.toList

def relatedText (file : Path) (row column : UInt32) : List Char :=
  file.text.toList ++ placeText row column ++ ": ".toList ++ relatedMarker.toList

/-- A line states a diagnostic in the convention, after the diagnostic before it. -/
inductive Stated (previous : Option Diagnostic) : Diagnostic → List Char → Prop
  | located {d : Diagnostic} (hFile : IsFile d.file.text.toList)
      (hCode : Run isWord d.code.toList) (hMessage : IsMessage d.message.toList) :
      Stated previous d d.text.toList
  | unlocated {severity : Severity} {code message : String} (hCode : Run isWord code.toList)
      (hMessage : IsMessage message.toList)
      (hUnplaced : Unplaced (unlocatedText severity code message)) :
      Stated previous ⟨⟨""⟩, 0, 0, severity, code, message⟩ (unlocatedText severity code message)
  | related {file : Path} {row column : UInt32} (hFile : IsFile file.text.toList)
      (hWord : ∀ (severity : Severity) (c : Char) (rest : List Char),
        file.text.toList = severity.word.toList ++ c :: rest → isBlank c = false) :
      Stated previous ⟨file, row, column, (previous.map Diagnostic.severity).getD .error,
        (previous.map Diagnostic.code).getD "", relatedMarker⟩ (relatedText file row column)

/-- Lines state diagnostics in the convention, each after the one before it. -/
inductive Listed : Option Diagnostic → List Diagnostic → List (List Char) → Prop
  | nil {previous : Option Diagnostic} : Listed previous [] []
  | cons {previous : Option Diagnostic} {d : Diagnostic} {ds : List Diagnostic}
      {line : List Char} {ls : List (List Char)} (hFirst : Stated previous d line)
      (hBelow : Listed (some d) ds ls) : Listed previous (d :: ds) (line :: ls)

/-! ## Where a place may stand -/

theorem not_readable_of_unplaced (hUnplaced : Unplaced (a ++ r)) :
    (relatedTail? r).isSome = false := by
  cases hRead : relatedTail? r with
  | none => rfl
  | some found =>
    obtain ⟨header, after, hHeader, rfl, -⟩ := relatedTail?_eq_some_iff.mp hRead
    exact absurd hHeader (hUnplaced a found.1 header after rfl)

theorem unplaced_iff : Unplaced cs ↔ ∀ r ∈ cs.tails, (relatedTail? r).isSome = false := by
  constructor
  · intro hUnplaced r hr
    obtain ⟨a, rfl⟩ := (List.mem_tails _ _).mp hr
    exact not_readable_of_unplaced hUnplaced
  · rintro hNone before place header after rfl hHeader
    have hRead : relatedTail? (header ++ after) = some (place, String.ofList (trim after)) :=
      relatedTail?_eq_some_iff.mpr ⟨header, after, hHeader, rfl, rfl⟩
    have hNot := hNone (header ++ after) ((List.mem_tails _ _).mpr (List.suffix_append before _))
    simp [hRead] at hNot

instance (cs : List Char) : Decidable (Unplaced cs) := decidable_of_iff _ unplaced_iff.symm

theorem isFile_iff : IsFile file ↔ file ≠ [] ∧ '\n' ∉ file ∧
    file.head?.all (!isBlank ·) = true ∧ Unplaced file := by
  rw [Option.all_eq_true]
  simp only [Bool.not_eq_true']
  exact ⟨fun h => ⟨h.ne_nil, h.no_newline, h.flush, h.unplaced⟩,
    fun ⟨hSome, hNewline, hFlush, hUnplaced⟩ => ⟨hSome, hNewline, hFlush, hUnplaced⟩⟩

instance (file : List Char) : Decidable (IsFile file) := decidable_of_iff _ isFile_iff.symm

/-- After a file name in the convention, a readable rest begins with the place or stands below it. -/
theorem readable_after_file (hHeaded : Headed read? Header)
    (hWider : ∀ cs, (read? cs).isSome = true → (relatedTail? cs).isSome = true)
    (hFile : Unplaced file) (ht : '(' ∉ t) (hLine : file ++ '(' :: (t ++ message) = f ++ r)
    (hRead : (read? r).isSome = true) :
    f = file ∧ r = '(' :: (t ++ message) ∨
      ∃ b, f = file ++ '(' :: (t ++ b) ∧ message = b ++ r := by
  obtain ⟨tail, rfl⟩ := hHeaded.opening hRead
  rcases List.append_eq_append_iff.mp hLine with ⟨n, rfl, hRest⟩ | ⟨n, rfl, hRest⟩
  · cases n with
    | nil => exact Or.inl ⟨by simp, hRest.symm⟩
    | cons d n =>
      obtain ⟨rfl, hTail⟩ := List.cons.inj hRest
      obtain ⟨b, rfl, hMessage⟩ := exists_append_of_not_mem ht hTail
      exact Or.inr ⟨b, rfl, hMessage⟩
  · cases n with
    | nil => exact Or.inl ⟨by simp, hRest⟩
    | cons d n =>
      rw [hRest] at hRead
      have hCut : (relatedTail? (d :: n)).isSome = true :=
        hWider _ (hHeaded.cut (List.cons_ne_nil d n) hRead)
      simp [not_readable_of_unplaced hFile] at hCut

theorem IsFile.chosen (hFile : IsFile file) (hHeaded : Headed read? Header)
    (hWider : ∀ cs, (read? cs).isSome = true → (relatedTail? cs).isSome = true) (ht : '(' ∉ t)
    (hRead : (read? ('(' :: (t ++ message))).isSome = true) :
    Chosen read? (file ++ '(' :: (t ++ message)) [] file ('(' :: (t ++ message)) := by
  have hFlush : ∀ w' f' r', Split read? (file ++ '(' :: (t ++ message)) w' f' r' → w' = [] := by
    intro w' f' r' hSplit
    have hJoined := hSplit.joined
    obtain ⟨c, cs, rfl⟩ := List.exists_cons_of_ne_nil hFile.ne_nil
    cases w' with
    | nil => rfl
    | cons d w' =>
      obtain ⟨rfl, -⟩ := List.cons.inj hJoined
      have hBlank : isBlank c = true := hSplit.blank c List.mem_cons_self
      simp [hFile.flush c rfl] at hBlank
  refine ⟨⟨rfl, blank_nil, hFile.ne_nil, hRead⟩, ?_, ?_⟩
  · intro w' f' r' hSplit
    simp [hFlush w' f' r' hSplit]
  · intro w' f' r' hSplit _
    obtain rfl := hFlush w' f' r' hSplit
    have hJoined : file ++ '(' :: (t ++ message) = f' ++ r' := hSplit.joined
    rcases readable_after_file hHeaded hWider hFile.unplaced ht hJoined hSplit.readable with
      ⟨rfl, -⟩ | ⟨b, rfl, -⟩
    · exact le_rfl
    · simp

theorem located?_eq_none (h : ∀ f r, line = f ++ r → locatedTail? r = none) :
    located? line = none := by
  rw [located?, Option.map_eq_none_iff]
  cases hFile : withFile? locatedTail? line with
  | none => rfl
  | some found =>
    obtain ⟨w, r, hChosen, hRead⟩ := chosen_of_withFile? (f := found.1) (a := found.2) hFile
    have hNone : locatedTail? r = none :=
      h (w ++ found.1) r (by rw [hChosen.joined, List.append_assoc])
    simp [hNone] at hRead

theorem located?_of_unplaced (hUnplaced : Unplaced line) : located? line = none := by
  apply located?_eq_none
  rintro f r rfl
  by_contra hRead
  have hRelated : (relatedTail? r).isSome = true :=
    isSome_relatedTail? (Option.isSome_iff_ne_none.mpr hRead)
  simp [not_readable_of_unplaced hUnplaced] at hRelated

/-! ## Each form is read back -/

theorem IsMessage.trim_eq (hMessage : IsMessage message) : trim message = message :=
  trim_eq_self hMessage.flush hMessage.ended

theorem IsMessage.trim_space (hMessage : IsMessage message) : trim (' ' :: message) = message := by
  rw [trim_cons_of_isBlank (by decide), hMessage.trim_eq]

theorem located?_of_isFile (hFile : IsFile d.file.text.toList) (hCode : Run isWord d.code.toList)
    (hMessage : IsMessage d.message.toList) : located? d.text.toList = some d := by
  obtain ⟨header, hHeader, hText⟩ := exists_header d hCode
  obtain ⟨t, rfl, ht⟩ := hHeader.opened
  have hRead : (locatedTail? ('(' :: (t ++ ' ' :: d.message.toList))).isSome = true :=
    (headed_locatedTail?.accepts _).mpr ⟨'(' :: t, _, ⟨_, _, _, hHeader⟩, rfl⟩
  have hChosen := hFile.chosen headed_locatedTail? (fun _ => isSome_relatedTail?) ht hRead
  rw [← List.cons_append, ← hText] at hChosen
  exact located?_text (fun _ h => h) hChosen (List.cons_ne_nil _ _) hCode hMessage.trim_space.symm

theorem unlocated?_unlocatedText {code message : String} (hCode : Run isWord code.toList)
    (hMessage : IsMessage message.toList) :
    unlocated? (unlocatedText severity code message) =
      some ⟨⟨""⟩, 0, 0, severity, code, message⟩ := by
  have hSpace : Run isBlank [' '] := ⟨by simp, by simp; decide⟩
  have hText : unlocatedText severity code message = severity.word.toList ++
      ([' '] ++ (code.toList ++ ([] ++ [':']))) ++ ' ' :: message.toList := by
    simp [unlocatedText]
  have hDrop : dropBlank (unlocatedText severity code message) =
      unlocatedText severity code message := by
    rw [hText, List.append_assoc]
    exact dropBlank_append_word blank_nil
  have hFinding : finding? (unlocatedText severity code message) =
      some ⟨severity, code, message⟩ := by
    refine finding?_eq_some_iff.mpr ⟨_, _, .mk hSpace hCode blank_nil, hText, ?_⟩
    rw [hMessage.trim_space, String.ofList_toList]
  rw [unlocated?, hDrop, hFinding, Option.map_some]

theorem relatedText_eq (file : Path) (row column : UInt32) :
    ∃ t, PlaceHeader (row, column) ('(' :: t) ∧ '(' ∉ t ∧
      relatedText file row column =
        file.text.toList ++ '(' :: (t ++ ' ' :: relatedMarker.toList) := by
  have hPlace := placeHeader_placeText row column
  obtain ⟨t, hEq, ht⟩ := hPlace.opened
  rw [hEq] at hPlace
  refine ⟨t, hPlace, ht, ?_⟩
  rw [← List.cons_append, ← hEq]
  simp [relatedText]

theorem isMessage_relatedMarker : IsMessage relatedMarker.toList := by decide

theorem located?_relatedText {file : Path} {row column : UInt32}
    (hFile : IsFile file.text.toList) : located? (relatedText file row column) = none := by
  obtain ⟨t, hPlace, ht, hText⟩ := relatedText_eq file row column
  have hBehind : finding? (dropBlank (' ' :: relatedMarker.toList)) = none := by decide
  have hBelow : ∀ r ∈ (' ' :: relatedMarker.toList).tails, locatedTail? r = none := by decide
  apply located?_eq_none
  intro f r hLine
  rw [hText] at hLine
  cases hRead : locatedTail? r with
  | none => rfl
  | some found =>
    -- the rest begins with the place, or stands in the marker
    rcases readable_after_file headed_locatedTail? (fun _ => isSome_relatedTail?) hFile.unplaced ht
      hLine (by simp [hRead]) with ⟨-, rfl⟩ | ⟨b, -, hMarker⟩
    · have hNone : locatedTail? ('(' :: (t ++ ' ' :: relatedMarker.toList)) = none := by
        have hPlaceRead : place? ('(' :: (t ++ ' ' :: relatedMarker.toList)) =
            some ((row, column), ' ' :: relatedMarker.toList) :=
          place?_eq_some_iff.mpr ⟨'(' :: t, hPlace, rfl⟩
        simp [locatedTail?, hPlaceRead, hBehind]
      rw [hNone] at hRead
      cases hRead
    · have hNone : locatedTail? r = none :=
        hBelow r ((List.mem_tails _ _).mpr (hMarker ▸ List.suffix_append b r))
      rw [hNone] at hRead
      cases hRead

theorem unlocated?_relatedText {file : Path} {row column : UInt32}
    (hFile : IsFile file.text.toList)
    (hWord : ∀ (severity : Severity) (c : Char) (rest : List Char),
      file.text.toList = severity.word.toList ++ c :: rest → isBlank c = false) :
    unlocated? (relatedText file row column) = none := by
  obtain ⟨t, -, -, hText⟩ := relatedText_eq file row column
  have hDrop : dropBlank (relatedText file row column) = relatedText file row column := by
    rw [hText]
    cases hName : file.text.toList with
    | nil => exact absurd hName hFile.ne_nil
    | cons c cs => exact dropBlank_of_not_isBlank (hFile.flush c (by simp [hName]))
  rw [unlocated?, hDrop, Option.map_eq_none_iff]
  cases hRead : finding? (relatedText file row column) with
  | none => rfl
  | some finding =>
    obtain ⟨_, message, @⟨between, gap, hBetween, -, -⟩, hJoined, -⟩ :=
      finding?_eq_some_iff.mp hRead
    obtain ⟨c, between, rfl⟩ := List.exists_cons_of_ne_nil hBetween.1
    have hBlank : isBlank c = true := hBetween.2 c List.mem_cons_self
    have hNoOpening : '(' ∉ finding.severity.word.toList ++ [c] := by
      have hc : '(' ≠ c := by
        rintro rfl
        exact absurd hBlank (by decide)
      have hSeverity : '(' ∉ finding.severity.word.toList := by
        cases finding.severity <;> decide
      simp [hc, hSeverity]
    have hOpened : (finding.severity.word.toList ++ [c]) ++
        (between ++ (finding.code.toList ++ (gap ++ [':'])) ++ message) =
        file.text.toList ++ '(' :: (t ++ ' ' :: relatedMarker.toList) := by
      rw [← hText, hJoined]
      simp
    obtain ⟨n, hName, -⟩ := exists_append_of_not_mem hNoOpening hOpened
    have hNot : isBlank c = false := hWord finding.severity c n (by simpa using hName)
    simp [hNot] at hBlank

theorem related?_relatedText {file : Path} {row column : UInt32}
    (hFile : IsFile file.text.toList) :
    related? (relatedText file row column) = some (.related file row column relatedMarker) := by
  obtain ⟨t, hPlace, ht, hText⟩ := relatedText_eq file row column
  have hRead : relatedTail? ('(' :: (t ++ ' ' :: relatedMarker.toList)) =
      some ((row, column), relatedMarker) := by
    refine relatedTail?_eq_some_iff.mpr ⟨'(' :: t, _, hPlace, rfl, ?_⟩
    rw [isMessage_relatedMarker.trim_space, String.ofList_toList]
  have hChosen := hFile.chosen headed_relatedTail? (fun _ h => h) ht (by rw [hRead]; rfl)
  have hNamed : withFile? relatedTail? (relatedText file row column) =
      some (file.text.toList, (row, column), relatedMarker) := by
    rw [hText]
    exact withFile?_eq_some_iff.mpr ⟨[], _, hChosen, hRead⟩
  have hMarks : marksRelated relatedMarker = true := by decide
  simp [related?, hNamed, hMarks]

/-! ## Lists of diagnostics -/

/-- A line in the convention is recognised as the diagnostic that it states. -/
theorem line?_of_stated (h : Stated previous d line) :
    ∃ l, line? line = some l ∧ l.after previous = d := by
  cases h with
  | located hFile hCode hMessage =>
    exact ⟨.complete d, by rw [line?, located?_of_isFile hFile hCode hMessage], rfl⟩
  | unlocated hCode hMessage hUnplaced =>
    refine ⟨.complete _, ?_, rfl⟩
    rw [line?, located?_of_unplaced hUnplaced, unlocated?_unlocatedText hCode hMessage]
  | @related file row column hFile hWord =>
    refine ⟨.related file row column relatedMarker, ?_, ?_⟩
    · rw [line?, located?_relatedText hFile, unlocated?_relatedText hFile hWord,
        related?_relatedText hFile]
    · cases previous <;> rfl

theorem entries_of_listed (h : Listed previous ds ls) :
    entries previous (ls.filterMap line?) = ds := by
  induction h with
  | nil => rfl
  | cons hFirst _ ih =>
    obtain ⟨l, hLine, rfl⟩ := line?_of_stated hFirst
    rw [List.filterMap_cons_some hLine, entries_cons, ih]

theorem unbroken_of_stated (h : Stated previous d line) : Unbroken line := by
  have hWord (severity : Severity) : '\n' ∉ severity.word.toList := by cases severity <;> decide
  cases h with
  | located hFile hCode hMessage =>
    have hName : '\n' ∉ d.code.toList := not_mem_of_run hCode (by decide)
    exact OnOneLine.unbroken_text ⟨hFile.no_newline, hName, hMessage.no_newline, hMessage.ended⟩
  | @unlocated severity code message hCode hMessage _ =>
    have hName : '\n' ∉ code.toList := not_mem_of_run hCode (by decide)
    have hFront : '\n' ∉ severity.word.toList ++ ' ' :: (code.toList ++ [':']) := by
      simp [hWord, hName]
    simpa [unlocatedText] using
      unbroken_append_space hFront hMessage.no_newline hMessage.ended
  | @related file row column hFile _ =>
    have hFront : '\n' ∉ file.text.toList ++ (placeText row column ++ [':']) := by
      simp [hFile.no_newline, newline_not_mem_placeText]
    simpa [relatedText] using
      unbroken_append_space hFront isMessage_relatedMarker.no_newline isMessage_relatedMarker.ended

theorem unbroken_of_listed (h : Listed previous ds ls) : ∀ l ∈ ls, Unbroken l := by
  induction h with
  | nil => simp
  | cons hFirst _ ih => exact List.forall_mem_cons.mpr ⟨unbroken_of_stated hFirst, ih⟩

/-- Only the lines that state something count. -/
theorem recognised_eq_of_filter (h : (lines cs).filter (fun l => (line? l).isSome) = ls) :
    recognised cs = ls.filterMap line? := by
  rw [recognised, ← h, List.filterMap_filter]
  apply List.filterMap_congr
  intro l _
  cases line? l <;> rfl

/-- A listing in the convention is read back, whatever ends its last line and whatever lines that
state nothing stand in between. -/
theorem ofText_of_listed (h : Listed none ds ls) :
    ofText (joinLines ls) = ds ∧ ofText (ls.flatMap fun l => l ++ ['\n']) = ds ∧
      ∀ cs, (lines cs).filter (fun l => (line? l).isSome) = ls → ofText cs = ds := by
  have hUnbroken : ∀ l ∈ ls, Unbroken l := unbroken_of_listed h
  have hEntries : entries none (ls.filterMap line?) = ds := entries_of_listed h
  refine ⟨?_, ?_, ?_⟩
  · rw [ofText, recognised, lines_joinLines hUnbroken, hEntries]
  · rw [ofText, recognised, lines_flatMap_newline hUnbroken, hEntries]
  · intro cs hLines
    rw [ofText, recognised_eq_of_filter hLines, hEntries]

/-- File names may hold parentheses, and messages other diagnostics; the last place belongs to the
warning before it. -/
theorem ofText_of_crowded_listing :
    let ds : List Diagnostic := [⟨⟨"a(1,2) b.cs"⟩, 3, 4, .error, "CS1", "x(5,6): error CS2: y"⟩,
      ⟨⟨""⟩, 0, 0, .warning, "CS3", "see (1,2) there"⟩,
      ⟨⟨"error.cs(0"⟩, 7, 8, .warning, "CS3", relatedMarker⟩]
    let ls := ["a(1,2) b.cs(3,4): error CS1: x(5,6): error CS2: y".toList,
      "warning CS3: see (1,2) there".toList,
      "error.cs(0(7,8): (Location of the symbol related to previous error)".toList]
    Listed none ds ls ∧ ofText (joinLines ls) = ds := by
  intro ds ls
  have hFile : IsFile "a(1,2) b.cs".toList ∧ IsFile "error.cs(0".toList := by decide +kernel
  have hCode : Run isWord "CS1".toList ∧ Run isWord "CS3".toList := by decide +kernel
  have hMessage : IsMessage "x(5,6): error CS2: y".toList ∧ IsMessage "see (1,2) there".toList := by
    decide +kernel
  have hUnplaced : Unplaced (unlocatedText .warning "CS3" "see (1,2) there") := by decide +kernel
  have hWord : ∀ (severity : Severity) (c : Char) (rest : List Char),
      "error.cs(0".toList = severity.word.toList ++ c :: rest → isBlank c = false := by
    intro severity c rest hName
    cases severity with
    | error =>
      obtain ⟨rfl, -⟩ : '.' = c ∧ "cs(0".toList = rest := by simpa [Severity.word] using hName
      decide
    | warning => simp [Severity.word] at hName
  have hListed : Listed none ds ls :=
    .cons (.located hFile.1 hCode.1 hMessage.1) <|
      .cons (.unlocated hCode.2 hMessage.2 hUnplaced) <|
        .cons (.related hFile.2 hWord) .nil
  exact ⟨hListed, (ofText_of_listed hListed).1⟩

end ScriptBuild.Diagnostic
