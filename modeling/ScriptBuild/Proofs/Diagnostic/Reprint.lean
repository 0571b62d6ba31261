import ScriptBuild.Proofs.Diagnostic.Split
import ScriptBuild.Proofs.Diagnostic.Written

/-!
# Diagnostics written out and read back

A diagnostic that was read from a line, written out in the located form, is read back as it is. The
file name may hold white space at its start, parentheses and even parts of headers; what carries the
argument is that any other way to split the new line would have been a better way to split the old
one.
-/

namespace ScriptBuild.Diagnostic

set_option autoImplicit false

open Text

section Reprinted

variable {α β : Type} {read? : List Char → Option α} {source? : List Char → Option β}
  {Header : List Char → Prop} {line w f header message tail t : List Char}

/-- A split of the new line that leaves off within the old file name, or at its end, is no better. -/
theorem no_better_in_file (hHeaded : Headed read? Header)
    (hWider : ∀ cs, (read? cs).isSome = true → (source? cs).isSome = true)
    (hChosen : Chosen source? line w f header) {w' f' f₂ : List Char}
    (hFile : f = w' ++ (f' ++ f₂)) (hBlank : Blank w') (hNamed : f' ≠ [])
    (hRead : (read? (f₂ ++ '(' :: t)).isSome = true) : w' = [] ∧ f.length ≤ f'.length := by
  have hSource : (source? (f₂ ++ header)).isSome = true := by
    cases hEnd : f₂ with
    | nil => exact hChosen.readable
    | cons d ds =>
      have hCut : (read? f₂).isSome = true := hHeaded.cut (by simp [hEnd]) hRead
      rw [← hEnd]
      exact hWider _ (hHeaded.extend hCut header)
  have hSplit : Split source? line (w ++ w') f' (f₂ ++ header) :=
    ⟨by simp [hChosen.joined, hFile], blank_append.mpr ⟨hChosen.blank, hBlank⟩, hNamed, hSource⟩
  have hw' : w' = [] := hChosen.eq_nil_of_split hSplit
  exact ⟨hw', hChosen.shortest _ _ _ hSplit (by simp [hw'])⟩

/-- A split of the new line that leaves off within the message takes off no more white space. -/
theorem no_better_in_message (hHeaded : Headed read? Header)
    (hWider : ∀ cs, (read? cs).isSome = true → (source? cs).isSome = true)
    (hChosen : Chosen source? line w f (header ++ (message ++ tail))) (hHeader : header ≠ [])
    {w' f' n a : List Char} (hFile : w' ++ f' = f ++ '(' :: n) (hBlank : Blank w')
    (hMessage : message = a ++ t) (hRead : (read? t).isSome = true) : w' = [] := by
  have hOpening : '(' ∉ w' := not_mem_of_blank hBlank (by decide)
  obtain ⟨x, rfl, -⟩ := exists_append_of_not_mem hOpening hFile
  have hSource : (source? (t ++ tail)).isSome = true := hWider _ (hHeaded.extend hRead tail)
  have hSplit : Split source? line (w ++ w') (x ++ header ++ a) (t ++ tail) :=
    ⟨by simp [hChosen.joined, hMessage], blank_append.mpr ⟨hChosen.blank, hBlank⟩,
      by simp [hHeader], hSource⟩
  exact hChosen.eq_nil_of_split hSplit

/-- A line is written again with the file name first and another header: the file name is chosen
again. -/
theorem Chosen.reprinted (hHeaded : Headed read? Header)
    (hWider : ∀ cs, (read? cs).isSome = true → (source? cs).isSome = true)
    (hChosen : Chosen source? line w f (header ++ (message ++ tail))) (hHeader : header ≠ [])
    (ht : '(' ∉ t) (hRead : (read? ('(' :: (t ++ message))).isSome = true) :
    Chosen read? (f ++ '(' :: (t ++ message)) [] f ('(' :: (t ++ message)) := by
  have hBest : ∀ w' f' r', Split read? (f ++ '(' :: (t ++ message)) w' f' r' →
      w' = [] ∧ f.length ≤ f'.length := by
    intro w' f' r' hSplit
    have hJoined : f ++ '(' :: (t ++ message) = (w' ++ f') ++ r' := by
      rw [hSplit.joined, List.append_assoc]
    obtain ⟨tail', rfl⟩ := hHeaded.opening hSplit.readable
    rcases List.append_eq_append_iff.mp hJoined with ⟨n, hFile, hRest⟩ | ⟨n, hFile, hRest⟩
    · cases n with
      | nil =>
        -- the file name ends where the rest begins
        have hFile' : f = w' ++ (f' ++ []) := by simpa using hFile.symm
        have hRead' : (read? ([] ++ '(' :: tail')).isSome = true := hSplit.readable
        exact no_better_in_file hHeaded hWider hChosen hFile' hSplit.blank hSplit.named hRead'
      | cons d ds =>
        obtain ⟨rfl, hTail⟩ := List.cons.inj hRest
        obtain ⟨a, -, hMessage⟩ := exists_append_of_not_mem ht hTail
        have hw' : w' = [] := no_better_in_message hHeaded hWider hChosen hHeader hFile
          hSplit.blank hMessage hSplit.readable
        refine ⟨hw', ?_⟩
        have hLength := congrArg List.length hFile
        simp only [hw', List.nil_append, List.length_append] at hLength
        omega
    · rw [List.append_assoc] at hFile
      have hRead' : (read? (n ++ '(' :: (t ++ message))).isSome = true := by
        rw [← hRest]
        exact hSplit.readable
      exact no_better_in_file hHeaded hWider hChosen hFile hSplit.blank hSplit.named hRead'
  refine ⟨⟨rfl, blank_nil, hChosen.named, hRead⟩, ?_, ?_⟩
  · intro w' f' r' hSplit
    simp [(hBest w' f' r' hSplit).1]
  · intro w' f' r' hSplit _
    exact (hBest w' f' r' hSplit).2

end Reprinted

section Reading

variable {d : Diagnostic} {line : List Char} {l : Line} {previous : Option Diagnostic}

theorem located?_text {β : Type} {source? : List Char → Option β} {w header message : List Char}
    (hWider : ∀ cs, (locatedTail? cs).isSome = true → (source? cs).isSome = true)
    (hChosen : Chosen source? line w d.file.text.toList (header ++ message))
    (hHeader : header ≠ []) (hCode : Run isWord d.code.toList)
    (hMessage : d.message.toList = trim message) : located? d.text.toList = some d := by
  obtain ⟨front, hFront, hText⟩ := exists_header d hCode
  obtain ⟨t, rfl, ht⟩ := hFront.opened
  obtain ⟨before, after, -, -, hParts⟩ := exists_trim message
  have hLine : header ++ message = (header ++ before) ++ (d.message.toList ++ after) := by
    rw [hMessage, List.append_assoc, ← hParts]
  rw [hLine] at hChosen
  have hSpace : '(' ∉ t ++ [' '] := by simp [ht]
  have hRead : locatedTail? ('(' :: ((t ++ [' ']) ++ d.message.toList)) =
      some ((d.line, d.column), ⟨d.severity, d.code, d.message⟩) := by
    refine locatedTail?_eq_some_iff.mpr ⟨'(' :: t, ' ' :: d.message.toList, hFront, by simp, ?_⟩
    rw [trim_cons_of_isBlank (by decide), hMessage, trim_trim, ← hMessage, String.ofList_toList]
  have hReprinted := hChosen.reprinted headed_locatedTail? hWider (by simp [hHeader]) hSpace
    (by rw [hRead]; rfl)
  have hFile : withFile? locatedTail? d.text.toList = some (d.file.text.toList,
      (d.line, d.column), ⟨d.severity, d.code, d.message⟩) := by
    refine withFile?_eq_some_iff.mpr ⟨[], _, ?_, hRead⟩
    simpa [hText] using hReprinted
  simp [located?, hFile]

/-- An entry whose own line, if it has a file and a code, is read back as the entry. -/
structure Reprints (d : Diagnostic) : Prop where
  coded : d.code ≠ "" → Run isWord d.code.toList
  read : d.file.text ≠ "" → d.code ≠ "" → located? d.text.toList = some d
  unbroken : d.file.text ≠ "" → d.code ≠ "" → Unbroken d.text.toList

theorem Chosen.reprints {β : Type} {source? : List Char → Option β} {w header message : List Char}
    (hWider : ∀ cs, (locatedTail? cs).isSome = true → (source? cs).isSome = true)
    (hChosen : Chosen source? line w d.file.text.toList (header ++ message))
    (hHeader : header ≠ []) (hCode : d.code ≠ "" → Run isWord d.code.toList)
    (hMessage : d.message.toList = trim message) (hNewline : '\n' ∉ line) : Reprints d := by
  have hParts : '\n' ∉ d.file.text.toList ∧ '\n' ∉ message := by
    rw [hChosen.joined] at hNewline
    simp only [List.mem_append, not_or] at hNewline
    exact ⟨hNewline.2.1, hNewline.2.2.2⟩
  refine ⟨hCode, ?_, ?_⟩
  · intro _ hne
    exact located?_text hWider hChosen hHeader (hCode hne) hMessage
  · intro _ hne
    have hName : '\n' ∉ d.code.toList := not_mem_of_run (hCode hne) (by decide)
    exact (OnOneLine.of_trim hParts.1 hName hParts.2 hMessage).unbroken_text

theorem reprints_of_located? (h : located? line = some d) (hNewline : '\n' ∉ line) :
    Reprints d := by
  simp only [located?, Option.map_eq_some_iff, Prod.exists] at h
  obtain ⟨file, l, c, finding, hFile, rfl⟩ := h
  obtain ⟨w, r, hChosen, hRead⟩ := withFile?_eq_some_iff.mp hFile
  obtain ⟨header, message, hHeader, rfl, hMessage⟩ := locatedTail?_eq_some_iff.mp hRead
  obtain ⟨t, hOpened, -⟩ := hHeader.opened
  exact Chosen.reprints (fun _ h => h) (by simpa using hChosen) (by simp [hOpened])
    (fun _ => hHeader.coded) (by simp [hMessage]) hNewline

theorem reprints_of_unlocated? (h : unlocated? line = some d) : Reprints d := by
  simp only [unlocated?, Option.map_eq_some_iff] at h
  obtain ⟨finding, hFinding, rfl⟩ := h
  obtain ⟨header, message, hHeader, -, -⟩ := finding?_eq_some_iff.mp hFinding
  exact ⟨fun _ => hHeader.coded, fun hFile => absurd rfl hFile, fun hFile => absurd rfl hFile⟩

theorem reprints_of_related? {file : Path} {row column : UInt32} {message : String}
    {severity : Severity} {code : String}
    (h : related? line = some (.related file row column message))
    (hCode : code ≠ "" → Run isWord code.toList) (hNewline : '\n' ∉ line) :
    Reprints ⟨file, row, column, severity, code, message⟩ := by
  rw [related?] at h
  split at h
  · simp at h
  · rename_i taken l c text hFile
    split at h
    · simp only [Option.some.injEq, Line.related.injEq] at h
      obtain ⟨rfl, rfl, rfl, rfl⟩ := h
      obtain ⟨w, r, hChosen, hRead⟩ := withFile?_eq_some_iff.mp hFile
      obtain ⟨header, message, hHeader, rfl, rfl⟩ := relatedTail?_eq_some_iff.mp hRead
      obtain ⟨t, hOpened, -⟩ := hHeader.opened
      exact Chosen.reprints (fun _ => isSome_relatedTail?) (by simpa using hChosen)
        (by simp [hOpened]) hCode (by simp) hNewline
    · simp at h

theorem not_complete_of_related? : related? line ≠ some (.complete d) := by
  rw [related?]
  split
  · simp
  · split <;> simp

/-- One line adds an entry that is read back, if the entry before it is. -/
theorem reprints_after (hPrevious : ∀ e, previous = some e → Reprints e)
    (hLine : line? line = some l) (hNewline : '\n' ∉ line) : Reprints (l.after previous) := by
  rw [line?] at hLine
  split at hLine
  · rename_i d hLocated
    obtain rfl := Option.some.inj hLine
    exact reprints_of_located? hLocated hNewline
  · split at hLine
    · rename_i d hUnlocated
      obtain rfl := Option.some.inj hLine
      exact reprints_of_unlocated? hUnlocated
    · cases l with
      | complete d => exact absurd hLine not_complete_of_related?
      | related file row column message =>
        cases previous with
        | none => exact reprints_of_related? hLine (fun hne => absurd rfl hne) hNewline
        | some e => exact reprints_of_related? hLine (hPrevious e rfl).coded hNewline

theorem reprints_of_mem_entries {ls : List (List Char)} (hLines : ∀ line ∈ ls, '\n' ∉ line)
    (hPrevious : ∀ e, previous = some e → Reprints e)
    (hMem : d ∈ entries previous (ls.filterMap line?)) : Reprints d := by
  induction ls generalizing previous with
  | nil => simp at hMem
  | cons line below ih =>
    have hBelow : ∀ l ∈ below, '\n' ∉ l := fun l hl => hLines l (by simp [hl])
    rw [List.filterMap_cons] at hMem
    split at hMem
    · exact ih hBelow hPrevious hMem
    · rename_i l hLine
      have hAfter : Reprints (l.after previous) :=
        reprints_after hPrevious hLine (hLines line (by simp))
      rw [entries_cons, List.mem_cons] at hMem
      rcases hMem with rfl | hMem
      · exact hAfter
      · apply ih hBelow ?_ hMem
        rintro e ⟨⟩
        exact hAfter

theorem reprints_of_mem_ofText {cs : List Char} (hMem : d ∈ ofText cs) : Reprints d :=
  reprints_of_mem_entries (fun _ => not_mem_of_mem_lines) (by simp) hMem

end Reading

/-! ## Listings -/

section Listing

variable {d : Diagnostic} {ds : List Diagnostic}

theorem entries_complete (previous : Option Diagnostic) (ds : List Diagnostic) :
    entries previous (ds.map .complete) = ds := by
  induction ds generalizing previous with
  | nil => rfl
  | cons d ds ih => rw [List.map_cons, entries_cons, ih, Line.after]

theorem filterMap_line?_text (h : ∀ d ∈ ds, located? d.text.toList = some d) :
    (ds.map fun d => d.text.toList).filterMap line? = ds.map .complete := by
  induction ds with
  | nil => rfl
  | cons d ds ih =>
    have hLine : line? d.text.toList = some (.complete d) := by rw [line?, h d (by simp)]
    rw [List.map_cons, List.filterMap_cons_some hLine, ih fun e he => h e (by simp [he]),
      List.map_cons]

theorem ofText_joinLines_append {above : List (List Char)}
    (hAbove : ∀ l ∈ above, Unbroken l ∧ line? l = none)
    (hRead : ∀ d ∈ ds, located? d.text.toList = some d)
    (hUnbroken : ∀ d ∈ ds, Unbroken d.text.toList) :
    ofText (joinLines (above ++ ds.map fun d => d.text.toList)) = ds := by
  have hLines : ∀ l ∈ above ++ ds.map fun d => d.text.toList, Unbroken l := by
    intro l hl
    rcases List.mem_append.mp hl with hl | hl
    · exact (hAbove l hl).1
    · obtain ⟨d, hd, rfl⟩ := List.mem_map.mp hl
      exact hUnbroken d hd
  have hNone : above.filterMap line? = [] :=
    List.filterMap_eq_nil_iff.mpr fun l hl => (hAbove l hl).2
  rw [ofText, recognised, lines_joinLines hLines, List.filterMap_append, hNone,
    filterMap_line?_text hRead, List.nil_append, entries_complete]

def reportTitle (n : Nat) : List Char :=
  "Compilation failed; ".toList ++ Nat.toDigits 10 n ++ " errors: ".toList

theorem reportTitle_eq (n : Nat) : reportTitle n =
    "Compilation failed; ".toList ++ Nat.toDigits 10 n ++ " errors: ".toList := rfl

theorem not_mem_reportTitle {c : Char} (n : Nat) (hDigit : isDigit c = false)
    (hFront : c ∉ "Compilation failed; ".toList) (hBack : c ∉ " errors: ".toList) :
    c ∉ reportTitle n := by
  have hNumber : c ∉ Nat.toDigits 10 n := not_mem_of_run (run_toDigits n) hDigit
  rw [reportTitle_eq, List.mem_append, List.mem_append, not_or, not_or]
  exact ⟨⟨hFront, hNumber⟩, hBack⟩

theorem unbroken_reportTitle (n : Nat) : Unbroken (reportTitle n) := by
  have hBack : " errors: ".toList.getLast? = some ' ' := by decide
  have hLast : (reportTitle n).getLast? = some ' ' := by
    rw [reportTitle_eq, List.getLast?_append, hBack, Option.some_or]
  refine ⟨?_, not_mem_reportTitle n (by decide) (by decide) (by decide), ?_⟩
  · intro hNil
    simp [hNil] at hLast
  · rw [hLast]
    decide

theorem line?_reportTitle (n : Nat) : line? (reportTitle n) = none := by
  have hOpening : '(' ∉ reportTitle n :=
    not_mem_reportTitle n (by decide) (by decide) (by decide)
  have hLocated : located? (reportTitle n) = none := by
    rw [located?, withFile?_eq_none_of_not_mem headed_locatedTail? hOpening, Option.map_none]
  have hRelated : related? (reportTitle n) = none := by
    rw [related?, withFile?_eq_none_of_not_mem headed_relatedTail? hOpening]
  have hUnlocated : unlocated? (reportTitle n) = none := rfl
  rw [line?, hLocated, hUnlocated, hRelated]

theorem toList_report_eq_joinLines (ds : List Diagnostic) :
    (report ds).toList =
      joinLines (reportTitle ds.length :: ds.map fun d => d.reportLine.toList) := by
  rw [joinLines_cons, List.flatMap_map]
  exact String.toList_ofList

theorem toList_report (hPlain : ∀ d ∈ ds, d.isRelated = false) :
    (report ds).toList =
      joinLines (reportTitle ds.length :: ds.map fun d => d.text.toList) := by
  have hLines : ∀ d ∈ ds, d.reportLine.toList = d.text.toList := by
    intro d hd
    rw [reportLine, hPlain d hd, if_neg Bool.false_ne_true]
  rw [toList_report_eq_joinLines, List.map_congr_left hLines]

def placed (ds : List Diagnostic) : List Diagnostic :=
  ds.filter fun d => d.file.text ≠ "" ∧ d.code ≠ ""

theorem mem_placed_iff : d ∈ placed ds ↔ d ∈ ds ∧ d.file.text ≠ "" ∧ d.code ≠ "" := by
  simp [placed]

/-- Entries that state a file and a code are read back from the lines that state them, and from the
report of them if none is a related place. -/
theorem ofText_text_and_report (cs : List Char) :
    ofText (joinLines ((placed (ofText cs)).map fun d => d.text.toList)) = placed (ofText cs) ∧
      ((∀ d ∈ placed (ofText cs), d.isRelated = false) →
        ofText (report (placed (ofText cs))).toList = placed (ofText cs)) := by
  have hRead : ∀ d ∈ placed (ofText cs), located? d.text.toList = some d := by
    intro d hd
    obtain ⟨hMem, hFile, hCode⟩ := mem_placed_iff.mp hd
    exact (reprints_of_mem_ofText hMem).read hFile hCode
  have hUnbroken : ∀ d ∈ placed (ofText cs), Unbroken d.text.toList := by
    intro d hd
    obtain ⟨hMem, hFile, hCode⟩ := mem_placed_iff.mp hd
    exact (reprints_of_mem_ofText hMem).unbroken hFile hCode
  constructor
  · have hNothing : ∀ l ∈ ([] : List (List Char)), Unbroken l ∧ line? l = none := by simp
    exact ofText_joinLines_append hNothing hRead hUnbroken
  · intro hPlain
    have hTitle : ∀ l ∈ [reportTitle (placed (ofText cs)).length], Unbroken l ∧ line? l = none := by
      intro l hl
      rw [List.mem_singleton.mp hl]
      exact ⟨unbroken_reportTitle _, line?_reportTitle _⟩
    rw [toList_report hPlain]
    exact ofText_joinLines_append hTitle hRead hUnbroken

/-- A file name may hold a place, and a message a header. -/
theorem ofText_report_of_parentheses :
    let ds := placed (ofText "  a(1,2) b.cs(3,4): error CS1: x(5,6): error CS2: y".toList)
    ds = [⟨⟨"a(1,2) b.cs"⟩, 3, 4, .error, "CS1", "x(5,6): error CS2: y"⟩] ∧
      (∀ d ∈ ds, d.isRelated = false) ∧ ofText (report ds).toList = ds := by
  intro ds
  have hListed : ds = [⟨⟨"a(1,2) b.cs"⟩, 3, 4, .error, "CS1", "x(5,6): error CS2: y"⟩] := by
    decide +kernel +revert
  have hPlain : ∀ d ∈ ds, d.isRelated = false := by
    rw [hListed]
    decide +kernel
  exact ⟨hListed, hPlain, (ofText_text_and_report _).2 hPlain⟩

end Listing

end ScriptBuild.Diagnostic
