import ScriptBuild.Diagnostic.Listing
import ScriptBuild.Proofs.Diagnostic.Split

/-!
# The grammar of compiler output

What a line of compiler output states, given apart from the way it is read. A line is taken apart
into white space, a file name, a place and what stands behind the place; of several ways to do so
the one with the most white space counts, and among those the one with the shortest file name. What
stands behind the place, or the whole line where there is none, is a severity, a code and a message;
failing that, the place may only point at another one of the diagnostic above.

A text states what its lines state one after the other. The reader finds exactly that.
-/

namespace ScriptBuild.Diagnostic

set_option autoImplicit false

open Text

/-! ## The parts of a line -/

structure Spot where
  row : List Char
  column : List Char
  gap : List Char
  digits_row : Run isDigit row
  digits_column : Run isDigit column
  blank_gap : Blank gap

/-- All of a line up to the colon behind its place. -/
structure Placing where
  indent : List Char
  file : List Char
  spot : Spot
  blank_indent : Blank indent
  named : file ≠ []

structure Wording where
  severity : Severity
  between : List Char
  code : List Char
  gap : List Char
  message : List Char
  blank_between : Run isBlank between
  word_code : Run isWord code
  blank_gap : Blank gap

def Spot.text (s : Spot) : List Char :=
  '(' :: (s.row ++ ',' :: (s.column ++ ')' :: (s.gap ++ [':'])))

def Placing.text (p : Placing) : List Char := p.indent ++ (p.file ++ p.spot.text)

def Wording.text (u : Wording) : List Char :=
  u.severity.word.toList ++ (u.between ++ (u.code ++ (u.gap ++ ':' :: u.message)))

/-- The number that digits give in a place. Digits of other scripts and numbers of more than 32 bits
count as 0. -/
inductive Counts (digits : List Char) : UInt32 → Prop
  | fits {n : UInt32} (hDigits : ∀ c ∈ digits, c.isDigit = true)
      (hValue : Nat.ofDigitChars 10 digits 0 = n.toNat) : Counts digits n
  | lost (hLost : ¬ ((∀ c ∈ digits, c.isDigit = true) ∧ Nat.ofDigitChars 10 digits 0 < UInt32.size)) :
      Counts digits 0

def Worded (cs : List Char) (u : Wording) : Prop := ∃ gap, Blank gap ∧ cs = gap ++ u.text

/-- The way to take a line apart that counts, where only some texts may stand behind the place. -/
structure Preferred (Behind : List Char → Prop) (line : List Char) (p : Placing)
    (rest : List Char) : Prop where
  joined : line = p.text ++ rest
  behind : Behind rest
  longest : ∀ q r, line = Placing.text q ++ r → Behind r → q.indent.length ≤ p.indent.length
  shortest : ∀ q r, line = Placing.text q ++ r → Behind r →
    q.indent.length = p.indent.length → p.file.length ≤ q.file.length

def Placed (Behind : List Char → Prop) (line : List Char) : Prop :=
  ∃ p r, line = Placing.text p ++ r ∧ Behind r

def IsWorded (cs : List Char) : Prop := ∃ u, Worded cs u

def Anything (_ : List Char) : Prop := True

/-! ## What lines state -/

/-- What a line states after the diagnostic above it, if it states anything. -/
inductive IsEntry (previous : Option Diagnostic) (line : List Char) : Option Diagnostic → Prop
  | located {p : Placing} {rest : List Char} {u : Wording} {row column : UInt32}
      (hSplit : Preferred IsWorded line p rest) (hWords : Worded rest u)
      (hRow : Counts p.spot.row row) (hColumn : Counts p.spot.column column) :
      IsEntry previous line (some ⟨⟨String.ofList p.file⟩, row, column, u.severity,
        String.ofList u.code, String.ofList (trim u.message)⟩)
  | unlocated {u : Wording} (hNowhere : ¬ Placed IsWorded line) (hWords : Worded line u) :
      IsEntry previous line (some ⟨⟨""⟩, 0, 0, u.severity, String.ofList u.code,
        String.ofList (trim u.message)⟩)
  | related {p : Placing} {message : List Char} {row column : UInt32}
      (hNowhere : ¬ Placed IsWorded line) (hWordless : ¬ IsWorded line)
      (hSplit : Preferred Anything line p message)
      (hMarked : relatedMarker.toList <:+: message)
      (hRow : Counts p.spot.row row) (hColumn : Counts p.spot.column column) :
      IsEntry previous line (some ⟨⟨String.ofList p.file⟩, row, column,
        (previous.map Diagnostic.severity).getD .error, (previous.map Diagnostic.code).getD "",
        String.ofList (trim message)⟩)
  | passed (hNowhere : ¬ Placed IsWorded line) (hWordless : ¬ IsWorded line)
      (hUnmarked : ∀ p message, Preferred Anything line p message →
        ¬ relatedMarker.toList <:+: message) :
      IsEntry previous line none

/-- What lines state one after the other: each line one diagnostic at most. -/
inductive AreEntries : Option Diagnostic → List (List Char) → List Diagnostic → Prop
  | nil {previous : Option Diagnostic} : AreEntries previous [] []
  | states {previous : Option Diagnostic} {line : List Char} {below : List (List Char)}
      {d : Diagnostic} {ds : List Diagnostic} (hLine : IsEntry previous line (some d))
      (hBelow : AreEntries (some d) below ds) : AreEntries previous (line :: below) (d :: ds)
  | passes {previous : Option Diagnostic} {line : List Char} {below : List (List Char)}
      {ds : List Diagnostic} (hLine : IsEntry previous line none)
      (hBelow : AreEntries previous below ds) : AreEntries previous (line :: below) ds

/-! ## Readers of the parts -/

def Spot.place (s : Spot) : UInt32 × UInt32 := (placeNumber s.row, placeNumber s.column)

def Wording.finding (u : Wording) : Finding :=
  ⟨u.severity, String.ofList u.code, String.ofList (trim u.message)⟩

variable {α : Type} {read? : List Char → Option α} {Behind : List Char → Prop}
  {cs rest line w f r digits part message : List Char} {place : UInt32 × UInt32} {p : Placing}
  {u : Wording} {d : Diagnostic} {previous : Option Diagnostic}

theorem counts_iff {n : UInt32} : Counts digits n ↔ placeNumber digits = n := by
  have hValue : decimal digits = Nat.ofDigitChars 10 digits 0 := rfl
  simp only [placeNumber, Bool.and_eq_true, decide_eq_true_eq, List.all_eq_true, hValue]
  constructor
  · intro h
    cases h with
    | fits hDigits hFits =>
      rw [hFits, if_pos ⟨hDigits, n.toNat_lt⟩]
      exact UInt32.ofNat_toNat
    | lost hLost => exact if_neg hLost
  · intro h
    subst h
    split
    · rename_i hFits
      apply Counts.fits hFits.1
      exact (UInt32.toNat_ofNat_of_lt hFits.2).symm
    · rename_i hLost
      exact .lost hLost

theorem place?_eq_some_iff_spot : place? cs = some (place, rest) ↔
    ∃ s : Spot, s.place = place ∧ cs = s.text ++ rest := by
  rw [place?_eq_some_iff]
  constructor
  · intro ⟨_, hHeader, hcs⟩
    obtain ⟨hRow, hColumn, hGap⟩ := hHeader
    exact ⟨⟨_, _, _, hRow, hColumn, hGap⟩, rfl, hcs⟩
  · intro ⟨s, hPlace, hcs⟩
    rw [← hPlace]
    exact ⟨s.text, .mk s.digits_row s.digits_column s.blank_gap, hcs⟩

theorem finding?_eq_some_iff_wording {finding : Finding} : finding? cs = some finding ↔
    ∃ u : Wording, u.finding = finding ∧ cs = u.text := by
  rw [finding?_eq_some_iff]
  constructor
  · intro ⟨_, message, hHeader, hcs, hMessage⟩
    obtain ⟨severity, code, text⟩ := finding
    obtain ⟨hBetween, hCode, hGap⟩ := hHeader
    refine ⟨⟨severity, _, code.toList, _, message, hBetween, hCode, hGap⟩, ?_, ?_⟩
    · rw [Wording.finding, String.ofList_toList, ← hMessage]
    · rw [hcs]
      simp [Wording.text]
  · intro ⟨u, hFinding, hcs⟩
    rw [← hFinding]
    have hCode : Run isWord (String.ofList u.code).toList := by simpa using u.word_code
    refine ⟨_, u.message, .mk u.blank_between hCode u.blank_gap, ?_, rfl⟩
    rw [hcs]
    simp [Wording.text, Wording.finding]

theorem dropBlank_text (u : Wording) {gap : List Char} (hGap : Blank gap) :
    dropBlank (gap ++ u.text) = u.text := dropBlank_append_word hGap

theorem finding?_dropBlank_eq_some_iff {finding : Finding} :
    finding? (dropBlank cs) = some finding ↔ ∃ u, u.finding = finding ∧ Worded cs u := by
  rw [finding?_eq_some_iff_wording]
  constructor
  · intro ⟨u, hFinding, hDrop⟩
    obtain ⟨gap, hGap, hcs⟩ := exists_blank_append_dropBlank cs
    exact ⟨u, hFinding, gap, hGap, by rw [← hDrop, ← hcs]⟩
  · intro ⟨u, hFinding, gap, hGap, hcs⟩
    exact ⟨u, hFinding, by rw [hcs, dropBlank_text u hGap]⟩

theorem locatedTail?_eq_some_iff_spot {finding : Finding} :
    locatedTail? cs = some (place, finding) ↔ ∃ (s : Spot) (rest : List Char) (u : Wording),
      s.place = place ∧ u.finding = finding ∧ cs = s.text ++ rest ∧ Worded rest u := by
  simp only [locatedTail?, Option.bind_eq_bind, Option.bind_eq_some_iff, Prod.exists,
    Option.pure_def, Option.some.injEq, Prod.mk.injEq]
  constructor
  · rintro ⟨row, column, rest, hPlace, found, hFinding, hSame, hFound⟩
    obtain ⟨s, hSpot, hcs⟩ := place?_eq_some_iff_spot.mp hPlace
    obtain ⟨u, hWording, hWords⟩ := finding?_dropBlank_eq_some_iff.mp hFinding
    exact ⟨s, rest, u, hSpot.trans hSame, hWording.trans hFound, hcs, hWords⟩
  · rintro ⟨s, rest, u, hSpot, hWording, hcs, hWords⟩
    exact ⟨s.place.1, s.place.2, rest, place?_eq_some_iff_spot.mpr ⟨s, rfl, hcs⟩, u.finding,
      finding?_dropBlank_eq_some_iff.mpr ⟨u, rfl, hWords⟩, hSpot, hWording⟩

theorem relatedTail?_eq_some_iff_spot {text : String} :
    relatedTail? cs = some (place, text) ↔ ∃ (s : Spot) (message : List Char),
      s.place = place ∧ cs = s.text ++ message ∧ text = String.ofList (trim message) := by
  simp only [relatedTail?, Option.bind_eq_bind, Option.bind_eq_some_iff, Prod.exists,
    Option.pure_def, Option.some.injEq, Prod.mk.injEq]
  constructor
  · rintro ⟨row, column, message, hPlace, hSame, hText⟩
    obtain ⟨s, hSpot, hcs⟩ := place?_eq_some_iff_spot.mp hPlace
    exact ⟨s, message, hSpot.trans hSame, hcs, hText.symm⟩
  · rintro ⟨s, message, hSpot, hcs, hText⟩
    exact ⟨s.place.1, s.place.2, message, place?_eq_some_iff_spot.mpr ⟨s, rfl, hcs⟩, hSpot,
      hText.symm⟩

/-! ## The split that counts -/

def ReadsBehind (read? : List Char → Option α) (Behind : List Char → Prop) : Prop :=
  ∀ cs, (read? cs).isSome = true ↔ ∃ (s : Spot) (rest : List Char), cs = s.text ++ rest ∧ Behind rest

theorem readsBehind_locatedTail? : ReadsBehind locatedTail? IsWorded := by
  intro cs
  rw [Option.isSome_iff_exists, Prod.exists]
  constructor
  · intro ⟨place, finding, hRead⟩
    obtain ⟨s, rest, u, -, -, hcs, hWords⟩ := locatedTail?_eq_some_iff_spot.mp hRead
    exact ⟨s, rest, hcs, u, hWords⟩
  · intro ⟨s, rest, hcs, u, hWords⟩
    exact ⟨s.place, u.finding, locatedTail?_eq_some_iff_spot.mpr ⟨s, rest, u, rfl, rfl, hcs, hWords⟩⟩

theorem readsBehind_relatedTail? : ReadsBehind relatedTail? Anything := by
  intro cs
  rw [Option.isSome_iff_exists, Prod.exists]
  constructor
  · intro ⟨place, text, hRead⟩
    obtain ⟨s, message, -, hcs, -⟩ := relatedTail?_eq_some_iff_spot.mp hRead
    exact ⟨s, message, hcs, trivial⟩
  · intro ⟨s, message, hcs, _⟩
    exact ⟨s.place, _, relatedTail?_eq_some_iff_spot.mpr ⟨s, message, rfl, hcs, rfl⟩⟩

theorem split_of_placing (hReads : ReadsBehind read? Behind) (hJoined : line = p.text ++ rest)
    (hBehind : Behind rest) : Split read? line p.indent p.file (p.spot.text ++ rest) := by
  refine ⟨?_, p.blank_indent, p.named, (hReads _).mpr ⟨p.spot, rest, rfl, hBehind⟩⟩
  rw [hJoined, Placing.text, List.append_assoc, List.append_assoc]

theorem exists_placing_of_split (hReads : ReadsBehind read? Behind)
    (hSplit : Split read? line w f r) : ∃ p rest, Placing.indent p = w ∧ p.file = f ∧
      r = p.spot.text ++ rest ∧ line = p.text ++ rest ∧ Behind rest := by
  obtain ⟨s, rest, hr, hBehind⟩ := (hReads r).mp hSplit.readable
  have hJoined := hSplit.joined
  rw [hr] at hJoined
  refine ⟨⟨w, f, s, hSplit.blank, hSplit.named⟩, rest, rfl, rfl, hr, ?_, hBehind⟩
  simpa [Placing.text] using hJoined

theorem Preferred.chosen (hReads : ReadsBehind read? Behind)
    (h : Preferred Behind line p rest) :
    Chosen read? line p.indent p.file (p.spot.text ++ rest) := by
  refine ⟨split_of_placing hReads h.joined h.behind, ?_, ?_⟩
  · intro w' f' r' hSplit
    obtain ⟨q, s, hIndent, -, -, hJoined, hBehind⟩ := exists_placing_of_split hReads hSplit
    rw [← hIndent]
    exact h.longest q s hJoined hBehind
  · intro w' f' r' hSplit hLength
    obtain ⟨q, s, hIndent, hFile, -, hJoined, hBehind⟩ := exists_placing_of_split hReads hSplit
    rw [← hFile]
    rw [← hIndent] at hLength
    exact h.shortest q s hJoined hBehind hLength

theorem Chosen.preferred (hReads : ReadsBehind read? Behind)
    (h : Chosen read? line p.indent p.file (p.spot.text ++ rest)) (hJoined : line = p.text ++ rest)
    (hBehind : Behind rest) : Preferred Behind line p rest := by
  refine ⟨hJoined, hBehind, ?_, ?_⟩
  · intro q s hOther hOtherBehind
    exact h.longest _ _ _ (split_of_placing hReads hOther hOtherBehind)
  · intro q s hOther hOtherBehind hLength
    exact h.shortest _ _ _ (split_of_placing hReads hOther hOtherBehind) hLength

theorem withFile?_eq_none_iff (hReads : ReadsBehind read? Behind) :
    withFile? read? line = none ↔ ¬ Placed Behind line := by
  constructor
  · intro hNone ⟨p, rest, hJoined, hBehind⟩
    exact withFile?_eq_none hNone (split_of_placing hReads hJoined hBehind)
  · intro hPlaced
    cases hRead : withFile? read? line with
    | none => rfl
    | some found =>
      obtain ⟨w, r, hChosen, -⟩ := chosen_of_withFile? (f := found.1) (a := found.2) hRead
      obtain ⟨p, rest, -, -, -, hJoined, hBehind⟩ := exists_placing_of_split hReads hChosen.toSplit
      exact absurd ⟨p, rest, hJoined, hBehind⟩ hPlaced

/-- What a line with a place is read as: its file name and what its preferred split gives. -/
theorem withFile?_eq_some_iff_preferred (hReads : ReadsBehind read? Behind) {a : α} :
    withFile? read? line = some (f, a) ↔ ∃ p rest, Preferred Behind line p rest ∧ p.file = f ∧
      read? (p.spot.text ++ rest) = some a := by
  rw [withFile?_eq_some_iff]
  constructor
  · intro ⟨w, r, hChosen, hRead⟩
    obtain ⟨p, rest, hIndent, hFile, hr, hJoined, hBehind⟩ :=
      exists_placing_of_split hReads hChosen.toSplit
    rw [hr] at hRead
    rw [← hIndent, ← hFile, hr] at hChosen
    exact ⟨p, rest, hChosen.preferred hReads hJoined hBehind, hFile, hRead⟩
  · intro ⟨p, rest, hPreferred, hFile, hRead⟩
    rw [← hFile]
    exact ⟨p.indent, _, hPreferred.chosen hReads, hRead⟩

/-! ## Each form of a line -/

theorem located?_eq_none_iff : located? line = none ↔ ¬ Placed IsWorded line := by
  rw [located?, Option.map_eq_none_iff]
  exact withFile?_eq_none_iff readsBehind_locatedTail?

theorem located?_of_preferred (hSplit : Preferred IsWorded line p rest) (hWords : Worded rest u) :
    located? line = some ⟨⟨String.ofList p.file⟩, placeNumber p.spot.row, placeNumber p.spot.column,
      u.severity, String.ofList u.code, String.ofList (trim u.message)⟩ := by
  have hRead : locatedTail? (p.spot.text ++ rest) = some (p.spot.place, u.finding) :=
    locatedTail?_eq_some_iff_spot.mpr ⟨p.spot, rest, u, rfl, rfl, rfl, hWords⟩
  have hFile : withFile? locatedTail? line = some (p.file, p.spot.place, u.finding) :=
    (withFile?_eq_some_iff_preferred readsBehind_locatedTail?).mpr ⟨p, rest, hSplit, rfl, hRead⟩
  rw [located?, hFile]
  rfl

theorem exists_preferred_of_placed (hReads : ReadsBehind read? Behind)
    (h : Placed Behind line) : ∃ p rest, Preferred Behind line p rest := by
  cases hRead : withFile? read? line with
  | none => exact absurd h ((withFile?_eq_none_iff hReads).mp hRead)
  | some found =>
    obtain ⟨p, rest, hPreferred, -⟩ := (withFile?_eq_some_iff_preferred hReads).mp hRead
    exact ⟨p, rest, hPreferred⟩

theorem unlocated?_eq_none_iff : unlocated? line = none ↔ ¬ IsWorded line := by
  rw [unlocated?, Option.map_eq_none_iff, ← not_iff_not, ← ne_eq, Option.ne_none_iff_exists']
  simp only [finding?_dropBlank_eq_some_iff, not_not, IsWorded]
  constructor
  · intro ⟨_, u, _, hWords⟩
    exact ⟨u, hWords⟩
  · intro ⟨u, hWords⟩
    exact ⟨u.finding, u, rfl, hWords⟩

theorem unlocated?_of_worded (hWords : Worded line u) :
    unlocated? line = some ⟨⟨""⟩, 0, 0, u.severity, String.ofList u.code,
      String.ofList (trim u.message)⟩ := by
  have hRead : finding? (dropBlank line) = some u.finding :=
    finding?_dropBlank_eq_some_iff.mpr ⟨u, rfl, hWords⟩
  rw [unlocated?, hRead]
  rfl

theorem occursIn_iff : occursIn part cs = true ↔ part <:+: cs := by
  induction cs with
  | nil => simp [occursIn]
  | cons c cs ih =>
    rw [occursIn, Bool.or_eq_true, ih, List.isPrefixOf_iff_prefix, List.infix_cons_iff]

theorem marksRelated_trim_iff :
    marksRelated (String.ofList (trim message)) = true ↔ relatedMarker.toList <:+: message := by
  have hHead : relatedMarker.toList.head? = some '(' := by decide +kernel
  have hLast : relatedMarker.toList.getLast? = some ')' := by decide +kernel
  rw [marksRelated, occursIn_iff, String.toList_ofList]
  apply infix_trim_iff
  · intro c hc
    obtain rfl := Option.some.inj (hHead.symm.trans hc)
    rfl
  · intro c hc
    obtain rfl := Option.some.inj (hLast.symm.trans hc)
    rfl

theorem withFile?_relatedTail?_of_preferred (hSplit : Preferred Anything line p message) :
    withFile? relatedTail? line = some (p.file, p.spot.place, String.ofList (trim message)) := by
  have hRead : relatedTail? (p.spot.text ++ message) =
      some (p.spot.place, String.ofList (trim message)) :=
    relatedTail?_eq_some_iff_spot.mpr ⟨p.spot, message, rfl, rfl, rfl⟩
  exact (withFile?_eq_some_iff_preferred readsBehind_relatedTail?).mpr ⟨p, message, hSplit, rfl, hRead⟩

theorem related?_of_preferred (hSplit : Preferred Anything line p message)
    (hMarked : relatedMarker.toList <:+: message) :
    related? line = some (.related ⟨String.ofList p.file⟩ (placeNumber p.spot.row)
      (placeNumber p.spot.column) (String.ofList (trim message))) := by
  rw [related?, withFile?_relatedTail?_of_preferred hSplit]
  exact if_pos (marksRelated_trim_iff.mpr hMarked)

theorem related?_eq_none (hUnmarked : ∀ p message, Preferred Anything line p message →
    ¬ relatedMarker.toList <:+: message) : related? line = none := by
  by_cases hPlaced : Placed Anything line
  · obtain ⟨p, message, hSplit⟩ := exists_preferred_of_placed readsBehind_relatedTail? hPlaced
    rw [related?, withFile?_relatedTail?_of_preferred hSplit]
    exact if_neg (mt marksRelated_trim_iff.mp (hUnmarked p message hSplit))
  · rw [related?, (withFile?_eq_none_iff readsBehind_relatedTail?).mpr hPlaced]

/-! ## Texts -/

theorem line?_of_isEntry {d? : Option Diagnostic} (h : IsEntry previous line d?) :
    (line? line).map (Line.after previous) = d? := by
  cases h with
  | located hSplit hWords hRow hColumn =>
    rw [line?, located?_of_preferred hSplit hWords, counts_iff.mp hRow, counts_iff.mp hColumn]
    rfl
  | unlocated hNowhere hWords =>
    rw [line?, located?_eq_none_iff.mpr hNowhere, unlocated?_of_worded hWords]
    rfl
  | related hNowhere hWordless hSplit hMarked hRow hColumn =>
    rw [line?, located?_eq_none_iff.mpr hNowhere, unlocated?_eq_none_iff.mpr hWordless,
      related?_of_preferred hSplit hMarked, counts_iff.mp hRow, counts_iff.mp hColumn]
    cases previous <;> rfl
  | passed hNowhere hWordless hUnmarked =>
    rw [line?, located?_eq_none_iff.mpr hNowhere, unlocated?_eq_none_iff.mpr hWordless,
      related?_eq_none hUnmarked]
    rfl

theorem exists_isEntry (previous : Option Diagnostic) (line : List Char) :
    ∃ d?, IsEntry previous line d? := by
  by_cases hPlaced : Placed IsWorded line
  · obtain ⟨p, rest, hSplit⟩ := exists_preferred_of_placed readsBehind_locatedTail? hPlaced
    obtain ⟨u, hWords⟩ := hSplit.behind
    exact ⟨_, .located hSplit hWords (counts_iff.mpr rfl) (counts_iff.mpr rfl)⟩
  by_cases hWorded : IsWorded line
  · obtain ⟨u, hWords⟩ := hWorded
    exact ⟨_, .unlocated hPlaced hWords⟩
  by_cases hMarked : ∃ p message, Preferred Anything line p message ∧
      relatedMarker.toList <:+: message
  · obtain ⟨p, message, hSplit, hMarked⟩ := hMarked
    exact ⟨_, .related hPlaced hWorded hSplit hMarked (counts_iff.mpr rfl) (counts_iff.mpr rfl)⟩
  · exact ⟨_, .passed hPlaced hWorded fun p message hSplit hMark =>
      hMarked ⟨p, message, hSplit, hMark⟩⟩

/-- A line is read as what it states. -/
theorem isEntry_iff {d? : Option Diagnostic} :
    IsEntry previous line d? ↔ (line? line).map (Line.after previous) = d? := by
  constructor
  · exact line?_of_isEntry
  · intro h
    obtain ⟨e?, hEntry⟩ := exists_isEntry previous line
    rw [← h, line?_of_isEntry hEntry]
    exact hEntry

theorem areEntries_iff {ls : List (List Char)} {ds : List Diagnostic} :
    AreEntries previous ls ds ↔ entries previous (ls.filterMap line?) = ds := by
  induction ls generalizing previous ds with
  | nil =>
    constructor
    · intro h
      cases h
      rfl
    · intro h
      subst h
      exact .nil
  | cons line below ih =>
    cases hLine : line? line with
    | none =>
      have hEntry : ∀ d?, IsEntry previous line d? ↔ none = d? := by
        intro d?
        rw [isEntry_iff, hLine, Option.map_none]
      rw [List.filterMap_cons_none hLine, ← ih]
      constructor
      · intro h
        cases h with
        | states hStates _ => simp [hEntry] at hStates
        | passes _ hBelow => exact hBelow
      · exact .passes ((hEntry none).mpr rfl)
    | some l =>
      have hEntry : ∀ d?, IsEntry previous line d? ↔ some (l.after previous) = d? := by
        intro d?
        rw [isEntry_iff, hLine, Option.map_some]
      rw [List.filterMap_cons_some hLine, entries_cons]
      constructor
      · intro h
        cases h with
        | states hStates hBelow =>
          obtain rfl := Option.some.inj ((hEntry _).mp hStates)
          rw [ih.mp hBelow]
        | passes hPasses _ => simp [hEntry] at hPasses
      · intro h
        subst h
        exact .states ((hEntry _).mpr rfl) (ih.mpr rfl)

/-- The diagnostics read from a text are those that its lines state, in their order. -/
theorem ofText_eq_iff_areEntries (cs : List Char) (ds : List Diagnostic) :
    ofText cs = ds ↔ AreEntries none (lines cs) ds := by
  rw [ofText, recognised]
  exact areEntries_iff.symm

end ScriptBuild.Diagnostic
