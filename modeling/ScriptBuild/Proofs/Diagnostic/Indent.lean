import ScriptBuild.Proofs.Diagnostic.Grammar
import ScriptBuild.Proofs.Diagnostic.Recognised

/-!
# Indented lines

White space put before a line changes nothing in what the line states, with one exception: a line
that begins with its place and cannot be taken apart further on has no file name, so by itself it
states nothing; put in, it has the last white space character for its file name. Such lines are the
only source of a file name that is white space.
-/

namespace ScriptBuild.Diagnostic

set_option autoImplicit false

open Text

/-- A line that begins with its place, where a file name would make a diagnostic of it. -/
inductive Nameless (line : List Char) : Prop
  | located {s : Spot} {rest : List Char} (hLine : line = s.text ++ rest) (hWorded : IsWorded rest)
      (hNowhere : ¬ Placed IsWorded line) : Nameless line
  | related {s : Spot} {message : List Char} (hLine : line = s.text ++ message)
      (hMarked : relatedMarker.toList <:+: message) (hNowhere : ¬ Placed Anything line) :
      Nameless line

variable {α : Type} {read? : List Char → Option α} {Header : List Char → Prop}
  {cs line w f : List Char} {a : α} {c : Char} {l : Line}

theorem Nameless.opening (h : Nameless line) : ∃ t, line = '(' :: t := by
  cases h with
  | located hLine _ _ => exact ⟨_, hLine⟩
  | related hLine _ _ => exact ⟨_, hLine⟩

/-! ## Readers of indented lines -/

theorem shortest?_eq_none_of_withFile? (h : withFile? read? line = none) :
    shortest? read? line = none := by
  cases line with
  | nil => rfl
  | cons c rest =>
    rw [withFile?_cons] at h
    split at h
    · exact (Option.or_eq_none_iff.mp h).2
    · exact h

theorem not_readable_of_isBlank (hHeaded : Headed read? Header) (hc : isBlank c = true) :
    read? (c :: line) = none := by
  by_contra hRead
  obtain ⟨t, hOpening⟩ := hHeaded.opening (Option.isSome_iff_ne_none.mpr hRead)
  obtain ⟨rfl, -⟩ := List.cons.inj hOpening
  exact absurd hc (by decide)

/-- White space before a line is taken off again, unless the line is read from its first character
on and in no other way. -/
theorem withFile?_blank_append (hHeaded : Headed read? Header) (hw : Blank w)
    (hc : isBlank c = true) : withFile? read? (w ++ c :: line) =
      (withFile? read? line).or ((read? line).map fun a => ([c], a)) := by
  induction w with
  | nil =>
    rw [List.nil_append, withFile?_cons, if_pos hc]
    cases hRest : withFile? read? line with
    | some found => rfl
    | none =>
      have hShortest := shortest?_eq_none_of_withFile? hRest
      rw [Option.none_or, Option.none_or, shortest?, hShortest]
      cases read? line with
      | some a => rfl
      | none => rfl
  | cons b w ih =>
    obtain ⟨hb, hw⟩ := blank_cons.mp hw
    have hRest := ih hw
    rw [List.cons_append, withFile?_cons, if_pos hb]
    cases hFound : withFile? read? (w ++ c :: line) with
    | some found =>
      rw [hFound] at hRest
      rw [Option.some_or, hRest]
    | none =>
      have hUnread : read? (w ++ c :: line) = none := by
        cases w with
        | nil => exact not_readable_of_isBlank hHeaded hc
        | cons d w => exact not_readable_of_isBlank hHeaded (blank_cons.mp hw).1
      have hShortest := shortest?_eq_none_of_withFile? hFound
      rw [hFound] at hRest
      rw [Option.none_or, ← hRest, shortest?, hUnread, hShortest]
      rfl

/-- A file name of white space is one character long and stands before a line that is read from its
first character on and in no other way. -/
theorem exists_of_blank_file (hHeaded : Headed read? Header)
    (h : withFile? read? cs = some (f, a)) (hf : Blank f) :
    ∃ w c line, cs = w ++ c :: line ∧ Blank w ∧ isBlank c = true ∧ f = [c] ∧
      withFile? read? line = none ∧ read? line = some a := by
  obtain ⟨w, r, hChosen, -⟩ := chosen_of_withFile? h
  obtain hNil | ⟨v, c, hConcat, hv, hc⟩ := hf.eq_nil_or_concat
  · exact absurd hNil hChosen.named
  have hJoined : cs = (w ++ v) ++ c :: r := by
    rw [hChosen.joined, hConcat]
    simp
  have hIndent : Blank (w ++ v) := blank_append.mpr ⟨hChosen.blank, hv⟩
  have hNone : withFile? read? r = none := by
    by_contra hSome
    -- a second split of the line would take off more white space
    obtain ⟨found, hFound⟩ := Option.ne_none_iff_exists'.mp hSome
    obtain ⟨w', r', hSplit, -⟩ := chosen_of_withFile? (f := found.1) (a := found.2) hFound
    have hLonger : Split read? cs ((w ++ (v ++ [c])) ++ w') found.1 r' := by
      refine ⟨?_, ?_, hSplit.named, hSplit.readable⟩
      · rw [hJoined, hSplit.joined]
        simp
      · simp [hChosen.blank, hv, hc, hSplit.blank]
    rw [List.append_assoc] at hLonger
    have hNothing := hChosen.eq_nil_of_split hLonger
    simp at hNothing
  rw [hJoined, withFile?_blank_append hHeaded hIndent hc, hNone, Option.none_or,
    Option.map_eq_some_iff] at h
  obtain ⟨b, hRead, hSame⟩ := h
  obtain ⟨hFile, hRest⟩ := Prod.mk.inj hSame
  exact ⟨w ++ v, c, r, hJoined, hIndent, hc, hFile.symm, hNone, hRest ▸ hRead⟩

/-! ## Indented lines -/

theorem unlocated?_blank_append (hw : Blank w) : unlocated? (w ++ line) = unlocated? line := by
  rw [unlocated?, dropBlank_append hw, unlocated?]

theorem unlocated?_opening (t : List Char) : unlocated? ('(' :: t) = none := rfl

theorem located?_blank_append (hw : Blank w) (hc : isBlank c = true) (hNamed : ¬ Nameless line) :
    located? (w ++ c :: line) = located? line := by
  rw [located?, withFile?_blank_append headed_locatedTail? hw hc, located?]
  cases hFile : withFile? locatedTail? line with
  | some found => rfl
  | none =>
    cases hTail : locatedTail? line with
    | none => rfl
    | some found =>
      obtain ⟨s, rest, u, -, -, hLine, hWords⟩ := locatedTail?_eq_some_iff_spot.mp hTail
      have hNowhere := (withFile?_eq_none_iff readsBehind_locatedTail?).mp hFile
      exact absurd (.located hLine ⟨u, hWords⟩ hNowhere) hNamed

theorem related?_blank_append (hw : Blank w) (hc : isBlank c = true) (hNamed : ¬ Nameless line) :
    related? (w ++ c :: line) = related? line := by
  rw [related?, withFile?_blank_append headed_relatedTail? hw hc, related?]
  cases hFile : withFile? relatedTail? line with
  | some found => rfl
  | none =>
    cases hTail : relatedTail? line with
    | none => rfl
    | some found =>
      obtain ⟨s, message, -, hLine, hText⟩ := relatedTail?_eq_some_iff_spot.mp hTail
      have hNowhere := (withFile?_eq_none_iff readsBehind_relatedTail?).mp hFile
      have hUnmarked : ¬ marksRelated found.2 = true := by
        intro hMarks
        rw [hText] at hMarks
        exact hNamed (.related hLine (marksRelated_trim_iff.mp hMarks) hNowhere)
      exact if_neg hUnmarked

theorem line?_blank_append (hw : Blank w) (hNamed : ¬ Nameless line) :
    line? (w ++ line) = line? line := by
  obtain hNil | ⟨v, c, hConcat, hv, hc⟩ := hw.eq_nil_or_concat
  · rw [hNil, List.nil_append]
  · have hJoined : w ++ line = v ++ c :: line := by simp [hConcat]
    rw [line?, unlocated?_blank_append hw, hJoined, located?_blank_append hv hc hNamed,
      related?_blank_append hv hc hNamed, line?]

theorem exists_line?_of_nameless (hw : Blank w) (hc : isBlank c = true) (h : Nameless line) :
    ∃ l, line? (w ++ c :: line) = some l ∧ l.file = ⟨String.ofList [c]⟩ := by
  have hNowhere : withFile? locatedTail? line = none := by
    apply (withFile?_eq_none_iff readsBehind_locatedTail?).mpr
    cases h with
    | located _ _ hNowhere => exact hNowhere
    | related _ _ hNowhere =>
      intro ⟨p, rest, hJoined, _⟩
      exact hNowhere ⟨p, rest, hJoined, trivial⟩
  cases hTail : locatedTail? line with
  | some found =>
    have hLocated : located? (w ++ c :: line) = some ⟨⟨String.ofList [c]⟩, found.1.1, found.1.2,
        found.2.severity, found.2.code, found.2.message⟩ := by
      rw [located?, withFile?_blank_append headed_locatedTail? hw hc, hNowhere, hTail]
      rfl
    rw [line?, hLocated]
    exact ⟨_, rfl, rfl⟩
  | none =>
    have hLocated : located? (w ++ c :: line) = none := by
      rw [located?, withFile?_blank_append headed_locatedTail? hw hc, hNowhere, hTail]
      rfl
    have hUnlocated : unlocated? (w ++ c :: line) = none := by
      obtain ⟨t, hOpening⟩ := h.opening
      have hIndent : Blank (w ++ [c]) := by simp [hw, hc]
      have hJoined : w ++ c :: line = (w ++ [c]) ++ '(' :: t := by simp [hOpening]
      rw [hJoined, unlocated?_blank_append hIndent, unlocated?_opening]
    cases h with
    | @located s rest hLine hWorded _ =>
      obtain ⟨u, hWords⟩ := hWorded
      have hRead := locatedTail?_eq_some_iff_spot.mpr ⟨s, rest, u, rfl, rfl, hLine, hWords⟩
      simp [hTail] at hRead
    | @related s message hLine hMarked hNone =>
      have hRead := relatedTail?_eq_some_iff_spot.mpr ⟨s, message, rfl, hLine, rfl⟩
      have hFile := (withFile?_eq_none_iff readsBehind_relatedTail?).mpr hNone
      have hRelated : related? (w ++ c :: line) = some (.related ⟨String.ofList [c]⟩ s.place.1
          s.place.2 (String.ofList (trim message))) := by
        rw [related?, withFile?_blank_append headed_relatedTail? hw hc, hFile, hRead]
        exact if_pos (marksRelated_trim_iff.mpr hMarked)
      rw [line?, hLocated, hUnlocated, hRelated]
      exact ⟨_, rfl, rfl⟩

theorem nameless_of_blank_file (h : line? cs = some l) (hSome : l.file.text ≠ "")
    (hBlank : Blank l.file.text.toList) :
    ∃ w c line, cs = w ++ c :: line ∧ Blank w ∧ isBlank c = true ∧ Nameless line := by
  rcases line?_cases h with ⟨d, hLocated, rfl⟩ | ⟨d, _, hUnlocated, rfl⟩ | ⟨_, _, hRelated⟩
  · obtain ⟨⟨f, place, finding⟩, hFile, rfl⟩ := Option.map_eq_some_iff.mp hLocated
    have hf : Blank f := by simpa [Line.file] using hBlank
    obtain ⟨w, c, line, hJoined, hw, hc, -, hNone, hRead⟩ :=
      exists_of_blank_file headed_locatedTail? hFile hf
    obtain ⟨s, rest, u, -, -, hLine, hWords⟩ := locatedTail?_eq_some_iff_spot.mp hRead
    have hNowhere := (withFile?_eq_none_iff readsBehind_locatedTail?).mp hNone
    exact ⟨w, c, line, hJoined, hw, hc, .located hLine ⟨u, hWords⟩ hNowhere⟩
  · obtain ⟨finding, -, rfl⟩ := Option.map_eq_some_iff.mp hUnlocated
    exact absurd rfl hSome
  · rw [related?] at hRelated
    split at hRelated
    · simp at hRelated
    · rename_i f row column text hFile
      split at hRelated
      · rename_i hMarks
        obtain rfl := Option.some.inj hRelated
        have hf : Blank f := by simpa [Line.file] using hBlank
        obtain ⟨w, c, line, hJoined, hw, hc, -, hNone, hRead⟩ :=
          exists_of_blank_file headed_relatedTail? hFile hf
        obtain ⟨s, message, -, hLine, hText⟩ := relatedTail?_eq_some_iff_spot.mp hRead
        have hNowhere := (withFile?_eq_none_iff readsBehind_relatedTail?).mp hNone
        rw [hText] at hMarks
        exact ⟨w, c, line, hJoined, hw, hc,
          .related hLine (marksRelated_trim_iff.mp hMarks) hNowhere⟩
      · simp at hRelated

/-! ## Texts -/

theorem ofText_ne_of_nameless (hw : Blank w) (hc : isBlank c = true) (h : Nameless line)
    (hIndent : '\n' ∉ w ++ [c]) (hNewline : '\n' ∉ line) :
    ofText (w ++ c :: line) ≠ ofText line := by
  intro hSame
  have hJoined : '\n' ∉ w ++ c :: line := by
    simpa [hNewline, not_or] using hIndent
  obtain ⟨l, hRead, hFile⟩ := exists_line?_of_nameless hw hc h
  rw [ofText_of_no_newline hJoined, ofText_of_no_newline hNewline, hRead] at hSame
  cases hAlone : line? line with
  | none => simp [hAlone] at hSame
  | some l' =>
    rw [hAlone] at hSame
    have hAfter : l.after none = l'.after none := by simpa using hSame
    have hFile' : l'.file = ⟨String.ofList [c]⟩ := by
      rw [← file_after none l', ← hAfter, file_after, hFile]
    have hBlank : Blank l'.file.text.toList := by simp [hFile', hc]
    obtain ⟨v, d, below, hLine, hv, hd, -⟩ :=
      nameless_of_blank_file hAlone (by simp [hFile']) hBlank
    -- the line begins with a parenthesis and, for this file name, with white space
    obtain ⟨t, hOpening⟩ := h.opening
    rw [hOpening] at hLine
    cases v with
    | nil =>
      obtain ⟨rfl, -⟩ := List.cons.inj hLine
      exact absurd hd (by decide)
    | cons e v =>
      obtain ⟨rfl, -⟩ := List.cons.inj hLine
      exact absurd (blank_cons.mp hv).1 (by decide)

theorem ofText_blank_append_eq_iff (hw : Blank w) (hIndent : '\n' ∉ w) (hNewline : '\n' ∉ line) :
    ofText (w ++ line) = ofText line ↔ w = [] ∨ ¬ Nameless line := by
  constructor
  · intro hSame
    by_contra hNot
    obtain ⟨hSome, hNameless⟩ := not_or.mp hNot
    obtain hNil | ⟨v, c, hConcat, hv, hc⟩ := hw.eq_nil_or_concat
    · exact hSome hNil
    · rw [hConcat, List.append_assoc] at hSame
      rw [hConcat] at hIndent
      exact ofText_ne_of_nameless hv hc (not_not.mp hNameless) hIndent hNewline hSame
  · intro h
    rcases h with hNil | hNamed
    · rw [hNil, List.nil_append]
    · have hJoined : '\n' ∉ w ++ line := by simp [hIndent, hNewline]
      rw [ofText_of_no_newline hJoined, ofText_of_no_newline hNewline,
        line?_blank_append hw hNamed]

theorem exists_blank_file_iff :
    (∃ d ∈ ofText cs, d.file.text ≠ "" ∧ Blank d.file.text.toList) ↔
      ∃ w line, w ≠ [] ∧ Blank w ∧ w ++ line ∈ lines cs ∧ Nameless line := by
  constructor
  · intro ⟨d, hMem, hSome, hBlank⟩
    obtain ⟨line, hLine, l, hRead, hFile⟩ := exists_mem_ofText_iff.mp ⟨d, hMem, rfl⟩
    rw [← hFile] at hSome hBlank
    obtain ⟨w, c, below, hJoined, hw, hc, hNameless⟩ :=
      nameless_of_blank_file hRead hSome hBlank
    refine ⟨w ++ [c], below, by simp, by simp [hw, hc], ?_, hNameless⟩
    rw [List.append_assoc, List.singleton_append, ← hJoined]
    exact hLine
  · intro ⟨w, line, hSome, hw, hLine, hNameless⟩
    obtain hNil | ⟨v, c, hConcat, hv, hc⟩ := hw.eq_nil_or_concat
    · exact absurd hNil hSome
    · obtain ⟨l, hRead, hFile⟩ := exists_line?_of_nameless hv hc hNameless
      rw [hConcat, List.append_assoc] at hLine
      obtain ⟨d, hMem, hSame⟩ := exists_mem_ofText_iff.mpr ⟨_, hLine, l, hRead, hFile⟩
      exact ⟨d, hMem, by simp [hSame], by simp [hSame, hc]⟩

/-- Indentation changes what a line states exactly when the line is nameless, and a text states a
file name of white space exactly when one of its lines is an indented nameless line. -/
theorem ofText_blank_append_iff (cs : List Char) :
    (∀ w, Blank w → '\n' ∉ w → '\n' ∉ cs →
      (ofText (w ++ cs) = ofText cs ↔ w = [] ∨ ¬ Nameless cs)) ∧
    ((∃ d ∈ ofText cs, d.file.text ≠ "" ∧ Blank d.file.text.toList) ↔
      ∃ w line, w ≠ [] ∧ Blank w ∧ w ++ line ∈ lines cs ∧ Nameless line) := by
  constructor
  · intro w hw hIndent hNewline
    exact ofText_blank_append_eq_iff hw hIndent hNewline
  · exact exists_blank_file_iff

/-- A line that begins with its place, but names a file further on, may be indented. -/
theorem ofText_of_indented_line :
    let line := "(1,2): error CS1: a(3,4): error CS2: y".toList
    Blank ['\t', ' '] ∧ '\n' ∉ ['\t', ' '] ∧ '\n' ∉ line ∧ ¬ Nameless line ∧
      ofText (['\t', ' '] ++ line) = ofText line := by
  intro line
  have hBlank : Blank ['\t', ' '] := by
    rw [blank_cons, blank_cons]
    exact ⟨rfl, rfl, blank_nil⟩
  have hIndent : '\n' ∉ ['\t', ' '] := by decide
  have hNewline : '\n' ∉ line := by decide +kernel +revert
  have hNamed : ¬ Nameless line := by
    have hLocated : located? line ≠ none := by decide +kernel +revert
    have hRelated : withFile? relatedTail? line ≠ none := by decide +kernel +revert
    intro h
    cases h with
    | located _ _ hNowhere => exact hLocated (located?_eq_none_iff.mpr hNowhere)
    | related _ _ hNowhere =>
      exact hRelated ((withFile?_eq_none_iff readsBehind_relatedTail?).mpr hNowhere)
  refine ⟨hBlank, hIndent, hNewline, hNamed, ?_⟩
  exact ((ofText_blank_append_iff line).1 _ hBlank hIndent hNewline).mpr (Or.inr hNamed)

/-- A space before a line that begins with its place makes a diagnostic of it, whose file name is
that space. -/
theorem ofText_of_indented_nameless_line :
    (¬ ∀ w line, Blank w → '\n' ∉ w → '\n' ∉ line → ofText (w ++ line) = ofText line) ∧
      ∃ cs, ∃ d ∈ ofText cs, d.file.text ≠ "" ∧ Blank d.file.text.toList := by
  have hAlone : ofText "(1,2): error CS1: x".toList = [] := by decide +kernel
  have hNewline : '\n' ∉ "(1,2): error CS1: x".toList := by decide +kernel
  have hIndented : ofText ([' '] ++ "(1,2): error CS1: x".toList) =
      [⟨⟨" "⟩, 1, 2, .error, "CS1", "x"⟩] := by decide +kernel
  have hBlank : Blank [' '] := by
    rw [blank_cons]
    exact ⟨rfl, blank_nil⟩
  constructor
  · intro hSame
    have h := hSame [' '] "(1,2): error CS1: x".toList hBlank (by decide) hNewline
    rw [hAlone, hIndented] at h
    cases h
  · have hSpace : " ".toList = [' '] := rfl
    refine ⟨[' '] ++ "(1,2): error CS1: x".toList, ⟨⟨" "⟩, 1, 2, .error, "CS1", "x"⟩, ?_, ?_, ?_⟩
    · rw [hIndented]
      exact List.mem_singleton_self _
    · decide
    · rw [hSpace]
      exact hBlank

end ScriptBuild.Diagnostic
