import Mathlib.Data.List.DropRight
import ScriptBuild.Proofs.Path.Parts

/-!
# Directory parts

The directory part of a path is a start of its text and of its segments. It is written without the
slashes and the `.` pieces at its end, so the path goes on from it with a slash, pieces that stand
for no segment, and the piece of the last segment. Where that segment is a name, the steps of the
path are those of the directory part, steps that lead nowhere, and a step to the name.
-/

namespace ScriptBuild.Path

set_option autoImplicit false

variable {p q : Path} {cs ds last piece : List Char} {pieces ps qs idles : List (List Char)}

/-! ## Pieces -/

theorem joinPieces_cons (piece : List Char) (hSome : ps ≠ []) :
    joinPieces (piece :: ps) = piece ++ '/' :: joinPieces ps := by
  obtain ⟨next, below, rfl⟩ := List.exists_cons_of_ne_nil hSome
  rw [joinPieces, List.intercalate_cons_cons, joinPieces, List.append_assoc, List.singleton_append]

theorem joinPieces_append (hps : ps ≠ []) (hqs : qs ≠ []) :
    joinPieces (ps ++ qs) = joinPieces ps ++ '/' :: joinPieces qs := by
  induction ps with
  | nil => exact absurd rfl hps
  | cons piece below ih =>
    by_cases hBelow : below = []
    · subst hBelow
      simpa [joinPieces] using joinPieces_cons piece hqs
    · rw [List.cons_append, joinPieces_cons piece (by simp [hBelow]), ih hBelow,
        joinPieces_cons piece hBelow, List.append_assoc, List.cons_append]

def Idle (ps : List (List Char)) : Prop := ∀ piece ∈ ps, isIdle piece = true

def Ended (ps : List (List Char)) : Prop := ∃ front last, ps = front ++ [last] ∧ isIdle last = false

theorem isIdle_iff : isIdle piece = true ↔ piece = [] ∨ piece = ['.'] := by
  constructor
  · intro h
    by_contra hOther
    obtain ⟨hSome, hHere⟩ := not_or.mp hOther
    by_cases hUp : piece = ['.', '.']
    · simp [isIdle, hUp, Segment.ofPiece?] at h
    · simp [isIdle, Segment.ofPiece?.eq_4 piece hSome hHere hUp] at h
  · rintro (rfl | rfl) <;> rfl

theorem map_stepOfPiece_of_idle (h : Idle ps) :
    ps.map stepOfPiece = List.replicate ps.length .stay := by
  rw [List.eq_replicate_iff]
  refine ⟨by simp, ?_⟩
  intro step hStep
  obtain ⟨piece, hPiece, rfl⟩ := List.mem_map.mp hStep
  rcases isIdle_iff.mp (h piece hPiece) with rfl | rfl <;> rfl

theorem stepOfPiece_of_not_idle (h : isIdle piece = false) (hUp : piece ≠ ['.', '.']) :
    stepOfPiece piece = .enter (String.ofList piece) := by
  have hOther : ¬ (piece = [] ∨ piece = ['.']) := by simp [← isIdle_iff, h]
  obtain ⟨hSome, hHere⟩ := not_or.mp hOther
  exact stepOfPiece.eq_4 piece hSome hHere hUp

theorem Idle.not_ended (h : Idle qs) (hSome : qs ≠ []) : ¬ Ended (ps ++ qs) := by
  rintro ⟨front, last, hEnd, hLast⟩
  obtain hNil | ⟨before, piece, rfl⟩ := List.eq_nil_or_concat qs
  · exact hSome hNil
  · rw [List.concat_eq_append] at h hEnd
    rw [← List.append_assoc] at hEnd
    obtain ⟨-, hSame⟩ := List.append_inj' hEnd rfl
    obtain rfl : piece = last := by simpa using hSame
    simp [h piece (by simp)] at hLast

theorem dropIdleEnd_eq (pieces : List (List Char)) :
    ∃ idles, pieces = dropIdleEnd pieces ++ idles ∧ Idle idles ∧
      (dropIdleEnd pieces = [] ∨ Ended (dropIdleEnd pieces)) := by
  have hDrop : dropIdleEnd pieces = pieces.rdropWhile isIdle := rfl
  refine ⟨pieces.rtakeWhile isIdle, ?_, ?_, ?_⟩
  · rw [hDrop, List.rdropWhile_append_rtakeWhile]
  · exact fun piece hPiece => List.mem_rtakeWhile_imp hPiece
  · rw [hDrop]
    by_cases hNil : pieces.rdropWhile isIdle = []
    · exact Or.inl hNil
    · refine Or.inr ⟨_, _, (List.dropLast_concat_getLast hNil).symm, ?_⟩
      simpa using List.rdropWhile_last_not isIdle pieces hNil

theorem initialPieces?_eq_some (h : initialPieces? pieces = some ps) :
    ∃ idles last idles', pieces = ps ++ (idles ++ last :: idles') ∧ Idle idles ∧ Idle idles' ∧
      isIdle last = false ∧ (ps = [] ∨ Ended ps) := by
  obtain ⟨idles', hPieces, hIdles', hNil | ⟨front, last, hSignificant, hLast⟩⟩ :=
    dropIdleEnd_eq pieces
  · simp [initialPieces?, hNil] at h
  · obtain ⟨idles, hFront, hIdles, hEnded⟩ := dropIdleEnd_eq front
    obtain rfl : dropIdleEnd front = ps := by
      unfold initialPieces? at h
      rw [hSignificant] at h
      split at h
      · rename_i hNil
        simp at hNil
      · simpa using h
    refine ⟨idles, last, idles', ?_, hIdles, hIdles', hLast, hEnded⟩
    calc pieces = front ++ [last] ++ idles' := hSignificant ▸ hPieces
      _ = dropIdleEnd front ++ idles ++ [last] ++ idles' := by rw [← hFront]
      _ = dropIdleEnd front ++ (idles ++ last :: idles') := by simp

theorem Ended.append (h : Ended ps) (qs : List (List Char)) : Ended (qs ++ ps) := by
  obtain ⟨front, last, rfl, hLast⟩ := h
  exact ⟨qs ++ front, last, (List.append_assoc qs front [last]).symm, hLast⟩

theorem Ended.joinPieces_ne_nil (h : Ended ps) : joinPieces ps ≠ [] := by
  obtain ⟨front, last, rfl, hLast⟩ := h
  by_cases hFront : front = []
  · subst hFront
    have hSome : last ≠ [] := by
      rintro rfl
      simp [isIdle, Segment.ofPiece?] at hLast
    simpa [joinPieces] using hSome
  · simp [joinPieces_append hFront]

/-! ## Directory parts -/

/-- One text goes on from another with pieces of which exactly one stands for a segment. -/
structure GoesOn (ds cs : List Char) (idles : List (List Char)) (last : List Char)
    (more : List (List Char)) : Prop where
  pieces_eq : Text.pieces '/' cs = Text.pieces '/' ds ++ (idles ++ last :: more)
  idle : Idle idles
  more_idle : Idle more
  last_not_idle : isIdle last = false

/-- A text as directory parts have it: with no slashes and `.` pieces at the end. -/
inductive Trimmed : List Char → Prop
  | root : Trimmed ['/']
  | here : Trimmed ['.']
  | ended {cs : List Char} (h : Ended (Text.pieces '/' cs)) : Trimmed cs

/-- A directory part that is written with the pieces at the front of a text. -/
theorem goesOn_of_initialPieces (front : List (List Char)) {others : List (List Char)}
    (hSome : front ++ ps ≠ [])
    (hPieces : Text.pieces '/' cs = front ++ others) (hInitial : initialPieces? others = some ps) :
    (ps = [] ∨ Trimmed (joinPieces (front ++ ps)) ∧ joinPieces (front ++ ps) ≠ []) ∧
      ∃ idles last more, GoesOn (joinPieces (front ++ ps)) cs idles last more := by
  obtain ⟨idles, last, more, rfl, hIdles, hMore, hLast, hEnded⟩ := initialPieces?_eq_some hInitial
  rw [← List.append_assoc] at hPieces
  have hRead : Text.pieces '/' (joinPieces (front ++ ps)) = front ++ ps := by
    apply Text.pieces_intercalate hSome
    intro piece hPiece
    have hMem : piece ∈ Text.pieces '/' cs := hPieces ▸ List.mem_append_left _ hPiece
    exact Text.not_mem_of_mem_pieces hMem
  refine ⟨?_, idles, last, more, hRead.symm ▸ hPieces, hIdles, hMore, hLast⟩
  rcases hEnded with hNil | hEnded
  · exact Or.inl hNil
  · have hAll : Ended (front ++ ps) := hEnded.append front
    exact Or.inr ⟨.ended (hRead.symm ▸ hAll), hAll.joinPieces_ne_nil⟩

/-- The directory part is empty, the root, or a trimmed text from which the path goes on. -/
theorem parentText?_eq_some (h : parentText? cs = some ds) :
    ds = [] ∨ ds = ['/'] ∧ cs.head? = some '/' ∨
      ds ≠ [] ∧ Trimmed ds ∧ ∃ idles last more, GoesOn ds cs idles last more := by
  unfold parentText? at h
  split at h
  · rename_i rest
    obtain ⟨ps, hInitial, rfl⟩ := Option.map_eq_some_iff.mp h
    obtain ⟨rfl | ⟨hTrimmed, hSome⟩, hGoesOn⟩ :=
      goesOn_of_initialPieces [[]] (by simp) (rfl : Text.pieces '/' ('/' :: rest) = _) hInitial
    · exact Or.inr (Or.inl ⟨rfl, rfl⟩)
    · by_cases hNil : ps = []
      · exact Or.inr (Or.inl ⟨by simp [hNil, joinPieces], rfl⟩)
      · have hText : joinPieces ([[]] ++ ps) = '/' :: joinPieces ps := joinPieces_cons [] hNil
        rw [hText] at hTrimmed hSome hGoesOn
        exact Or.inr (Or.inr ⟨hSome, hTrimmed, hGoesOn⟩)
  · split at h
    · rename_i rest hPieces
      split at h
      · exact Or.inl (Option.some.inj h).symm
      · rename_i ps hInitial
        obtain rfl := Option.some.inj h
        obtain ⟨rfl | ⟨hTrimmed, hSome⟩, hGoesOn⟩ :=
          goesOn_of_initialPieces [['.']] (by simp) hPieces hInitial
        · exact Or.inr (Or.inr ⟨by simp [joinPieces], .here, hGoesOn⟩)
        · exact Or.inr (Or.inr ⟨hSome, hTrimmed, hGoesOn⟩)
    · obtain ⟨ps, hInitial, rfl⟩ := Option.map_eq_some_iff.mp h
      by_cases hNil : ps = []
      · exact Or.inl (by simp [hNil, joinPieces])
      · obtain ⟨hNil' | ⟨hTrimmed, hSome⟩, hGoesOn⟩ :=
          goesOn_of_initialPieces [] hNil rfl hInitial
        · exact absurd hNil' hNil
        · exact Or.inr (Or.inr ⟨hSome, hTrimmed, hGoesOn⟩)

variable {more : List (List Char)}

theorem GoesOn.text_eq (h : GoesOn ds cs idles last more) :
    cs = ds ++ '/' :: joinPieces (idles ++ last :: more) := by
  have hText : joinPieces (Text.pieces '/' cs) = cs := Text.intercalate_pieces '/' cs
  rw [h.pieces_eq, joinPieces_append (Text.pieces_ne_nil '/' ds) (by simp)] at hText
  rw [← hText, show joinPieces (Text.pieces '/' ds) = ds from Text.intercalate_pieces '/' ds]

theorem GoesOn.pieces_rest (h : GoesOn ds cs idles last more) :
    Text.pieces '/' (joinPieces (idles ++ last :: more)) = idles ++ last :: more := by
  apply Text.pieces_intercalate (by simp)
  intro piece hPiece
  have hMem : piece ∈ Text.pieces '/' cs := h.pieces_eq ▸ List.mem_append_right _ hPiece
  exact Text.not_mem_of_mem_pieces hMem

theorem GoesOn.more_eq_nil (h : GoesOn ds cs idles last more) (hTrimmed : Trimmed cs) :
    more = [] := by
  have hLast : last ∈ Text.pieces '/' cs := by simp [h.pieces_eq]
  cases hTrimmed with
  | root =>
    have hIdle : ∀ piece ∈ Text.pieces '/' ['/'], isIdle piece = true := by decide
    simpa [h.last_not_idle] using hIdle last hLast
  | here =>
    have hIdle : ∀ piece ∈ Text.pieces '/' ['.'], isIdle piece = true := by decide
    simpa [h.last_not_idle] using hIdle last hLast
  | ended hEnded =>
    by_contra hMore
    have hPieces : Text.pieces '/' cs = Text.pieces '/' ds ++ (idles ++ [last]) ++ more := by
      simp [h.pieces_eq]
    exact h.more_idle.not_ended hMore (hPieces ▸ hEnded)

theorem parent?_eq_some (h : p.parent? = some q) :
    q.text = "" ∨ q.text = "/" ∧ p.isAbsolute = true ∨
      q.text.toList ≠ [] ∧ Trimmed q.text.toList ∧
        ∃ idles last more, GoesOn q.text.toList p.text.toList idles last more := by
  obtain ⟨ds, hText, rfl⟩ := Option.map_eq_some_iff.mp h
  rcases parentText?_eq_some hText with rfl | ⟨rfl, hHead⟩ | hRest
  · exact Or.inl rfl
  · exact Or.inr (Or.inl ⟨rfl, by simp [isAbsolute, hHead]⟩)
  · exact Or.inr (Or.inr (by simpa using hRest))

theorem prefix_of_parent? (h : p.parent? = some q) :
    q.text.toList <+: p.text.toList ∧ q.segments <+: p.segments := by
  rcases parent?_eq_some h with hText | ⟨hText, hAbsolute⟩ | ⟨hSome, -, idles, last, more, hGoesOn⟩
  · have hSegments : q.segments = [] := by rw [segments, hText]; rfl
    rw [hText, hSegments]
    exact ⟨List.nil_prefix, List.nil_prefix⟩
  · have hSegments : q.segments = [.root] := by rw [segments, hText]; rfl
    obtain ⟨rest, hRest⟩ : ∃ rest, p.text.toList = '/' :: rest := by
      simpa [isAbsolute, List.head?_eq_some_iff] using hAbsolute
    rw [hText, hSegments, hRest, segments, hRest]
    exact ⟨⟨rest, rfl⟩, ⟨_, rfl⟩⟩
  · rw [segments_of_append hGoesOn.text_eq hSome]
    refine ⟨?_, List.prefix_append _ _⟩
    rw [hGoesOn.text_eq]
    exact List.prefix_append _ _

theorem trimmed_of_parent? (h : p.parent? = some q) (hSome : q.text ≠ "") :
    Trimmed q.text.toList := by
  rcases parent?_eq_some h with hText | ⟨hText, -⟩ | ⟨-, hTrimmed, -⟩
  · exact absurd hText hSome
  · exact hText ▸ .root
  · exact hTrimmed

theorem dropSlashes_of_trimmed (h : Trimmed p.text.toList) : p.dropSlashes = p := by
  by_cases hRoot : p.text.toList = ['/']
  · simp [dropSlashes, endsWithSlash, hRoot]
  · apply dropSlashes_of_getLast
    intro hLast
    obtain ⟨front, hText⟩ := List.getLast?_eq_some_iff.mp hLast
    rw [hText] at h hRoot
    have hPieces : Text.pieces '/' (front ++ ['/']) = Text.pieces '/' front ++ [[]] :=
      Text.pieces_append '/' front []
    generalize hAll : front ++ ['/'] = cs at h hRoot hPieces
    cases h with
    | root => exact hRoot rfl
    | here => simpa using congrArg List.getLast? hAll
    | ended hEnded =>
      have hIdle : Idle [[]] := by simp [Idle, isIdle_iff]
      exact hIdle.not_ended (by simp) (hPieces ▸ hEnded)

/-- Below a directory part other than the root, a path without `..` only goes to a name. -/
theorem steps_of_parent? (h : p.parent? = some q) (hSome : q.text ≠ "")
    (hTrimmed : Trimmed p.text.toList) (hUp : Segment.up ∉ p.segments) :
    q.text = "/" ∨ q.isAbsolute = p.isAbsolute ∧
      ∃ n name, p.steps = q.steps ++ (List.replicate n .stay ++ [.enter name]) := by
  rcases parent?_eq_some h with hText | ⟨hText, -⟩ | ⟨hText, -, idles, last, more, hGoesOn⟩
  · exact absurd hText hSome
  · exact Or.inl hText
  · obtain rfl := hGoesOn.more_eq_nil hTrimmed
    have hLast : last ≠ ['.', '.'] := by
      rintro rfl
      apply hUp
      rw [segments_of_append hGoesOn.text_eq hText, hGoesOn.pieces_rest]
      simp [Segment.ofPiece?]
    refine Or.inr ⟨(isAbsolute_of_append hGoesOn.text_eq hText).symm, idles.length,
      String.ofList last, ?_⟩
    rw [steps_of_append hGoesOn.text_eq hText, hGoesOn.pieces_rest, List.map_append,
      List.map_singleton, stepOfPiece_of_not_idle hGoesOn.last_not_idle hLast,
      map_stepOfPiece_of_idle hGoesOn.idle]

end ScriptBuild.Path
