import Mathlib.Data.List.TakeWhile
import ScriptBuild.File.Access
import ScriptBuild.Proofs.Text.Line

/-!
# Steps and segments of extended paths

What a slash and further text add to a path: the steps and the segments of that text, after those of
the path. A name added below a directory is one more step and one more segment, whether or not the
path of the directory ends with a slash.
-/

namespace ScriptBuild.Path

set_option autoImplicit false

variable {p q : Path} {rest : List Char} {name : String} {extension : String}

/-- A text that may be the name of an entry of a directory. -/
structure IsName (name : String) : Prop where
  ne_empty : name.toList ≠ []
  no_slash : '/' ∉ name.toList
  ne_here : name.toList ≠ ['.']
  ne_up : name.toList ≠ ['.', '.']

theorem isName_iff : IsName name ↔ name.toList ≠ [] ∧ '/' ∉ name.toList ∧ name.toList ≠ ['.'] ∧
    name.toList ≠ ['.', '.'] :=
  ⟨fun h => ⟨h.ne_empty, h.no_slash, h.ne_here, h.ne_up⟩,
    fun ⟨hSome, hSlash, hHere, hUp⟩ => ⟨hSome, hSlash, hHere, hUp⟩⟩

instance : Decidable (IsName name) := decidable_of_iff _ isName_iff.symm

theorem IsName.stepOfPiece_eq (h : IsName name) : stepOfPiece name.toList = .enter name := by
  rw [stepOfPiece.eq_4 _ h.ne_empty h.ne_here h.ne_up, String.ofList_toList]

theorem IsName.ofPiece?_eq (h : IsName name) :
    Segment.ofPiece? name.toList = some (.name name) := by
  rw [Segment.ofPiece?.eq_4 _ h.ne_empty h.ne_here h.ne_up, String.ofList_toList]

theorem isAbsolute_of_append (hText : q.text.toList = p.text.toList ++ '/' :: rest)
    (hSome : p.text.toList ≠ []) : q.isAbsolute = p.isAbsolute := by
  rw [isAbsolute, isAbsolute, hText]
  cases h : p.text.toList with
  | nil => exact absurd h hSome
  | cons c cs => rfl

theorem segmentsOf_of_relative {c : Char} {cs : List Char} (hc : c ≠ '/') :
    segmentsOf (c :: cs) =
      match Text.pieces '/' (c :: cs) with
      | ['.'] :: others => .here :: others.filterMap Segment.ofPiece?
      | pieces => pieces.filterMap Segment.ofPiece? := by
  unfold segmentsOf
  split
  · rename_i heq
    exact absurd (List.cons.inj heq).1 hc
  · rfl

theorem steps_of_append (hText : q.text.toList = p.text.toList ++ '/' :: rest)
    (hSome : p.text.toList ≠ []) :
    q.steps = p.steps ++ (Text.pieces '/' rest).map stepOfPiece := by
  unfold steps
  rw [hText]
  cases h : p.text.toList with
  | nil => exact absurd h hSome
  | cons c cs =>
    by_cases hc : c = '/'
    · subst hc
      simp [Text.pieces_append]
    · rw [List.cons_append]
      split
      · rename_i heq
        exact absurd (List.cons.inj heq).1 hc
      · split
        · rename_i heq
          exact absurd (List.cons.inj heq).1 hc
        · rw [← List.cons_append, Text.pieces_append, List.map_append]

theorem segments_of_append (hText : q.text.toList = p.text.toList ++ '/' :: rest)
    (hSome : p.text.toList ≠ []) :
    q.segments = p.segments ++ (Text.pieces '/' rest).filterMap Segment.ofPiece? := by
  unfold segments
  rw [hText]
  cases h : p.text.toList with
  | nil => exact absurd h hSome
  | cons c cs =>
    by_cases hc : c = '/'
    · subst hc
      simp [segmentsOf, Text.pieces_append]
    · rw [segmentsOf_of_relative hc, List.cons_append, segmentsOf_of_relative hc,
        ← List.cons_append, Text.pieces_append]
      cases hPieces : Text.pieces '/' (c :: cs) with
      | nil => exact absurd hPieces (Text.pieces_ne_nil _ _)
      | cons piece others =>
        by_cases hHere : piece = ['.']
        · subst hHere
          simp
        · simp only [List.cons_append]
          split
          · rename_i heq
            exact absurd (List.cons.inj heq).1 hHere
          · split
            · rename_i heq
              exact absurd (List.cons.inj heq).1 hHere
            · rw [← List.cons_append, List.filterMap_append]

theorem text_join (hSome : p.text.toList ≠ []) (hName : IsName name) :
    ∃ front : Path, (p = front ∨ p.text.toList = front.text.toList ++ ['/']) ∧
      (p.join ⟨name⟩).text.toList = front.text.toList ++ '/' :: name.toList := by
  unfold join
  cases hText : name.toList with
  | nil => exact absurd hText hName.ne_empty
  | cons c cs =>
    have hc : c ≠ '/' := by
      rintro rfl
      exact hName.no_slash (by simp [hText])
    split
    · rename_i heq
      exact absurd (List.cons.inj heq).1 hc
    · split
      · rename_i hLast
        exact absurd (List.getLast?_eq_none_iff.mp hLast) hSome
      · rename_i hLast
        obtain ⟨front, hFront⟩ := List.getLast?_eq_some_iff.mp hLast
        exact ⟨⟨String.ofList front⟩, Or.inr (by simpa using hFront), by simp [hFront]⟩
      · exact ⟨p, Or.inl rfl, by simp⟩

theorem text_join_ne_nil (hSome : p.text.toList ≠ []) (hName : IsName name) :
    (p.join ⟨name⟩).text.toList ≠ [] := by
  obtain ⟨front, -, hJoin⟩ := text_join hSome hName
  simp [hJoin]

theorem text_join_of_getLast (hLast : p.text.toList.getLast? ≠ some '/')
    (hSome : p.text.toList ≠ []) (hName : IsName name) :
    (p.join ⟨name⟩).text.toList = p.text.toList ++ '/' :: name.toList := by
  obtain ⟨front, rfl | hSlash, hJoin⟩ := text_join hSome hName
  · exact hJoin
  · simp [hSlash] at hLast

theorem getLast?_join (hSome : p.text.toList ≠ []) (hName : IsName name) :
    (p.join ⟨name⟩).text.toList.getLast? ≠ some '/' := by
  obtain ⟨front, -, hJoin⟩ := text_join hSome hName
  obtain ⟨c, cs, hText⟩ := List.exists_cons_of_ne_nil hName.ne_empty
  rw [hJoin, List.getLast?_append, hText, List.getLast?_cons_cons, ← hText]
  intro hLast
  rw [List.getLast?_eq_some_getLast hName.ne_empty, Option.some_or, Option.some.injEq] at hLast
  exact hName.no_slash (hLast ▸ List.getLast_mem hName.ne_empty)

theorem isAbsolute_join (hSome : p.text.toList ≠ []) (hName : IsName name) :
    (p.join ⟨name⟩).isAbsolute = p.isAbsolute := by
  obtain ⟨front, rfl | hSlash, hJoin⟩ := text_join hSome hName
  · exact isAbsolute_of_append hJoin hSome
  · cases hFront : front.text.toList with
    | nil => simp [isAbsolute, hSlash, hJoin, hFront]
    | cons c cs => simp [isAbsolute, hSlash, hJoin, hFront]

theorem steps_join (hSome : p.text.toList ≠ []) (hName : IsName name) :
    ∃ steps, (p.steps = steps ∨ p.steps = steps ++ [.stay]) ∧
      (p.join ⟨name⟩).steps = steps ++ [.enter name] := by
  have hPieces : (Text.pieces '/' name.toList).map stepOfPiece = [.enter name] := by
    rw [Text.pieces_of_not_mem hName.no_slash, List.map_singleton, hName.stepOfPiece_eq]
  obtain ⟨front, rfl | hSlash, hJoin⟩ := text_join hSome hName
  · exact ⟨p.steps, Or.inl rfl, by rw [steps_of_append hJoin hSome, hPieces]⟩
  · by_cases hFront : front.text.toList = []
    · rw [hFront, List.nil_append] at hSlash hJoin
      refine ⟨[], Or.inr (by simp [steps, hSlash, Text.pieces, stepOfPiece]), ?_⟩
      simpa [steps, hJoin] using hPieces
    · refine ⟨front.steps, Or.inr ?_, ?_⟩
      · rw [steps_of_append hSlash hFront]
        rfl
      · rw [steps_of_append hJoin hFront, hPieces]

theorem segments_join (hSome : p.text.toList ≠ []) (hName : IsName name) :
    (p.join ⟨name⟩).segments = p.segments ++ [.name name] := by
  have hPieces : (Text.pieces '/' name.toList).filterMap Segment.ofPiece? = [.name name] := by
    simp [Text.pieces_of_not_mem hName.no_slash, hName.ofPiece?_eq]
  obtain ⟨front, rfl | hSlash, hJoin⟩ := text_join hSome hName
  · rw [segments_of_append hJoin hSome, hPieces]
  · by_cases hFront : front.text.toList = []
    · rw [hFront, List.nil_append] at hSlash hJoin
      simp only [segments, segmentsOf, hSlash, hJoin, hPieces]
      rfl
    · rw [segments_of_append hJoin hFront, segments_of_append hSlash hFront, hPieces]
      simp [Text.pieces, Segment.ofPiece?]

theorem fileName?_join (hSome : p.text.toList ≠ []) (hName : IsName name) :
    (p.join ⟨name⟩).fileName? = some name := by
  simp [fileName?, segments_join hSome hName]

/-- A file name with a given extension: the extension follows the last dot, which is not the first
character of the name. The case of ASCII letters does not matter. -/
def HasExtension (name extension : String) : Prop :=
  ∃ stem suffix, stem ≠ [] ∧ name.toList = stem ++ '.' :: suffix ∧ '.' ∉ suffix ∧
    suffix.map Char.toLower = extension.toList.map Char.toLower

theorem extensionOf?_eq_some_iff {found : String} : extensionOf? name = some found ↔
    ∃ stem, stem ≠ [] ∧ name.toList = stem ++ '.' :: found.toList ∧ '.' ∉ found.toList := by
  unfold extensionOf?
  dsimp only
  constructor
  · intro h
    have hName := List.takeWhile_append_dropWhile (p := (· ≠ '.')) (l := name.toList.reverse)
    have hPlain : '.' ∉ name.toList.reverse.takeWhile (· ≠ '.') := by
      intro hDot
      have hOther := List.mem_takeWhile_imp hDot
      simp at hOther
    split at h
    · rename_i c rest hDrop
      generalize name.toList.reverse.takeWhile (· ≠ '.') = suffix at h hName hPlain
      obtain rfl := Option.some.inj h
      refine ⟨(c :: rest).reverse, by simp, ?_, by simpa using hPlain⟩
      rw [hDrop] at hName
      rw [← List.reverse_reverse name.toList, ← hName]
      simp
    · simp at h
  · rintro ⟨stem, hStem, hName, hDot⟩
    have hPlain : ∀ c ∈ found.toList.reverse, decide (c ≠ '.') = true := by
      intro c hc
      simpa using ne_of_mem_of_not_mem (List.mem_reverse.mp hc) hDot
    have hReverse : name.toList.reverse = found.toList.reverse ++ '.' :: stem.reverse := by
      simp [hName]
    rw [hReverse, List.dropWhile_append_of_pos hPlain, List.takeWhile_append_of_pos hPlain]
    cases hEnd : stem.reverse with
    | nil => exact absurd (List.reverse_eq_nil_iff.mp hEnd) hStem
    | cons c rest => simp

theorem hasExtension_iff (hFile : p.fileName? = some name) :
    p.hasExtension extension = true ↔ HasExtension name extension := by
  rw [hasExtension, extension?, hFile, Option.bind_some, Option.any_eq_true]
  constructor
  · rintro ⟨found, hFound, hSame⟩
    obtain ⟨stem, hStem, hName, hDot⟩ := extensionOf?_eq_some_iff.mp hFound
    exact ⟨stem, found.toList, hStem, hName, hDot, by simpa [sameIgnoringCase] using hSame⟩
  · rintro ⟨stem, suffix, hStem, hName, hDot, hSame⟩
    refine ⟨String.ofList suffix, ?_, by simpa [sameIgnoringCase] using hSame⟩
    apply extensionOf?_eq_some_iff.mpr
    simp only [String.toList_ofList]
    exact ⟨stem, hStem, hName, hDot⟩

theorem text_dropSlashes (h : p.endsWithSlash = true) :
    p.dropSlashes.text.toList ≠ [] ∧
      ∃ rest, p.text.toList = p.dropSlashes.text.toList ++ '/' :: rest := by
  have hDrop : p.dropSlashes.text.toList =
      (p.text.toList.reverse.dropWhile (· == '/')).reverse := by
    simp [dropSlashes, h]
  have hText : p.text.toList = p.dropSlashes.text.toList ++
      (p.text.toList.reverse.takeWhile (· == '/')).reverse := by
    rw [hDrop, ← List.reverse_append, List.takeWhile_append_dropWhile, List.reverse_reverse]
  have hSlash : ∀ c ∈ p.text.toList.reverse.takeWhile (· == '/'), c = '/' := by
    intro c hc
    simpa using List.mem_takeWhile_imp hc
  unfold endsWithSlash at h
  split at h
  · rename_i rest hReverse
    constructor
    · obtain ⟨c, hc, hOther⟩ := List.any_eq_true.mp h
      rw [hDrop]
      intro hNil
      rw [List.reverse_eq_nil_iff, List.dropWhile_eq_nil_iff] at hNil
      have hAll : c = '/' := by simpa using hNil c (by simp [hReverse, hc])
      simp [hAll] at hOther
    · cases hTaken : (p.text.toList.reverse.takeWhile (· == '/')).reverse with
      | nil => simp [hReverse] at hTaken
      | cons c taken =>
        have hc : c = '/' := by
          apply hSlash
          rw [← List.mem_reverse, hTaken]
          exact List.mem_cons_self
        exact ⟨taken, by rw [← hc, ← hTaken]; exact hText⟩
  · simp at h

theorem dropSlashes_of_getLast (hLast : p.text.toList.getLast? ≠ some '/') :
    p.dropSlashes = p := by
  rw [dropSlashes, if_neg]
  unfold endsWithSlash
  split
  · rename_i rest hReverse
    rw [← List.head?_reverse, hReverse] at hLast
    exact absurd rfl hLast
  · exact Bool.false_ne_true

/-- Slashes at the end ask for more steps and nothing else. -/
theorem steps_dropSlashes (h : p.endsWithSlash = true) :
    p.dropSlashes.text.toList ≠ [] ∧ p.isAbsolute = p.dropSlashes.isAbsolute ∧
      ∃ more, more ≠ [] ∧ p.steps = p.dropSlashes.steps ++ more := by
  obtain ⟨hSome, rest, hText⟩ := text_dropSlashes h
  refine ⟨hSome, isAbsolute_of_append hText hSome, _, ?_, steps_of_append hText hSome⟩
  simpa using Text.pieces_ne_nil '/' rest

end ScriptBuild.Path
