import ScriptBuild.Namespace.Declaration
import ScriptBuild.Proofs.Text.Blank

/-!
# The grammar of import declarations

The written forms of a declaration, given apart from the way they are read: the keyword, white
space, perhaps an alias with its equals sign, the name, and a semicolon. Reading accepts exactly
these forms at the start of a text, and no text can be read in two ways.
-/

namespace ScriptBuild.Declaration

set_option autoImplicit false

open Text

variable {begun : Bool} {c : Char} {cs name after rest target : List Char}

def Identifier (cs : List Char) : Prop :=
  ∃ c rest, cs = c :: rest ∧ isNameStart c = true ∧ ∀ d ∈ rest, isNameChar d = true

inductive Dotted : List Char → Prop
  | single {cs : List Char} : Identifier cs → Dotted cs
  | cons {cs rest : List Char} : Identifier cs → Dotted rest → Dotted (cs ++ '.' :: rest)

/-- What may stand before the name: nothing, or an alias with its equals sign. -/
inductive AliasPart : List Char → Prop
  | absent : AliasPart []
  | present {shortName before behind : List Char} : Identifier shortName → Blank before →
      Blank behind → AliasPart (shortName ++ before ++ '=' :: behind)

inductive Target (name : List Char) : List Char → Prop
  | mk {part gap : List Char} : AliasPart part → Dotted name → Blank gap →
      Target name (part ++ name ++ gap ++ [';'])

/-- The written forms of a declaration of a name. -/
inductive Written (name : List Char) : List Char → Prop
  | mk {gap target : List Char} : gap ≠ [] → Blank gap → Target name target →
      Written name ("using".toList ++ gap ++ target)

theorem isNameChar_of_isNameStart (h : isNameStart c = true) : isNameChar c = true := by
  simp only [isNameStart, Bool.or_eq_true] at h
  rcases h with h | h <;> simp [isNameChar, Char.isAlphanum, h]

theorem not_isNameChar_of_isBlank (h : isBlank c = true) : isNameChar c = false := by
  have hNone : ∀ n ∈ blankCodes, isNameChar (Char.ofNat n) = false := by decide
  simpa using hNone c.toNat (toNat_mem_blankCodes h)

theorem not_isBlank_of_isNameStart (h : isNameStart c = true) : isBlank c = false := by
  by_contra hBlank
  have hChar := not_isNameChar_of_isBlank (c := c) (by simpa using hBlank)
  rw [isNameChar_of_isNameStart h] at hChar
  exact absurd hChar (by simp)

theorem dropWhile_isNameChar_gap {gap : List Char} (hGap : Blank gap) (hc : isNameChar c = false) :
    (gap ++ c :: rest).dropWhile isNameChar = gap ++ c :: rest := by
  cases gap with
  | nil => simp [hc]
  | cons d ds =>
    have hd : isNameChar d = false := not_isNameChar_of_isBlank (blank_cons.mp hGap).1
    simp [hd]

/-! ## Dotted names -/

/-- What reading a dotted name gives: with an identifier begun, the rest of it and perhaps more
identifiers; otherwise a whole dotted name. -/
def Continued (begun : Bool) (name : List Char) : Prop :=
  if begun then ∃ part more, name = part ++ more ∧ (∀ c ∈ part, isNameChar c = true) ∧
    (more = [] ∨ ∃ below, more = '.' :: below ∧ Dotted below)
  else Dotted name

theorem dotted_cons (hStart : isNameStart c = true) (h : Continued true name) :
    Dotted (c :: name) := by
  simp only [Continued, if_true] at h
  obtain ⟨part, more, rfl, hPart, rfl | ⟨below, rfl, hBelow⟩⟩ := h
  · exact .single ⟨c, part, by simp, hStart, hPart⟩
  · have hName : Identifier (c :: part) := ⟨c, part, rfl, hStart, hPart⟩
    exact .cons hName hBelow

theorem continued_cons (hChar : isNameChar c = true) (h : Continued true name) :
    Continued true (c :: name) := by
  simp only [Continued, if_true] at h ⊢
  obtain ⟨part, more, rfl, hPart, hMore⟩ := h
  exact ⟨c :: part, more, rfl, by simpa [hChar] using hPart, hMore⟩

theorem continued_of_dottedName? (h : dottedName? begun cs = some (name, after)) :
    cs = name ++ after ∧ Continued begun name := by
  induction cs generalizing begun name with
  | nil =>
    rw [dottedName?] at h
    split at h
    · rename_i hBegun
      obtain ⟨rfl, rfl⟩ := by simpa using h
      exact ⟨rfl, by rw [Continued, if_pos hBegun]; exact ⟨[], [], rfl, by simp, Or.inl rfl⟩⟩
    · simp at h
  | cons c rest ih =>
    rw [dottedName?] at h
    have hStep {b : Bool} (hMap : (dottedName? b rest).map (fun x => (c :: x.1, x.2)) =
        some (name, after)) : ∃ n, name = c :: n ∧ rest = n ++ after ∧ Continued b n := by
      obtain ⟨⟨n, a⟩, hRead, hEq⟩ := Option.map_eq_some_iff.mp hMap
      obtain ⟨rfl, rfl⟩ := Prod.mk.inj hEq
      obtain ⟨hRest, hCont⟩ := ih hRead
      exact ⟨n, rfl, hRest, hCont⟩
    split at h
    · rename_i hBegun
      subst hBegun
      split at h
      · rename_i hChar
        obtain ⟨n, rfl, rfl, hCont⟩ := hStep h
        exact ⟨rfl, continued_cons hChar hCont⟩
      · split at h
        · rename_i hDot
          obtain ⟨n, rfl, rfl, hCont⟩ := hStep h
          refine ⟨rfl, ?_⟩
          simp only [Continued, Bool.false_eq_true, if_false, if_true] at hCont ⊢
          exact ⟨[], c :: n, rfl, by simp, Or.inr ⟨n, by rw [hDot], hCont⟩⟩
        · obtain ⟨rfl, rfl⟩ := by simpa using h
          exact ⟨rfl, by rw [Continued, if_pos rfl]; exact ⟨[], [], rfl, by simp, Or.inl rfl⟩⟩
    · rename_i hBegun
      split at h
      · rename_i hStart
        obtain ⟨n, rfl, rfl, hCont⟩ := hStep h
        refine ⟨rfl, ?_⟩
        rw [Continued, if_neg hBegun]
        exact dotted_cons hStart hCont
      · simp at h

theorem dottedName?_append (hPart : ∀ d ∈ name, isNameChar d = true) (rest : List Char) :
    dottedName? true (name ++ rest) =
      (dottedName? true rest).map fun (more, after) => (name ++ more, after) := by
  induction name with
  | nil => simp
  | cons d ds ih =>
    have hd : isNameChar d = true := hPart d (by simp)
    rw [List.cons_append, dottedName?, if_pos rfl, if_pos hd,
      ih fun e he => hPart e (List.mem_cons_of_mem d he), Option.map_map]
    rfl

def EndsName (after : List Char) : Prop :=
  ∀ c, after.head? = some c → isNameChar c = false ∧ c ≠ '.'

theorem dottedName?_of_endsName (hEnd : EndsName after) :
    dottedName? true after = some ([], after) := by
  cases after with
  | nil => rfl
  | cons c rest =>
    obtain ⟨hChar, hDot⟩ := hEnd c rfl
    rw [dottedName?, if_pos rfl, if_neg (by simp [hChar]), if_neg hDot]

theorem dottedName?_of_dotted (h : Dotted name) (hEnd : EndsName after) :
    dottedName? false (name ++ after) = some (name, after) := by
  induction h with
  | single hName =>
    obtain ⟨c, rest, rfl, hStart, hRest⟩ := hName
    rw [List.cons_append, dottedName?, if_neg (by simp), if_pos hStart,
      dottedName?_append hRest, dottedName?_of_endsName hEnd]
    simp
  | @cons part below hName _ ih =>
    obtain ⟨c, rest, rfl, hStart, hRest⟩ := hName
    have hDot : dottedName? true ('.' :: (below ++ after)) = some ('.' :: below, after) := by
      rw [dottedName?, if_pos rfl, if_neg (by decide), if_pos rfl, ih]
      rfl
    rw [List.append_assoc, List.cons_append, List.cons_append, dottedName?, if_neg (by simp),
      if_pos hStart, dottedName?_append hRest, hDot]
    simp

theorem exists_cons_of_dotted (h : Dotted name) :
    ∃ c rest, name = c :: rest ∧ isNameStart c = true ∧ Continued true rest := by
  cases h with
  | single hName =>
    obtain ⟨c, rest, rfl, hStart, hRest⟩ := hName
    exact ⟨c, rest, rfl, hStart, rest, [], by simp, hRest, Or.inl rfl⟩
  | @cons part below hName hBelow =>
    obtain ⟨c, rest, rfl, hStart, hRest⟩ := hName
    exact ⟨c, _, rfl, hStart, rest, _, rfl, hRest, Or.inr ⟨below, rfl, hBelow⟩⟩

/-! ## Whole declarations -/

theorem exists_aliasPart_append_skipAlias (cs : List Char) :
    ∃ part, AliasPart part ∧ cs = part ++ skipAlias cs := by
  unfold skipAlias
  split
  · exact ⟨[], .absent, rfl⟩
  · rename_i c rest
    split
    · rename_i hStart
      split
      · rename_i target hTarget
        obtain ⟨before, hBefore, hRest⟩ := exists_blank_append_dropBlank (rest.dropWhile isNameChar)
        obtain ⟨behind, hBehind, hSplit⟩ := exists_blank_append_dropBlank target
        have hName : Identifier (c :: rest.takeWhile isNameChar) :=
          ⟨c, _, rfl, hStart, fun d hd => List.mem_takeWhile_imp hd⟩
        refine ⟨_, .present hName hBefore hBehind, ?_⟩
        have hWhole : rest = rest.takeWhile isNameChar ++ (before ++ '=' :: target) := by
          rw [← hTarget, ← hRest, List.takeWhile_append_dropWhile]
        simp only [List.cons_append, List.append_assoc, ← hSplit]
        rw [← hWhole]
      · exact ⟨[], .absent, rfl⟩
    · exact ⟨[], .absent, rfl⟩

/-- What follows a name up to the semicolon is no equals sign, so no name is taken for an alias. -/
theorem skipAlias_of_dotted {gap : List Char} (hName : Dotted name) (hGap : Blank gap) :
    skipAlias (name ++ (gap ++ ';' :: rest)) = name ++ (gap ++ ';' :: rest) := by
  obtain ⟨c, tail, rfl, hStart, part, more, rfl, hPart, hMore⟩ := exists_cons_of_dotted hName
  have hAfter : ∀ target,
      dropBlank ((part ++ more ++ (gap ++ ';' :: rest)).dropWhile isNameChar) ≠ '=' :: target := by
    intro target hTarget
    rw [List.append_assoc, List.dropWhile_append_of_pos hPart] at hTarget
    rcases hMore with rfl | ⟨below, rfl, -⟩
    · rw [List.nil_append, dropWhile_isNameChar_gap hGap (by decide),
        dropBlank_append_cons hGap (by decide)] at hTarget
      simp at hTarget
    · rw [List.cons_append, List.dropWhile_cons, if_neg (by decide),
        dropBlank_of_not_isBlank (by decide)] at hTarget
      simp at hTarget
  rw [List.cons_append, skipAlias, if_pos hStart]
  split
  · rename_i target hTarget
    exact absurd hTarget (hAfter target)
  · rfl

theorem skipAlias_append {part gap : List Char} (hPart : AliasPart part) (hName : Dotted name)
    (hGap : Blank gap) : skipAlias (part ++ (name ++ (gap ++ ';' :: rest))) =
      name ++ (gap ++ ';' :: rest) := by
  cases hPart with
  | absent => exact skipAlias_of_dotted hName hGap
  | present hAlias hBefore hBehind =>
    obtain ⟨c, letters, rfl, hStart, hLetters⟩ := hAlias
    obtain ⟨d, tail, rfl, hd, -⟩ := exists_cons_of_dotted hName
    simp only [List.append_assoc, List.cons_append]
    rw [skipAlias, if_pos hStart, List.dropWhile_append_of_pos hLetters,
      dropWhile_isNameChar_gap hBefore (by decide), dropBlank_append_cons hBefore (by decide)]
    exact dropBlank_append_cons hBehind (not_isBlank_of_isNameStart hd)

theorem target?_append {gap : List Char} (hName : Dotted name) (hGap : Blank gap) :
    target? (name ++ (gap ++ ';' :: rest)) = some (String.ofList name, rest) := by
  have hEnd : EndsName (gap ++ ';' :: rest) := by
    intro c hc
    cases gap with
    | nil =>
      obtain rfl : ';' = c := by simpa using hc
      decide
    | cons d ds =>
      obtain rfl : d = c := by simpa using hc
      have hd : isBlank d = true := (blank_cons.mp hGap).1
      refine ⟨not_isNameChar_of_isBlank hd, ?_⟩
      rintro rfl
      exact absurd hd (by decide)
  rw [target?, dottedName?_of_dotted hName hEnd]
  simp only [dropBlank_append_cons hGap (show isBlank ';' = false by decide)]

theorem target?_sound {s : String} (h : target? cs = some (s, rest)) :
    ∃ gap, Dotted s.toList ∧ Blank gap ∧ cs = s.toList ++ (gap ++ ';' :: rest) := by
  unfold target? at h
  split at h
  · simp at h
  · rename_i name after hName
    obtain ⟨rfl, hDotted⟩ := continued_of_dottedName? hName
    split at h
    · rename_i tail hTail
      obtain ⟨gap, hGap, hAfter⟩ := exists_blank_append_dropBlank after
      obtain ⟨rfl, rfl⟩ := by simpa using h
      rw [hTail] at hAfter
      exact ⟨gap, by simpa [Continued] using hDotted, hGap, by simp [← hAfter]⟩
    · simp at h

theorem exists_cons_of_aliasPart {part : List Char} (hPart : AliasPart part) (hName : Dotted name) :
    ∃ c tail, part ++ (name ++ rest) = c :: tail ∧ isBlank c = false := by
  cases hPart with
  | absent =>
    obtain ⟨c, tail, rfl, hc, -⟩ := exists_cons_of_dotted hName
    exact ⟨c, tail ++ rest, rfl, not_isBlank_of_isNameStart hc⟩
  | present hAlias _ _ =>
    obtain ⟨c, letters, rfl, hc, -⟩ := hAlias
    exact ⟨c, _, rfl, not_isBlank_of_isNameStart hc⟩

theorem read?_append {decl : List Char} (h : Written name decl) :
    read? (decl ++ rest) = some (String.ofList name, rest) := by
  cases h with
  | @mk gap target hne hGap hTarget =>
  cases hTarget with
  | @mk part close hPart hName hClose =>
  cases gap with
  | nil => exact absurd rfl hne
  | cons c gap =>
    obtain ⟨hc, hGap⟩ := blank_cons.mp hGap
    obtain ⟨d, tail, hHead, hd⟩ : ∃ d tail,
        part ++ (name ++ (close ++ ';' :: rest)) = d :: tail ∧ isBlank d = false :=
      exists_cons_of_aliasPart hPart hName
    have hDrop : dropBlank (gap ++ (part ++ (name ++ (close ++ ';' :: rest)))) =
        part ++ (name ++ (close ++ ';' :: rest)) := by
      rw [hHead]
      exact dropBlank_append_cons hGap hd
    have hText : "using".toList ++ c :: gap ++ (part ++ name ++ close ++ [';']) ++ rest =
        'u' :: 's' :: 'i' :: 'n' :: 'g' :: c ::
          (gap ++ (part ++ (name ++ (close ++ ';' :: rest)))) := by simp
    rw [hText, read?, if_pos hc, hDrop, skipAlias_append hPart hName hClose,
      target?_append hName hClose]

/-- A declaration is read at the start of a text exactly when one of its written forms stands
there, and it is read to its end. -/
theorem read?_eq_some_iff {s : String} :
    read? cs = some (s, rest) ↔ ∃ decl, Written s.toList decl ∧ cs = decl ++ rest := by
  constructor
  · intro h
    unfold read? at h
    split at h
    · rename_i c tail
      split at h
      · rename_i hc
        obtain ⟨gap, hGap, hTail⟩ := exists_blank_append_dropBlank tail
        obtain ⟨part, hPart, hSkip⟩ := exists_aliasPart_append_skipAlias (dropBlank tail)
        obtain ⟨close, hName, hClose, hTarget⟩ := target?_sound h
        have hWritten : Written s.toList
            ("using".toList ++ c :: gap ++ (part ++ s.toList ++ close ++ [';'])) :=
          .mk (by simp) (blank_cons.mpr ⟨hc, hGap⟩) (.mk hPart hName hClose)
        refine ⟨_, hWritten, ?_⟩
        rw [hTail, hSkip, hTarget]
        simp
      · simp at h
    · simp at h
  · rintro ⟨decl, hWritten, rfl⟩
    rw [read?_append hWritten, String.ofList_toList]

end ScriptBuild.Declaration
