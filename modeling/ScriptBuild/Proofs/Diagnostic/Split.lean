import ScriptBuild.Proofs.Diagnostic.Header

/-!
# Where a line is split

A line may be split in several ways into white space, a file name and a readable rest. The reader
settles on the split with the most white space and, among those, the shortest file name. There is
such a split as soon as there is any, and it is unique.
-/

namespace ScriptBuild.Diagnostic

set_option autoImplicit false

open Text

variable {α : Type} {read? : List Char → Option α} {a : α} {c : Char}
  {cs line rest w f r w' f' r' : List Char}

structure Split (read? : List Char → Option α) (line w f r : List Char) : Prop where
  joined : line = w ++ (f ++ r)
  blank : Blank w
  named : f ≠ []
  readable : (read? r).isSome = true

/-- The preferred way to split a line. -/
structure Chosen (read? : List Char → Option α) (line w f r : List Char) : Prop
    extends Split read? line w f r where
  longest : ∀ w' f' r', Split read? line w' f' r' → w'.length ≤ w.length
  shortest : ∀ w' f' r', Split read? line w' f' r' → w'.length = w.length → f.length ≤ f'.length

theorem Chosen.unique (h : Chosen read? line w f r) (h' : Chosen read? line w' f' r') :
    w = w' ∧ f = f' ∧ r = r' := by
  have hBlank : w.length = w'.length :=
    le_antisymm (h'.longest _ _ _ h.toSplit) (h.longest _ _ _ h'.toSplit)
  have hFile : f.length = f'.length :=
    le_antisymm (h.shortest _ _ _ h'.toSplit hBlank.symm) (h'.shortest _ _ _ h.toSplit hBlank)
  have hJoined : w ++ (f ++ r) = w' ++ (f' ++ r') := by rw [← h.joined, ← h'.joined]
  obtain ⟨hw, hRest⟩ := List.append_inj hJoined hBlank
  exact ⟨hw, List.append_inj hRest hFile⟩

theorem Chosen.eq_nil_of_split (h : Chosen read? line w f r) {v : List Char}
    (hSplit : Split read? line (w ++ v) f' r') : v = [] := by
  have hLength := h.longest _ _ _ hSplit
  rw [List.length_append] at hLength
  exact List.eq_nil_of_length_eq_zero (by omega)

/-! ## The shortest file name -/

theorem shortest?_eq_none (h : shortest? read? cs = none) (hcs : cs = f ++ r) (hf : f ≠ []) :
    read? r = none := by
  induction cs generalizing f with
  | nil =>
    obtain ⟨rfl, rfl⟩ := List.append_eq_nil_iff.mp hcs.symm
    exact absurd rfl hf
  | cons c rest ih =>
    rw [shortest?] at h
    cases hRead : read? rest with
    | some a => simp [hRead] at h
    | none =>
      simp only [hRead, Option.map_eq_none_iff] at h
      cases f with
      | nil => exact absurd rfl hf
      | cons d ds =>
        obtain ⟨rfl, rfl⟩ := List.cons.inj hcs
        cases ds with
        | nil => exact hRead
        | cons e es => exact ih h rfl (by simp)

theorem shortest?_eq_some (h : shortest? read? cs = some (f, a)) :
    ∃ r, cs = f ++ r ∧ f ≠ [] ∧ read? r = some a ∧
      ∀ f' r', cs = f' ++ r' → f' ≠ [] → (read? r').isSome = true → f.length ≤ f'.length := by
  induction cs generalizing f with
  | nil => simp [shortest?] at h
  | cons c rest ih =>
    rw [shortest?] at h
    cases hRead : read? rest with
    | some b =>
      obtain ⟨rfl, rfl⟩ := by simpa [hRead] using h
      refine ⟨rest, rfl, by simp, hRead, ?_⟩
      intro f' r' _ hf' _
      simpa [Nat.one_le_iff_ne_zero] using hf'
    | none =>
      simp only [hRead, Option.map_eq_some_iff, Prod.exists, Prod.mk.injEq] at h
      obtain ⟨taken, _, hTaken, rfl, rfl⟩ := h
      obtain ⟨r, rfl, -, hr, hLeast⟩ := ih hTaken
      refine ⟨r, rfl, by simp, hr, ?_⟩
      intro f' r' hSplit hf' hr'
      cases f' with
      | nil => exact absurd rfl hf'
      | cons d ds =>
        obtain ⟨rfl, hRest⟩ := List.cons.inj hSplit
        cases ds with
        | nil =>
          obtain rfl : taken ++ r = r' := hRest
          simp [hRead] at hr'
        | cons e es => simpa using hLeast (e :: es) r' hRest (by simp) hr'

/-! ## The most white space -/

theorem withFile?_nil : withFile? read? [] = none := rfl

theorem withFile?_cons (c : Char) (rest : List Char) : withFile? read? (c :: rest) =
    if isBlank c then (withFile? read? rest).or (shortest? read? (c :: rest))
    else shortest? read? (c :: rest) := by
  rw [withFile?, unindented]
  split
  · rw [List.findSome?_append, withFile?]
    simp
  · simp

/-- Either all of the first character belongs to the file name, or the line below it is split. -/
theorem Split.cases_cons (h : Split read? (c :: rest) w f r) :
    w = [] ∨ isBlank c = true ∧ ∃ v, w = c :: v ∧ Split read? rest v f r := by
  cases w with
  | nil => exact Or.inl rfl
  | cons d v =>
    obtain ⟨rfl, hRest⟩ := List.cons.inj h.joined
    obtain ⟨hd, hv⟩ := blank_cons.mp h.blank
    exact Or.inr ⟨hd, v, rfl, hRest, hv, h.named, h.readable⟩

theorem withFile?_eq_none (h : withFile? read? line = none) : ¬ Split read? line w f r := by
  induction line generalizing w with
  | nil =>
    intro hSplit
    have hNil : w ++ (f ++ r) = [] := hSplit.joined.symm
    simp [hSplit.named] at hNil
  | cons c rest ih =>
    intro hSplit
    rw [withFile?_cons] at h
    have hShortest : shortest? read? (c :: rest) = none := by
      split at h
      · exact (Option.or_eq_none_iff.mp h).2
      · exact h
    rcases hSplit.cases_cons with rfl | ⟨hc, v, rfl, hRest⟩
    · have hJoined : c :: rest = f ++ r := hSplit.joined
      have hRead : read? r = none := shortest?_eq_none hShortest hJoined hSplit.named
      simpa [hRead] using hSplit.readable
    · rw [if_pos hc] at h
      exact ih (Option.or_eq_none_iff.mp h).1 hRest

theorem chosen_of_shortest? (h : shortest? read? (c :: rest) = some (f, a))
    (hNone : isBlank c = true → withFile? read? rest = none) :
    ∃ r, Chosen read? (c :: rest) [] f r ∧ read? r = some a := by
  obtain ⟨r, hJoined, hf, hr, hLeast⟩ := shortest?_eq_some h
  have hFlush : ∀ w' f' r', Split read? (c :: rest) w' f' r' → w' = [] := by
    intro w' f' r' hSplit
    rcases hSplit.cases_cons with hw' | ⟨hc, v, -, hRest⟩
    · exact hw'
    · exact absurd hRest (withFile?_eq_none (hNone hc))
  refine ⟨r, ⟨⟨hJoined, blank_nil, hf, by simp [hr]⟩, ?_, ?_⟩, hr⟩
  · intro w' f' r' hSplit
    simp [hFlush w' f' r' hSplit]
  · intro w' f' r' hSplit _
    obtain rfl : w' = [] := hFlush w' f' r' hSplit
    exact hLeast f' r' hSplit.joined hSplit.named hSplit.readable

/-- White space that can be taken off is taken off. -/
theorem Chosen.cons (hc : isBlank c = true) (h : Chosen read? rest w f r) :
    Chosen read? (c :: rest) (c :: w) f r := by
  refine ⟨⟨by rw [h.joined]; rfl, blank_cons.mpr ⟨hc, h.blank⟩, h.named, h.readable⟩, ?_, ?_⟩
  · intro w' f' r' hSplit
    rcases hSplit.cases_cons with rfl | ⟨-, v, rfl, hRest⟩
    · simp
    · simpa using h.longest v f' r' hRest
  · intro w' f' r' hSplit hLength
    rcases hSplit.cases_cons with rfl | ⟨-, v, rfl, hRest⟩
    · simp at hLength
    · exact h.shortest v f' r' hRest (by simpa using hLength)

theorem chosen_of_withFile? (h : withFile? read? line = some (f, a)) :
    ∃ w r, Chosen read? line w f r ∧ read? r = some a := by
  induction line with
  | nil => simp [withFile?_nil] at h
  | cons c rest ih =>
    rw [withFile?_cons] at h
    by_cases hc : isBlank c = true
    · rw [if_pos hc] at h
      rcases Option.or_eq_some_iff.mp h with hRest | ⟨hNone, hShortest⟩
      · obtain ⟨w, r, hChosen, hr⟩ := ih hRest
        exact ⟨c :: w, r, hChosen.cons hc, hr⟩
      · obtain ⟨r, hChosen, hr⟩ := chosen_of_shortest? hShortest fun _ => hNone
        exact ⟨[], r, hChosen, hr⟩
    · rw [if_neg hc] at h
      obtain ⟨r, hChosen, hr⟩ := chosen_of_shortest? h fun hBlank => absurd hBlank hc
      exact ⟨[], r, hChosen, hr⟩

/-- The reader settles on the preferred split. -/
theorem withFile?_eq_some_iff :
    withFile? read? line = some (f, a) ↔ ∃ w r, Chosen read? line w f r ∧ read? r = some a := by
  refine ⟨chosen_of_withFile?, ?_⟩
  rintro ⟨w, r, hChosen, hr⟩
  cases hRead : withFile? read? line with
  | none => exact absurd hChosen.toSplit (withFile?_eq_none hRead)
  | some found =>
    obtain ⟨f', a'⟩ := found
    obtain ⟨w', r', hChosen', hr'⟩ := chosen_of_withFile? hRead
    obtain ⟨-, rfl, rfl⟩ := hChosen.unique hChosen'
    obtain rfl : a = a' := Option.some.inj (hr.symm.trans hr')
    rfl

/-! ## Readers of headers -/

/-- A reader that accepts exactly the texts that start with a header, where only the first character
of a header is an opening parenthesis. -/
structure Headed (read? : List Char → Option α) (Header : List Char → Prop) : Prop where
  accepts : ∀ cs, (read? cs).isSome = true ↔
    ∃ header message, Header header ∧ cs = header ++ message
  opened : ∀ header, Header header → ∃ t, header = '(' :: t ∧ '(' ∉ t

theorem exists_append_of_not_mem {before after tail : List Char} (hc : c ∉ before)
    (h : before ++ after = cs ++ c :: tail) : ∃ n, cs = before ++ n ∧ after = n ++ c :: tail := by
  rcases List.append_eq_append_iff.mp h with ⟨n, hcs, hAfter⟩ | ⟨n, hBefore, hTail⟩
  · exact ⟨n, hcs, hAfter⟩
  · cases n with
    | nil => exact ⟨[], by simpa using hBefore.symm, by simpa using hTail.symm⟩
    | cons d ds =>
      obtain ⟨rfl, -⟩ := List.cons.inj hTail
      simp [hBefore] at hc

section Headed

variable {Header : List Char → Prop} {x y : List Char}

theorem Headed.opening (hHeaded : Headed read? Header) (h : (read? cs).isSome = true) :
    ∃ t, cs = '(' :: t := by
  obtain ⟨header, message, hHeader, rfl⟩ := (hHeaded.accepts cs).mp h
  obtain ⟨t, rfl, -⟩ := hHeaded.opened header hHeader
  exact ⟨t ++ message, rfl⟩

theorem Headed.extend (hHeaded : Headed read? Header) (h : (read? x).isSome = true)
    (y : List Char) : (read? (x ++ y)).isSome = true := by
  obtain ⟨header, message, hHeader, rfl⟩ := (hHeaded.accepts x).mp h
  exact (hHeaded.accepts _).mpr ⟨header, message ++ y, hHeader, by simp⟩

/-- Nothing from a later opening parenthesis on is needed. -/
theorem Headed.cut (hHeaded : Headed read? Header) (hx : x ≠ [])
    (h : (read? (x ++ '(' :: y)).isSome = true) : (read? x).isSome = true := by
  obtain ⟨header, message, hHeader, hJoined⟩ := (hHeaded.accepts _).mp h
  obtain ⟨t, rfl, ht⟩ := hHeaded.opened header hHeader
  cases x with
  | nil => exact absurd rfl hx
  | cons d ds =>
    obtain ⟨rfl, hTail⟩ := List.cons.inj hJoined
    obtain ⟨n, rfl, -⟩ := exists_append_of_not_mem ht hTail.symm
    exact (hHeaded.accepts _).mpr ⟨'(' :: t, n, hHeader, rfl⟩

theorem withFile?_eq_none_of_not_mem (hHeaded : Headed read? Header) (h : '(' ∉ line) :
    withFile? read? line = none := by
  cases hRead : withFile? read? line with
  | none => rfl
  | some found =>
    obtain ⟨w, r, hChosen, -⟩ := chosen_of_withFile? (f := found.1) (a := found.2) hRead
    obtain ⟨t, rfl⟩ := hHeaded.opening hChosen.readable
    simp [hChosen.joined] at h

end Headed

theorem headed_locatedTail? : Headed locatedTail? fun header =>
    ∃ place severity code, LocatedHeader place severity code header := by
  refine ⟨?_, fun header ⟨place, severity, code, h⟩ => h.opened⟩
  intro cs
  rw [Option.isSome_iff_exists]
  constructor
  · rintro ⟨⟨place, finding⟩, h⟩
    obtain ⟨header, message, hHeader, hJoined, -⟩ := locatedTail?_eq_some_iff.mp h
    exact ⟨header, message, ⟨_, _, _, hHeader⟩, hJoined⟩
  · rintro ⟨header, message, ⟨place, severity, code, hHeader⟩, hJoined⟩
    refine ⟨(place, ⟨severity, code, String.ofList (trim message)⟩), ?_⟩
    exact locatedTail?_eq_some_iff.mpr ⟨header, message, hHeader, hJoined, rfl⟩

theorem headed_relatedTail? : Headed relatedTail? fun header =>
    ∃ place, PlaceHeader place header := by
  refine ⟨?_, fun header ⟨place, h⟩ => h.opened⟩
  intro cs
  rw [Option.isSome_iff_exists]
  constructor
  · rintro ⟨⟨place, text⟩, h⟩
    obtain ⟨header, message, hHeader, hJoined, -⟩ := relatedTail?_eq_some_iff.mp h
    exact ⟨header, message, ⟨_, hHeader⟩, hJoined⟩
  · rintro ⟨header, message, ⟨place, hHeader⟩, hJoined⟩
    refine ⟨(place, String.ofList (trim message)), ?_⟩
    exact relatedTail?_eq_some_iff.mpr ⟨header, message, hHeader, hJoined, rfl⟩

theorem isSome_relatedTail? (h : (locatedTail? cs).isSome = true) :
    (relatedTail? cs).isSome = true := by
  obtain ⟨⟨place, finding⟩, h⟩ := Option.isSome_iff_exists.mp h
  obtain ⟨_, message, @⟨front, gap, back, hFront, -, -⟩, rfl, -⟩ := locatedTail?_eq_some_iff.mp h
  have hRelated : relatedTail? (front ++ (gap ++ back ++ message)) =
      some (place, String.ofList (trim (gap ++ back ++ message))) :=
    relatedTail?_eq_some_iff.mpr ⟨front, _, hFront, rfl, rfl⟩
  rw [List.append_assoc, hRelated]
  rfl

end ScriptBuild.Diagnostic
