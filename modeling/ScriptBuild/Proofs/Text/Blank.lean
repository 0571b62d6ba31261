import Mathlib.Data.List.DropRight
import ScriptBuild.Text.Blank
import ScriptBuild.Text.Word

/-!
# Runs of white space

What is left of a text once white space is taken off its start or its end, as equations over
concatenation. No white space is a word character, so a run of one never reaches into a run of the
other.
-/

namespace ScriptBuild.Text

set_option autoImplicit false

variable {c : Char} {cs rest w part : List Char}

def Blank (cs : List Char) : Prop := ∀ c ∈ cs, isBlank c = true

instance (cs : List Char) : Decidable (Blank cs) := inferInstanceAs (Decidable (∀ c ∈ cs, _))

@[simp] theorem blank_nil : Blank [] := by simp [Blank]

@[simp] theorem blank_cons : Blank (c :: cs) ↔ isBlank c = true ∧ Blank cs := by simp [Blank]

@[simp] theorem blank_append : Blank (w ++ cs) ↔ Blank w ∧ Blank cs := by
  simp [Blank, or_imp, forall_and]

theorem Blank.eq_nil_or_concat (hw : Blank w) :
    w = [] ∨ ∃ v c, w = v ++ [c] ∧ Blank v ∧ isBlank c = true := by
  obtain hNil | ⟨v, c, rfl⟩ := w.eq_nil_or_concat'
  · exact Or.inl hNil
  · obtain ⟨hv, hc⟩ := blank_append.mp hw
    exact Or.inr ⟨v, c, rfl, hv, (blank_cons.mp hc).1⟩

theorem dropBlank_append (hw : Blank w) : dropBlank (w ++ cs) = dropBlank cs :=
  List.dropWhile_append_of_pos hw

theorem dropBlank_of_not_isBlank (hc : isBlank c = false) : dropBlank (c :: cs) = c :: cs := by
  simp [dropBlank_cons, hc]

theorem dropBlank_append_cons (hw : Blank w) (hc : isBlank c = false) :
    dropBlank (w ++ c :: cs) = c :: cs := by
  rw [dropBlank_append hw, dropBlank_of_not_isBlank hc]

theorem not_isBlank_of_dropBlank (h : dropBlank cs = c :: rest) : isBlank c = false := by
  induction cs with
  | nil => simp at h
  | cons d ds ih =>
    rw [dropBlank_cons] at h
    split at h
    · exact ih h
    · rename_i hd
      obtain ⟨rfl, rfl⟩ := List.cons.inj h
      simpa using hd

theorem exists_blank_append_dropBlank (cs : List Char) : ∃ w, Blank w ∧ cs = w ++ dropBlank cs :=
  ⟨cs.takeWhile isBlank, fun _ hc => List.mem_takeWhile_imp hc,
    (List.takeWhile_append_dropWhile).symm⟩

theorem dropBlankEnd_concat :
    dropBlankEnd (cs ++ [c]) = if isBlank c then dropBlankEnd cs else cs ++ [c] := by
  induction cs with
  | nil => simp [dropBlankEnd]
  | cons d ds ih =>
    by_cases hc : isBlank c = true
    · simp only [hc, if_true] at ih ⊢
      rw [List.cons_append, dropBlankEnd, ih, dropBlankEnd]
    · simp only [hc, Bool.false_eq_true, if_false] at ih ⊢
      rw [List.cons_append, dropBlankEnd, ih]
      cases ds <;> rfl

theorem dropBlankEnd_eq_rdropWhile (cs : List Char) : dropBlankEnd cs = cs.rdropWhile isBlank := by
  induction cs using List.reverseRecOn with
  | nil => rfl
  | append_singleton ds d ih => rw [dropBlankEnd_concat, List.rdropWhile_concat, ih]

theorem exists_dropBlankEnd_append_blank (cs : List Char) :
    ∃ w, Blank w ∧ cs = dropBlankEnd cs ++ w := by
  refine ⟨cs.rtakeWhile isBlank, fun _ hc => List.mem_rtakeWhile_imp hc, ?_⟩
  rw [dropBlankEnd_eq_rdropWhile, List.rdropWhile_append_rtakeWhile]

theorem dropBlankEnd_eq_self (h : ∀ hne : cs ≠ [], isBlank (cs.getLast hne) = false) :
    dropBlankEnd cs = cs := by
  rw [dropBlankEnd_eq_rdropWhile, List.rdropWhile_eq_self_iff]
  intro hne
  simp [h hne]

theorem not_isBlank_getLast_dropBlankEnd (hne : dropBlankEnd cs ≠ []) :
    isBlank ((dropBlankEnd cs).getLast hne) = false := by
  simp only [dropBlankEnd_eq_rdropWhile] at hne ⊢
  simpa using List.rdropWhile_last_not isBlank cs hne

theorem exists_trim (cs : List Char) :
    ∃ w v, Blank w ∧ Blank v ∧ cs = w ++ (trim cs ++ v) := by
  obtain ⟨w, hw, hcs⟩ := exists_blank_append_dropBlank cs
  obtain ⟨v, hv, hDrop⟩ := exists_dropBlankEnd_append_blank (dropBlank cs)
  exact ⟨w, v, hw, hv, by rw [trim, ← hDrop, ← hcs]⟩

theorem not_isBlank_head_trim (h : trim cs = c :: rest) : isBlank c = false := by
  obtain ⟨v, -, hDrop⟩ := exists_dropBlankEnd_append_blank (dropBlank cs)
  rw [← trim, h, List.cons_append] at hDrop
  exact not_isBlank_of_dropBlank hDrop

theorem not_isBlank_getLast_trim (hne : trim cs ≠ []) : isBlank ((trim cs).getLast hne) = false :=
  not_isBlank_getLast_dropBlankEnd hne

theorem trim_isInfix (cs : List Char) : trim cs <:+: cs := by
  obtain ⟨w, v, -, -, hcs⟩ := exists_trim cs
  exact ⟨w, v, by rw [List.append_assoc, ← hcs]⟩

theorem not_isBlank_of_mem_getLast?_trim (hc : c ∈ (trim cs).getLast?) : isBlank c = false := by
  obtain ⟨hne, rfl⟩ := List.mem_getLast?_eq_getLast hc
  exact not_isBlank_getLast_trim hne

theorem trim_trim (cs : List Char) : trim (trim cs) = trim cs := by
  have hDrop : dropBlank (trim cs) = trim cs := by
    cases hTrim : trim cs with
    | nil => rfl
    | cons c rest => exact dropBlank_of_not_isBlank (not_isBlank_head_trim hTrim)
  rw [trim.eq_1 (trim cs), hDrop]
  exact dropBlankEnd_eq_self not_isBlank_getLast_trim

theorem trim_cons_of_isBlank (hc : isBlank c = true) : trim (c :: cs) = trim cs := by
  rw [trim, dropBlank_cons, if_pos hc, trim]

theorem trim_concat_of_isBlank (hc : isBlank c = true) : trim (cs ++ [c]) = trim cs := by
  have hAlone : dropBlank [c] = [] := by rw [dropBlank_cons, if_pos hc, dropBlank_nil]
  rw [trim, dropBlank, List.dropWhile_append, ← dropBlank, ← dropBlank, trim, hAlone]
  split
  · rename_i hEmpty
    rw [List.isEmpty_iff.mp hEmpty]
  · rw [dropBlankEnd_concat, if_pos hc]

theorem trim_append_blank (hw : Blank w) : trim (cs ++ w) = trim cs := by
  induction w using List.reverseRecOn with
  | nil => rw [List.append_nil]
  | append_singleton w c ih =>
    obtain ⟨hw, hc⟩ := blank_append.mp hw
    rw [← List.append_assoc, trim_concat_of_isBlank (blank_cons.mp hc).1, ih hw]

theorem trim_eq_self (hHead : ∀ c ∈ cs.head?, isBlank c = false)
    (hLast : ∀ c ∈ cs.getLast?, isBlank c = false) : trim cs = cs := by
  have hDrop : dropBlank cs = cs := by
    cases cs with
    | nil => rfl
    | cons c rest => exact dropBlank_of_not_isBlank (hHead c rfl)
  rw [trim, hDrop]
  apply dropBlankEnd_eq_self
  intro hne
  exact hLast _ (List.getLast?_eq_some_getLast hne)

theorem infix_of_blank_append (hHead : ∀ c ∈ part.head?, isBlank c = false) (hw : Blank w)
    (h : part <:+: w ++ cs) : part <:+: cs := by
  induction w with
  | nil => exact h
  | cons b w ih =>
    obtain ⟨hb, hw⟩ := blank_cons.mp hw
    rcases List.infix_cons_iff.mp h with hPrefix | hBelow
    · cases part with
      | nil => exact List.nil_infix
      | cons c rest =>
        obtain ⟨rfl, -⟩ := List.cons_prefix_cons.mp hPrefix
        simp [hb] at hHead
    · exact ih hw hBelow

theorem infix_of_append_blank (hLast : ∀ c ∈ part.getLast?, isBlank c = false) (hw : Blank w)
    (h : part <:+: cs ++ w) : part <:+: cs := by
  apply List.reverse_infix.mp
  have hReverse : Blank w.reverse := fun c hc => hw c (List.mem_reverse.mp hc)
  apply infix_of_blank_append (by simpa using hLast) hReverse
  rw [← List.reverse_append]
  exact List.reverse_infix.mpr h

/-- Taking white space off a text leaves in it whatever neither begins nor ends with any. -/
theorem infix_trim_iff (hHead : ∀ c ∈ part.head?, isBlank c = false)
    (hLast : ∀ c ∈ part.getLast?, isBlank c = false) : part <:+: trim cs ↔ part <:+: cs := by
  obtain ⟨w, v, hw, hv, hcs⟩ := exists_trim cs
  constructor
  · intro h
    exact h.trans (trim_isInfix cs)
  · intro h
    rw [hcs] at h
    exact infix_of_append_blank hLast hv (infix_of_blank_append hHead hw h)

def blankCodes : List Nat :=
  List.range' 0x09 5 ++ [0x20, 0x85, 0xa0, 0x1680] ++ List.range' 0x2000 11 ++
    [0x2028, 0x2029, 0x202f, 0x205f, 0x3000]

theorem toNat_mem_blankCodes (h : isBlank c = true) : c.toNat ∈ blankCodes := by
  simp only [isBlank, Bool.or_eq_true, Bool.and_eq_true, decide_eq_true_eq, beq_iff_eq] at h
  simp only [blankCodes, List.mem_append, List.mem_range'_1, List.mem_cons, List.not_mem_nil]
  omega

theorem isBlank_toLower (h : isBlank c = true) : isBlank c.toLower = true := by
  have hAll : ∀ n ∈ blankCodes, isBlank (Char.ofNat n).toLower = true := by decide +kernel
  simpa using hAll c.toNat (toNat_mem_blankCodes h)

theorem not_isWord_of_isBlank (h : isBlank c = true) : isWord c = false := by
  have hNone : ∀ n ∈ blankCodes, isWord (Char.ofNat n) = false := by decide +kernel
  simpa using hNone c.toNat (toNat_mem_blankCodes h)

end ScriptBuild.Text
