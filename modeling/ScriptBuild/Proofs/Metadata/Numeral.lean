import ScriptBuild.Proofs.Metadata.Json

/-!
# Numerals are numbers

What the reader of numerals may complete from each part on, and so from the first octet: the numbers
of the grammar. A complete numeral ends at white space and at the punctuation after a value.
-/

namespace ScriptBuild.Metadata.Numeral

open Json (Run Digits IsWhole IsFraction IsPower IsNumber)

set_option autoImplicit false

variable {part : Part} {b : UInt8} {rest text : Bytes}

def follow : Part → Bytes → Option Part
  | part, [] => some part
  | part, b :: rest =>
    match step part b with
    | .more next => follow next rest
    | _ => none

/-- Octets with which a numeral is complete that has come to a part. -/
def Completes (part : Part) (rest : Bytes) : Prop :=
  ∃ last, follow part rest = some last ∧ last.isComplete = true

theorem completes_nil : Completes part [] ↔ part.isComplete = true := by
  simp [Completes, follow]

theorem completes_cons : Completes part (b :: rest) ↔
    ∃ next, step part b = .more next ∧ Completes next rest := by
  unfold Completes
  rw [follow]
  cases step part b <;> simp

theorem run_nil : Run [] := by simp [Run]

theorem run_cons : Run (b :: rest) ↔ isDigitOctet b = true ∧ Run rest := by simp [Run]

theorem digits_cons : Digits (b :: rest) ↔ isDigitOctet b = true ∧ Run rest := by
  simp [Digits, run_cons]

theorem completes_power : Completes .power rest ↔ Run rest := by
  induction rest with
  | nil => simp [completes_nil, Part.isComplete, run_nil]
  | cons b rest ih =>
    rw [completes_cons, run_cons]
    by_cases hDigit : isDigitOctet b = true
    · simp [step, onDigit, hDigit, ih]
    · simp [step, onDigit, hDigit]

theorem completes_powerSign : Completes .powerSign rest ↔ Digits rest := by
  cases rest with
  | nil => simp [completes_nil, Part.isComplete, Digits]
  | cons b rest =>
    rw [completes_cons, digits_cons]
    by_cases hDigit : isDigitOctet b = true
    · simp [step, onDigit, hDigit, completes_power]
    · simp [step, onDigit, hDigit]

theorem completes_letter : Completes .letter rest ↔
    ∃ sign ds, rest = sign ++ ds ∧ (sign = [] ∨ sign = [octet '+'] ∨ sign = [octet '-']) ∧
      Digits ds := by
  cases rest with
  | nil =>
    simp only [completes_nil, Part.isComplete, List.nil_eq_append_iff]
    simp [Digits]
  | cons b rest =>
    rw [completes_cons]
    constructor
    · rintro ⟨next, hStep, hNext⟩
      by_cases hSign : b = octet '+' ∨ b = octet '-'
      · obtain rfl : .powerSign = next := by simpa [step, hSign] using hStep
        refine ⟨[b], rest, rfl, Or.inr ?_, completes_powerSign.mp hNext⟩
        simpa using hSign
      · by_cases hDigit : isDigitOctet b = true
        · obtain rfl : .power = next := by simpa [step, hSign, onDigit, hDigit] using hStep
          exact ⟨[], b :: rest, rfl, Or.inl rfl, digits_cons.mpr ⟨hDigit, completes_power.mp hNext⟩⟩
        · simp [step, hSign, onDigit, hDigit] at hStep
    · rintro ⟨sign, ds, hText, rfl | hSign, hDigits⟩
      · obtain rfl : b :: rest = ds := hText
        obtain ⟨hDigit, hRun⟩ := digits_cons.mp hDigits
        refine ⟨.power, ?_, completes_power.mpr hRun⟩
        have hPlain : ¬ (b = octet '+' ∨ b = octet '-') := by
          rintro (rfl | rfl) <;> revert hDigit <;> decide
        simp [step, hPlain, onDigit, hDigit]
      · refine ⟨.powerSign, ?_, ?_⟩
        · rcases hSign with rfl | rfl <;> simp [step, (List.cons.inj hText).1]
        · rcases hSign with rfl | rfl <;>
            exact completes_powerSign.mpr ((List.cons.inj hText).2 ▸ hDigits)

theorem isPower_cons : IsPower (b :: rest) ↔
    (b = octet 'e' ∨ b = octet 'E') ∧ Completes .letter rest := by
  rw [completes_letter]
  constructor
  · rintro (h | ⟨letter, sign, ds, h, hLetter, hSign, hDigits⟩)
    · simp at h
    · obtain ⟨rfl, rfl⟩ := List.cons.inj h
      exact ⟨hLetter, sign, ds, rfl, hSign, hDigits⟩
  · rintro ⟨hLetter, sign, ds, rfl, hSign, hDigits⟩
    exact Or.inr ⟨b, sign, ds, rfl, hLetter, hSign, hDigits⟩

theorem not_isDigitOctet_of_letter (h : b = octet 'e' ∨ b = octet 'E') :
    isDigitOctet b = false := by
  rcases h with rfl | rfl <;> decide

theorem exists_run_append_cons {Follows : Bytes → Prop} :
    (∃ ds tail, b :: rest = ds ++ tail ∧ Run ds ∧ Follows tail) ↔
      Follows (b :: rest) ∨
        isDigitOctet b = true ∧ ∃ ds tail, rest = ds ++ tail ∧ Run ds ∧ Follows tail := by
  constructor
  · rintro ⟨ds, tail, hText, hRun, hTail⟩
    cases ds with
    | nil => exact Or.inl (hText ▸ hTail)
    | cons d ds =>
      obtain ⟨rfl, rfl⟩ := List.cons.inj hText
      obtain ⟨hDigit, hRun⟩ := run_cons.mp hRun
      exact Or.inr ⟨hDigit, ds, tail, rfl, hRun, hTail⟩
  · rintro (hTail | ⟨hDigit, ds, tail, rfl, hRun, hTail⟩)
    · exact ⟨[], b :: rest, rfl, run_nil, hTail⟩
    · exact ⟨b :: ds, tail, rfl, run_cons.mpr ⟨hDigit, hRun⟩, hTail⟩

theorem completes_fraction : Completes .fraction rest ↔
    ∃ ds power, rest = ds ++ power ∧ Run ds ∧ IsPower power := by
  induction rest with
  | nil =>
    simp only [completes_nil, Part.isComplete, true_iff]
    exact ⟨[], [], rfl, run_nil, Or.inl rfl⟩
  | cons b rest ih =>
    rw [exists_run_append_cons, completes_cons, ← ih, isPower_cons]
    by_cases hDigit : isDigitOctet b = true
    · have hPlain : ¬ (b = octet 'e' ∨ b = octet 'E') := by
        intro h
        simp [not_isDigitOctet_of_letter h] at hDigit
      simp [step, onDigit, hDigit, hPlain]
    · by_cases hLetter : b = octet 'e' ∨ b = octet 'E'
      · simp [step, onDigit, hDigit, onLetter, hLetter]
      · simp [step, onDigit, hDigit, onLetter, hLetter]

theorem completes_point : Completes .point rest ↔
    ∃ ds power, rest = ds ++ power ∧ Digits ds ∧ IsPower power := by
  cases rest with
  | nil =>
    simp only [completes_nil, Part.isComplete, List.nil_eq_append_iff]
    simp [Digits]
  | cons b rest =>
    rw [completes_cons]
    constructor
    · rintro ⟨next, hStep, hNext⟩
      by_cases hDigit : isDigitOctet b = true
      · obtain rfl : .fraction = next := by simpa [step, onDigit, hDigit] using hStep
        obtain ⟨ds, power, rfl, hRun, hPower⟩ := completes_fraction.mp hNext
        exact ⟨b :: ds, power, rfl, digits_cons.mpr ⟨hDigit, hRun⟩, hPower⟩
      · simp [step, onDigit, hDigit] at hStep
    · rintro ⟨ds, power, hText, hDigits, hPower⟩
      cases ds with
      | nil => exact absurd rfl hDigits.1
      | cons d ds =>
        obtain ⟨rfl, rfl⟩ := List.cons.inj hText
        obtain ⟨hDigit, hRun⟩ := digits_cons.mp hDigits
        exact ⟨.fraction, by simp [step, onDigit, hDigit],
          completes_fraction.mpr ⟨ds, power, rfl, hRun, hPower⟩⟩

def IsTail (text : Bytes) : Prop :=
  ∃ fraction power, text = fraction ++ power ∧ IsFraction fraction ∧ IsPower power

theorem isTail_nil : IsTail [] := ⟨[], [], rfl, Or.inl rfl, Or.inl rfl⟩

theorem isTail_cons : IsTail (b :: rest) ↔
    b = octet '.' ∧ Completes .point rest ∨
      (b = octet 'e' ∨ b = octet 'E') ∧ Completes .letter rest := by
  rw [← isPower_cons, completes_point]
  constructor
  · rintro ⟨fraction, power, hText, rfl | ⟨ds, rfl, hDigits⟩, hPower⟩
    · exact Or.inr (by simpa [hText] using hPower)
    · obtain ⟨rfl, rfl⟩ := List.cons.inj hText
      exact Or.inl ⟨rfl, ds, power, rfl, hDigits, hPower⟩
  · rintro (⟨rfl, ds, power, rfl, hDigits, hPower⟩ | hPower)
    · exact ⟨octet '.' :: ds, power, rfl, Or.inr ⟨ds, rfl, hDigits⟩, hPower⟩
    · exact ⟨[], b :: rest, rfl, Or.inl rfl, hPower⟩

theorem exists_onPoint_eq_more : (∃ next, onPoint b = .more next ∧ Completes next rest) ↔
    IsTail (b :: rest) := by
  rw [isTail_cons]
  by_cases hPoint : b = octet '.'
  · subst hPoint
    have hPlain : ¬ (octet '.' = octet 'e' ∨ octet '.' = octet 'E') := by decide
    simp [onPoint, hPlain]
  · by_cases hLetter : b = octet 'e' ∨ b = octet 'E'
    · simp [onPoint, hPoint, onLetter, hLetter]
    · simp [onPoint, hPoint, onLetter, hLetter]

theorem not_isDigitOctet_of_isTail (h : IsTail (b :: rest)) : isDigitOctet b = false := by
  rcases isTail_cons.mp h with ⟨rfl, -⟩ | ⟨hLetter, -⟩
  · decide
  · exact not_isDigitOctet_of_letter hLetter

theorem completes_zero : Completes .zero rest ↔ IsTail rest := by
  cases rest with
  | nil => simp [completes_nil, Part.isComplete, isTail_nil]
  | cons b rest =>
    rw [completes_cons, ← exists_onPoint_eq_more]
    by_cases hDigit : isDigitOctet b = true
    · have hNot : ¬ IsTail (b :: rest) := by
        intro h
        simp [not_isDigitOctet_of_isTail h] at hDigit
      rw [exists_onPoint_eq_more]
      simp [step, hDigit, hNot]
    · simp [step, hDigit]

theorem completes_whole : Completes .whole rest ↔
    ∃ ds tail, rest = ds ++ tail ∧ Run ds ∧ IsTail tail := by
  induction rest with
  | nil =>
    simp only [completes_nil, Part.isComplete, true_iff]
    exact ⟨[], [], rfl, run_nil, isTail_nil⟩
  | cons b rest ih =>
    rw [exists_run_append_cons, completes_cons, ← ih]
    by_cases hDigit : isDigitOctet b = true
    · have hNot : ¬ IsTail (b :: rest) := by
        intro h
        simp [not_isDigitOctet_of_isTail h] at hDigit
      simp [step, onDigit, hDigit, hNot]
    · rw [← exists_onPoint_eq_more]
      simp [step, onDigit, hDigit]

theorem exists_whole_append_cons :
    (∃ whole tail, b :: rest = whole ++ tail ∧ IsWhole whole ∧ IsTail tail) ↔
      b = octet '0' ∧ Completes .zero rest ∨
        b ≠ octet '0' ∧ isDigitOctet b = true ∧ Completes .whole rest := by
  rw [completes_zero, completes_whole]
  constructor
  · rintro ⟨whole, tail, hText, rfl | ⟨d, ds, rfl, hDigit, hNonzero, hRun⟩, hTail⟩
    · obtain ⟨rfl, rfl⟩ := List.cons.inj hText
      exact Or.inl ⟨rfl, hTail⟩
    · obtain ⟨rfl, rfl⟩ := List.cons.inj hText
      exact Or.inr ⟨hNonzero, hDigit, ds, tail, rfl, hRun, hTail⟩
  · rintro (⟨rfl, hTail⟩ | ⟨hNonzero, hDigit, ds, tail, rfl, hRun, hTail⟩)
    · exact ⟨[octet '0'], rest, rfl, Or.inl rfl, hTail⟩
    · exact ⟨b :: ds, tail, rfl, Or.inr ⟨b, ds, rfl, hDigit, hNonzero, hRun⟩, hTail⟩

theorem completes_sign : Completes .sign rest ↔
    ∃ whole tail, rest = whole ++ tail ∧ IsWhole whole ∧ IsTail tail := by
  cases rest with
  | nil =>
    simp only [completes_nil, Part.isComplete, List.nil_eq_append_iff]
    simp [IsWhole]
  | cons b rest =>
    rw [completes_cons, exists_whole_append_cons]
    by_cases hZero : b = octet '0'
    · simp [step, hZero]
    · by_cases hDigit : isDigitOctet b = true
      · simp [step, hZero, onDigit, hDigit]
      · simp [step, hZero, onDigit, hDigit]

theorem isNumber_iff : IsNumber text ↔
    ∃ sign whole tail, text = sign ++ (whole ++ tail) ∧ (sign = [] ∨ sign = [octet '-']) ∧
      IsWhole whole ∧ IsTail tail := by
  constructor
  · rintro ⟨sign, whole, fraction, power, rfl, hSign, hWhole, hFraction, hPower⟩
    exact ⟨sign, whole, fraction ++ power, by simp, hSign, hWhole, fraction, power, rfl, hFraction,
      hPower⟩
  · rintro ⟨sign, whole, _, rfl, hSign, hWhole, fraction, power, rfl, hFraction, hPower⟩
    exact ⟨sign, whole, fraction, power, by simp, hSign, hWhole, hFraction, hPower⟩

/-- A numeral is complete exactly if it is a number. -/
theorem isNumber_cons : IsNumber (b :: rest) ↔
    ∃ part, begin? b = some part ∧ Completes part rest := by
  rw [isNumber_iff]
  have hMinus : octet '-' ≠ octet '0' ∧ isDigitOctet (octet '-') = false := by decide
  constructor
  · rintro ⟨sign, whole, tail, hText, rfl | rfl, hWhole, hTail⟩
    · rcases exists_whole_append_cons.mp ⟨whole, tail, hText, hWhole, hTail⟩ with
        ⟨rfl, hRest⟩ | ⟨hNonzero, hDigit, hRest⟩
      · exact ⟨.zero, by decide, hRest⟩
      · refine ⟨.whole, ?_, hRest⟩
        have hPlain : b ≠ octet '-' := by
          rintro rfl
          simp [hMinus] at hDigit
        simp [begin?, hPlain, hNonzero, hDigit]
    · obtain ⟨rfl, rfl⟩ := List.cons.inj hText
      exact ⟨.sign, by decide, completes_sign.mpr ⟨whole, tail, rfl, hWhole, hTail⟩⟩
  · rintro ⟨part, hBegin, hRest⟩
    unfold begin? at hBegin
    split at hBegin
    · rename_i hSign
      obtain rfl := Option.some.inj hBegin
      obtain ⟨whole, tail, rfl, hWhole, hTail⟩ := completes_sign.mp hRest
      exact ⟨[octet '-'], whole, tail, by simp [hSign], Or.inr rfl, hWhole, hTail⟩
    · have hText : ∃ whole tail, b :: rest = whole ++ tail ∧ IsWhole whole ∧ IsTail tail := by
        rw [exists_whole_append_cons]
        split at hBegin
        · rename_i hZero
          obtain rfl := Option.some.inj hBegin
          exact Or.inl ⟨hZero, hRest⟩
        · rename_i hNonzero
          split at hBegin
          · rename_i hDigit
            obtain rfl := Option.some.inj hBegin
            exact Or.inr ⟨hNonzero, hDigit, hRest⟩
          · simp at hBegin
      obtain ⟨whole, tail, hEq, hWhole, hTail⟩ := hText
      exact ⟨[], whole, tail, hEq, Or.inl rfl, hWhole, hTail⟩

theorem not_isNumber_nil : ¬ IsNumber [] := by
  rw [isNumber_iff]
  rintro ⟨sign, whole, tail, hText, -, hWhole, -⟩
  obtain ⟨-, rfl, -⟩ : sign = [] ∧ whole = [] ∧ tail = [] := by simpa using hText.symm
  simp [IsWhole] at hWhole

theorem isComplete_of_ended (h : step part b = .ended) : part.isComplete = true := by
  cases part <;> simp [step, onDigit, onLetter, onPoint, Part.isComplete] at h ⊢
  all_goals
    repeat' split at h
    all_goals simp at h

theorem ended_of_isComplete (hComplete : part.isComplete = true)
    (hb : isDigitOctet b = false ∧ b ≠ octet '.' ∧ b ≠ octet 'e' ∧ b ≠ octet 'E') :
    step part b = .ended := by
  obtain ⟨hDigit, hPoint, hSmall, hLarge⟩ := hb
  cases part <;>
    simp_all [step, onDigit, onLetter, onPoint, Part.isComplete]

end ScriptBuild.Metadata.Numeral
