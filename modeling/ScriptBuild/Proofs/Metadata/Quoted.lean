import ScriptBuild.Proofs.Metadata.Json
import ScriptBuild.Proofs.Text.Utf8

/-!
# Strings are read by their escapes

A string that is passed over is read up to its closing quote exactly if its escapes are well-formed.
A string that is kept is read to the octets that it stands for, and these are UTF-8 exactly if it
spells a string.
-/

namespace ScriptBuild.Metadata.Quoted

open Json (IsText Unescaped Spells pairCode)

set_option autoImplicit false

variable {kept : Bool} {position : Position} {text text' raw rest octets digits : Bytes}
  {b : UInt8} {code high low : Nat} {s : String}

def follow (kept : Bool) : Position → Bytes → Bytes → Option (Position × Bytes)
  | position, text, [] => some (position, text)
  | position, text, b :: rest =>
    match step kept text position b with
    | .more next text' => follow kept next text' rest
    | _ => none

theorem follow_cons_of_more {next : Position} (h : step kept text position b = .more next text') :
    follow kept position text (b :: rest) = follow kept next text' rest := by
  rw [follow, h]

theorem step_hex (digits : Bytes) : step kept text (.hex digits) b =
    if digits.length < 3 then .more (.hex (digits ++ [b])) text
    else
      match hexValue? (digits ++ [b]) with
      | some code => onCode kept text code
      | none => .refused := rfl

theorem step_pairHex (digits : Bytes) : step kept text (.pairHex high digits) b =
    if digits.length < 3 then .more (.pairHex high (digits ++ [b])) text
    else
      match hexValue? (digits ++ [b]) with
      | some low => onLowCode text high low
      | none => .refused := rfl

theorem onCode_ne_closed : onCode kept text code ≠ .closed text' := by
  unfold onCode
  repeat' split
  all_goals simp

theorem onLowCode_ne_closed : onLowCode text high low ≠ .closed text' := by
  unfold onLowCode
  split <;> simp

theorem step_eq_closed_iff : step kept text position b = .closed text' ↔
    position = .plain ∧ b = octet '"' ∧ text' = text := by
  cases position with
  | plain =>
    change (if _ then _ else _) = _ ↔ _
    by_cases hQuote : b = octet '"'
    · simp [hQuote, eq_comm]
    · rw [if_neg hQuote]
      repeat' split
      all_goals simp [hQuote]
  | escape =>
    change (if _ then _ else _) = _ ↔ _
    split
    · simp
    · split <;> simp
  | hex digits =>
    rw [step_hex]
    split
    · simp
    · split <;> simp [onCode_ne_closed]
  | pair high =>
    change (if _ then _ else _) = _ ↔ _
    split <;> simp
  | pairEscape high =>
    change (if _ then _ else _) = _ ↔ _
    split <;> simp
  | pairHex high digits =>
    rw [step_pairHex]
    split
    · simp
    · split <;> simp [onLowCode_ne_closed]

theorem follow_hex (hLength : digits.length = 4) :
    follow kept (.hex []) text (digits ++ rest) =
      match hexValue? digits with
      | none => none
      | some code =>
        match onCode kept text code with
        | .more next text' => follow kept next text' rest
        | _ => none := by
  obtain ⟨a, b, c, d, rfl⟩ : ∃ a b c d, digits = [a, b, c, d] := by
    match digits, hLength with
    | [a, b, c, d], _ => exact ⟨a, b, c, d, rfl⟩
  cases h : hexValue? [a, b, c, d] <;> simp [follow, step_hex, h]

theorem follow_pairHex (hLength : digits.length = 4) :
    follow kept (.pairHex high []) text (digits ++ rest) =
      match hexValue? digits with
      | none => none
      | some low =>
        match onLowCode text high low with
        | .more next text' => follow kept next text' rest
        | _ => none := by
  obtain ⟨a, b, c, d, rfl⟩ : ∃ a b c d, digits = [a, b, c, d] := by
    match digits, hLength with
    | [a, b, c, d], _ => exact ⟨a, b, c, d, rfl⟩
  cases h : hexValue? [a, b, c, d] <;> simp [follow, step_pairHex, h]

theorem exists_digits (h : follow kept (.hex []) text raw = some (.plain, text')) :
    ∃ digits rest, raw = digits ++ rest ∧ digits.length = 4 := by
  match raw with
  | [] | [_] | [_, _] | [_, _, _] => simp [follow, step_hex] at h
  | a :: b :: c :: d :: rest => exact ⟨[a, b, c, d], rest, rfl, rfl⟩

theorem exists_pair_digits (h : follow kept (.pairHex high []) text raw = some (.plain, text')) :
    ∃ digits rest, raw = digits ++ rest ∧ digits.length = 4 := by
  match raw with
  | [] | [_] | [_, _] | [_, _, _] => simp [follow, step_pairHex] at h
  | a :: b :: c :: d :: rest => exact ⟨[a, b, c, d], rest, rfl, rfl⟩

theorem step_plain (hControl : ¬ b < 0x20) (hQuote : b ≠ octet '"') (hBackslash : b ≠ octet '\\') :
    step kept text .plain b = .more .plain (b :: text) := by
  simp [step, hControl, hQuote, hBackslash]

theorem not_escaped_letter : escaped? (octet 'u') = none := by decide

theorem step_escaped {c : UInt8} (h : escaped? b = some c) :
    step kept text .escape b = .more .plain (c :: text) := by
  have hLetter : b ≠ octet 'u' := by
    rintro rfl
    simp [not_escaped_letter] at h
  simp [step, hLetter, h]

theorem follow_backslash (kept : Bool) (text rest : Bytes) :
    follow kept .plain text (octet '\\' :: rest) = follow kept .escape text rest := rfl

theorem follow_escape_letter (kept : Bool) (text rest : Bytes) :
    follow kept .escape text (octet 'u' :: rest) = follow kept (.hex []) text rest := rfl

theorem exists_of_follow_plain
    (h : follow kept .plain text (b :: rest) = some (.plain, text')) :
    (¬ b < 0x20 ∧ b ≠ octet '"' ∧ b ≠ octet '\\' ∧
      follow kept .plain (b :: text) rest = some (.plain, text')) ∨
    (∃ b' c rest', b = octet '\\' ∧ rest = b' :: rest' ∧ escaped? b' = some c ∧
      follow kept .plain (c :: text) rest' = some (.plain, text')) ∨
    ∃ digits rest' code next text'', b = octet '\\' ∧
      rest = octet 'u' :: (digits ++ rest') ∧ digits.length = 4 ∧ hexValue? digits = some code ∧
      onCode kept text code = .more next text'' ∧
      follow kept next text'' rest' = some (.plain, text') := by
  by_cases hBackslash : b = octet '\\'
  · subst hBackslash
    rw [follow_backslash] at h
    refine Or.inr ?_
    cases rest with
    | nil => simp [follow] at h
    | cons b' rest' =>
      by_cases hLetter : b' = octet 'u'
      · subst hLetter
        rw [follow_escape_letter] at h
        obtain ⟨digits, rest'', rfl, hLength⟩ := exists_digits h
        rw [follow_hex hLength] at h
        cases hCode : hexValue? digits with
        | none => simp [hCode] at h
        | some code =>
          simp only [hCode] at h
          split at h
          · rename_i next text'' hOnCode
            exact Or.inr ⟨digits, rest'', code, next, text'', rfl, rfl, hLength, hCode, hOnCode, h⟩
          · simp at h
      · cases hEscaped : escaped? b' with
        | none => simp [follow, step, hLetter, hEscaped] at h
        | some c =>
          rw [follow_cons_of_more (step_escaped hEscaped)] at h
          exact Or.inl ⟨b', c, rest', rfl, rfl, hEscaped, h⟩
  · by_cases hQuote : b = octet '"'
    · simp [follow, step, hQuote] at h
    · by_cases hControl : b < 0x20
      · simp [follow, step, hQuote, hBackslash, hControl] at h
      · rw [follow_cons_of_more (step_plain hControl hQuote hBackslash)] at h
        exact Or.inl ⟨hControl, hQuote, hBackslash, h⟩

theorem isText_of_follow (h : follow false .plain text raw = some (.plain, text')) :
    IsText raw := by
  induction hSize : raw.length using Nat.strongRecOn generalizing raw text with
  | ind n ih =>
    cases raw with
    | nil => exact .nil
    | cons b rest =>
      rcases exists_of_follow_plain h with ⟨hControl, hQuote, hBackslash, hRest⟩ |
        ⟨b', c, rest', rfl, rfl, hEscaped, hRest⟩ |
          ⟨digits, rest', code, next, text'', rfl, rfl, hLength, hCode, hOnCode, hRest⟩
      · rw [List.length_cons] at hSize
        exact .plain hControl hQuote hBackslash (ih _ (by omega) hRest rfl)
      · rw [List.length_cons, List.length_cons] at hSize
        exact .escape hEscaped (ih _ (by omega) hRest rfl)
      · obtain ⟨rfl, rfl⟩ : .plain = next ∧ text = text'' := by simpa [onCode] using hOnCode
        simp only [List.length_cons, List.length_append] at hSize
        exact .code hLength hCode (ih _ (by omega) hRest rfl)

theorem exists_follow_of_isText (h : IsText raw) (text : Bytes) :
    ∃ text', follow false .plain text raw = some (.plain, text') := by
  induction h generalizing text with
  | nil => exact ⟨text, rfl⟩
  | plain hControl hQuote hBackslash hRest ih =>
    rw [follow_cons_of_more (step_plain hControl hQuote hBackslash)]
    exact ih _
  | escape hEscaped hRest ih =>
    rw [follow_backslash, follow_cons_of_more (step_escaped hEscaped)]
    exact ih _
  | code hLength hCode hRest ih =>
    rw [List.cons_append, List.cons_append, follow_backslash, follow_escape_letter,
      follow_hex hLength, hCode]
    exact ih _

theorem follow_pair (kept : Bool) (high : Nat) (text rest : Bytes) :
    follow kept (.pair high) text (octet '\\' :: octet 'u' :: rest) =
      follow kept (.pairHex high []) text rest := rfl

theorem onLowCode_of_low (h : 0xdc00 ≤ low ∧ low ≤ 0xdfff) :
    onLowCode text high low = .more .plain (push (pairCode high low) text) := by
  unfold onLowCode pairCode
  rw [if_pos (by simpa using h)]

/-- An escape for a high surrogate has to be followed by one for a low surrogate. -/
theorem exists_of_follow_pair (h : follow kept (.pair high) text raw = some (.plain, text')) :
    ∃ digits rest low, raw = octet '\\' :: octet 'u' :: (digits ++ rest) ∧ digits.length = 4 ∧
      hexValue? digits = some low ∧ (0xdc00 ≤ low ∧ low ≤ 0xdfff) ∧
      follow kept .plain (push (pairCode high low) text) rest = some (.plain, text') := by
  cases raw with
  | nil => simp [follow] at h
  | cons b rest =>
    by_cases hBackslash : b = octet '\\'
    · subst hBackslash
      change follow kept (.pairEscape high) text rest = _ at h
      cases rest with
      | nil => simp [follow] at h
      | cons b rest =>
        by_cases hLetter : b = octet 'u'
        · subst hLetter
          change follow kept (.pairHex high []) text rest = _ at h
          obtain ⟨digits, rest', rfl, hLength⟩ := exists_pair_digits h
          rw [follow_pairHex hLength] at h
          cases hCode : hexValue? digits with
          | none => simp [hCode] at h
          | some low =>
            by_cases hLow : 0xdc00 ≤ low ∧ low ≤ 0xdfff
            · simp only [hCode, onLowCode_of_low hLow] at h
              exact ⟨digits, rest', low, rfl, hLength, hCode, hLow, h⟩
            · simp [hCode, onLowCode, hLow] at h
        · simp [follow, step, hLetter] at h
    · simp [follow, step, hBackslash] at h

theorem onCode_of_plain (h : code < 0xd800 ∨ 0xdfff < code) :
    onCode true text code = .more .plain (push code text) := by
  unfold onCode
  rw [if_neg (by simp), if_neg (by simp; omega), if_neg (by simp; omega)]

theorem onCode_of_high (h : 0xd800 ≤ code ∧ code ≤ 0xdbff) :
    onCode true text code = .more (.pair code) text := by
  unfold onCode
  rw [if_neg (by simp), if_neg (by simp; omega), if_pos (by simpa using h)]

theorem onCode_of_low (h : 0xdc00 ≤ code ∧ code ≤ 0xdfff) : onCode true text code = .refused := by
  unfold onCode
  rw [if_neg (by simp), if_pos (by simpa using h)]

theorem reverse_push (octets : Bytes) :
    octets.reverse ++ push code text =
      (String.utf8EncodeChar (Char.ofNat code) ++ octets).reverse ++ text := by
  simp [push]

/-- A string that is kept is read to the octets that it stands for. -/
theorem follow_kept_iff : follow true .plain text raw = some (.plain, text') ↔
    ∃ octets, Unescaped raw octets ∧ text' = octets.reverse ++ text := by
  constructor
  · intro h
    induction hSize : raw.length using Nat.strongRecOn generalizing raw text with
    | ind n ih =>
      cases raw with
      | nil =>
        obtain rfl : text = text' := by simpa [follow] using h
        exact ⟨[], .nil, rfl⟩
      | cons b rest =>
        rcases exists_of_follow_plain h with ⟨hControl, hQuote, hBackslash, hRest⟩ |
          ⟨b', c, rest', rfl, rfl, hEscaped, hRest⟩ |
            ⟨digits, rest', code, next, text'', rfl, rfl, hLength, hCode, hOnCode, hRest⟩
        · rw [List.length_cons] at hSize
          obtain ⟨octets, hOctets, rfl⟩ := ih _ (by omega) hRest rfl
          exact ⟨b :: octets, .plain hControl hQuote hBackslash hOctets, by simp⟩
        · rw [List.length_cons, List.length_cons] at hSize
          obtain ⟨octets, hOctets, rfl⟩ := ih _ (by omega) hRest rfl
          exact ⟨c :: octets, .escape hEscaped hOctets, by simp⟩
        · by_cases hPlain : code < 0xd800 ∨ 0xdfff < code
          · rw [onCode_of_plain hPlain] at hOnCode
            obtain ⟨rfl, rfl⟩ : .plain = next ∧ push code text = text'' := by simpa using hOnCode
            simp only [List.length_cons, List.length_append] at hSize
            obtain ⟨octets, hOctets, rfl⟩ := ih _ (by omega) hRest rfl
            exact ⟨_, .code hLength hCode hPlain hOctets, reverse_push octets⟩
          · by_cases hHigh : code ≤ 0xdbff
            · have hRange : 0xd800 ≤ code ∧ code ≤ 0xdbff := by omega
              rw [onCode_of_high hRange] at hOnCode
              obtain ⟨rfl, rfl⟩ : .pair code = next ∧ text = text'' := by simpa using hOnCode
              obtain ⟨digits', rest'', low, rfl, hLength', hCode', hLow, hRest⟩ :=
                exists_of_follow_pair hRest
              simp only [List.length_cons, List.length_append] at hSize
              obtain ⟨octets, hOctets, rfl⟩ := ih _ (by omega) hRest rfl
              refine ⟨_, ?_, reverse_push octets⟩
              have hPair := Unescaped.pair hLength hLength' hCode hCode' hRange hLow hOctets
              simpa using hPair
            · rw [onCode_of_low (by omega)] at hOnCode
              simp at hOnCode
  · rintro ⟨octets, hOctets, rfl⟩
    induction hOctets generalizing text with
    | nil => rfl
    | plain hControl hQuote hBackslash hRest ih =>
      rw [follow_cons_of_more (step_plain hControl hQuote hBackslash), ih]
      simp
    | escape hEscaped hRest ih =>
      rw [follow_backslash, follow_cons_of_more (step_escaped hEscaped), ih]
      simp
    | code hLength hCode hPlain hRest ih =>
      rw [List.cons_append, List.cons_append, follow_backslash, follow_escape_letter,
        follow_hex hLength, hCode]
      simp only [onCode_of_plain hPlain]
      rw [ih, reverse_push]
    | pair hLength hLength' hCode hCode' hHigh hLow hRest ih =>
      simp only [List.append_assoc, List.cons_append]
      rw [follow_backslash, follow_escape_letter, follow_hex hLength, hCode]
      simp only [onCode_of_high hHigh]
      rw [follow_pair, follow_pairHex hLength', hCode']
      simp only [onLowCode_of_low hLow]
      rw [ih, reverse_push]

theorem string?_reverse_eq_some_iff : string? octets.reverse = some s ↔ octets = Text.utf8 s := by
  rw [string?, List.reverse_reverse, Option.map_eq_some_iff]
  constructor
  · rintro ⟨cs, hDecode, rfl⟩
    rw [Text.decode?_eq_some_iff.mp hDecode, Text.utf8, String.toList_ofList]
  · rintro rfl
    exact ⟨s.toList, Text.decode?_eq_some_iff.mpr rfl, String.ofList_toList⟩

/-- What a string that is kept is read to. -/
theorem spells_iff : Spells raw s ↔
    ∃ text, follow true .plain [] raw = some (.plain, text) ∧ string? text = some s := by
  constructor
  · intro h
    exact ⟨_, follow_kept_iff.mpr ⟨_, h, (List.append_nil _).symm⟩,
      string?_reverse_eq_some_iff.mpr rfl⟩
  · rintro ⟨text, hFollow, hString⟩
    obtain ⟨octets, hOctets, rfl⟩ := follow_kept_iff.mp hFollow
    rw [List.append_nil] at hString
    obtain rfl := string?_reverse_eq_some_iff.mp hString
    exact hOctets

end ScriptBuild.Metadata.Quoted
