import ScriptBuild.Text.Utf8

/-!
# UTF-8 is read as it is written

A text is decoded from the octets that encode it, and from no others.
-/

namespace ScriptBuild.Text

set_option autoImplicit false

variable {b x low high : UInt8} {rest rest' bs : Bytes} {value start n v : Nat} {c : Char}
  {cs : List Char} {lead : Lead}

/-- The lead octet of a character with a given number of octets after it and with given value bits.
The range of the next octet keeps out overlong forms, surrogates and what is above U+10FFFF. -/
def leadOf : Nat → Nat → Lead
  | 1, value => ⟨1, 0x80, 0xbf, value⟩
  | 2, value => ⟨2, if value = 0 then 0xa0 else 0x80, if value = 0xd then 0x9f else 0xbf, value⟩
  | count, value =>
    ⟨count, if value = 0 then 0x90 else 0x80, if value = 4 then 0x8f else 0xbf, value⟩

theorem lead_eq_some_iff : Lead.of? b = some lead ↔
    (∃ value, b.toNat = value + 0xc0 ∧ 2 ≤ value ∧ value < 32 ∧ lead = leadOf 1 value) ∨
    (∃ value, b.toNat = value + 0xe0 ∧ value < 16 ∧ lead = leadOf 2 value) ∨
    ∃ value, b.toNat = value + 0xf0 ∧ value < 5 ∧ lead = leadOf 3 value := by
  unfold Lead.of?
  simp only [Bool.and_eq_true, decide_eq_true_eq, beq_iff_eq, UInt8.le_iff_toNat_le,
    ← UInt8.toNat_inj, UInt8.reduceToNat]
  constructor
  · intro h
    repeat' split at h
    all_goals cases h
    · exact Or.inl ⟨b.toNat - 0xc0, by omega, by omega, by omega, rfl⟩
    · exact Or.inr (Or.inl ⟨0, by omega, by omega, rfl⟩)
    · exact Or.inr (Or.inl ⟨13, by omega, by omega, rfl⟩)
    · refine Or.inr (Or.inl ⟨b.toNat - 0xe0, by omega, by omega, ?_⟩)
      rw [leadOf, if_neg (by omega), if_neg (by omega)]
    · exact Or.inr (Or.inr ⟨0, by omega, by omega, rfl⟩)
    · refine Or.inr (Or.inr ⟨b.toNat - 0xf0, by omega, by omega, ?_⟩)
      simp only [leadOf]
      rw [if_neg (by omega), if_neg (by omega)]
    · exact Or.inr (Or.inr ⟨4, by omega, by omega, rfl⟩)
  · rintro (⟨value, hb, hLow, hHigh, rfl⟩ | ⟨value, hb, hHigh, rfl⟩ | ⟨value, hb, hHigh, rfl⟩)
    · rw [if_pos (by omega), hb, Nat.add_sub_cancel]
      rfl
    · rw [if_neg (by omega)]
      by_cases h0 : value = 0
      · subst h0
        rw [if_pos (by omega)]
        rfl
      · by_cases h13 : value = 13
        · subst h13
          rw [if_neg (by omega), if_pos (by omega)]
          rfl
        · rw [if_neg (by omega), if_neg (by omega), if_pos (by omega), hb, Nat.add_sub_cancel]
          simp [leadOf, h0, h13]
    · rw [if_neg (by omega), if_neg (by omega), if_neg (by omega), if_neg (by omega)]
      by_cases h0 : value = 0
      · subst h0
        rw [if_pos (by omega)]
        rfl
      · by_cases h4 : value = 4
        · subst h4
          rw [if_neg (by omega), if_neg (by omega), if_pos (by omega)]
          rfl
        · rw [if_neg (by omega), if_pos (by omega), hb, Nat.add_sub_cancel]
          simp [leadOf, h0, h4]

theorem range_leadOf_two : (leadOf 2 v).low.toNat ≤ n ∧ n ≤ (leadOf 2 v).high.toNat ↔
    128 ≤ n ∧ n ≤ 191 ∧ (v = 0 → 160 ≤ n) ∧ (v = 0xd → n ≤ 159) := by
  simp only [leadOf, apply_ite UInt8.toNat, UInt8.reduceToNat]
  split <;> split <;> omega

theorem range_leadOf_three : (leadOf 3 v).low.toNat ≤ n ∧ n ≤ (leadOf 3 v).high.toNat ↔
    128 ≤ n ∧ n ≤ 191 ∧ (v = 0 → 144 ≤ n) ∧ (v = 4 → n ≤ 143) := by
  simp only [leadOf, apply_ite UInt8.toNat, UInt8.reduceToNat]
  split <;> split <;> omega

theorem readTail_succ (hLow : low.toNat ≤ b.toNat) (hHigh : b.toNat ≤ high.toNat) :
    readTail low high (n + 1) start (b :: rest) =
      readTail 0x80 0xbf n (start * 64 + (b.toNat - 0x80)) rest := by
  have hLow' : low ≤ b := UInt8.le_iff_toNat_le.mpr hLow
  have hHigh' : b ≤ high := UInt8.le_iff_toNat_le.mpr hHigh
  simp [readTail, hLow', hHigh']

theorem exists_of_readTail_succ (h : readTail low high (n + 1) start bs = (some value, rest')) :
    ∃ b rest, bs = b :: rest ∧ low.toNat ≤ b.toNat ∧ b.toNat ≤ high.toNat ∧
      readTail 0x80 0xbf n (start * 64 + (b.toNat - 0x80)) rest = (some value, rest') := by
  cases bs with
  | nil => simp [readTail] at h
  | cons b rest =>
    rw [readTail] at h
    split at h
    · rename_i hRange
      simp only [Bool.and_eq_true, decide_eq_true_eq, UInt8.le_iff_toNat_le] at hRange
      exact ⟨b, rest, rfl, hRange.1, hRange.2, h⟩
    · simp at h

theorem readTail_zero : readTail low high 0 start bs = (some value, rest') ↔
    start = value ∧ bs = rest' := by
  simp [readTail]

theorem toNat_ofNat (h : value.isValidChar) : (Char.ofNat value).toNat = value := by
  unfold Char.ofNat
  rw [dif_pos h]
  rfl

theorem encodeChar_cases (c : Char) :
    (c.toNat < 0x80 ∧ ∃ b, String.utf8EncodeChar c = [b] ∧ b.toNat = c.toNat) ∨
    (0x80 ≤ c.toNat ∧ c.toNat < 0x800 ∧ ∃ b x, String.utf8EncodeChar c = [b, x] ∧
      b.toNat = c.toNat / 64 + 0xc0 ∧ x.toNat = c.toNat % 64 + 0x80) ∨
    (0x800 ≤ c.toNat ∧ c.toNat < 0x10000 ∧ ∃ b x y, String.utf8EncodeChar c = [b, x, y] ∧
      b.toNat = c.toNat / 4096 + 0xe0 ∧ x.toNat = c.toNat / 64 % 64 + 0x80 ∧
      y.toNat = c.toNat % 64 + 0x80) ∨
    (0x10000 ≤ c.toNat ∧ ∃ b x y z, String.utf8EncodeChar c = [b, x, y, z] ∧
      b.toNat = c.toNat / 262144 + 0xf0 ∧ x.toNat = c.toNat / 4096 % 64 + 0x80 ∧
      y.toNat = c.toNat / 64 % 64 + 0x80 ∧ z.toNat = c.toNat % 64 + 0x80) := by
  have hValid : c.toNat.isValidChar := c.valid
  unfold Nat.isValidChar at hValid
  unfold String.utf8EncodeChar
  change _ ∨ _
  simp only [Char.toNat] at hValid ⊢
  by_cases h1 : c.val.toNat ≤ 0x7f
  · refine Or.inl ⟨by omega, _, by rw [if_pos h1], ?_⟩
    rw [UInt8.toNat_ofNat']
    omega
  by_cases h2 : c.val.toNat ≤ 0x7ff
  · refine Or.inr (Or.inl ⟨by omega, by omega, _, _, by rw [if_neg h1, if_pos h2], ?_, ?_⟩)
    all_goals
      rw [UInt8.toNat_ofNat']
      omega
  by_cases h3 : c.val.toNat ≤ 0xffff
  · refine Or.inr (Or.inr (Or.inl ⟨by omega, by omega, _, _, _,
      by rw [if_neg h1, if_neg h2, if_pos h3], ?_, ?_, ?_⟩))
    all_goals
      rw [UInt8.toNat_ofNat']
      omega
  · refine Or.inr (Or.inr (Or.inr ⟨by omega, _, _, _, _,
      by rw [if_neg h1, if_neg h2, if_neg h3], ?_, ?_, ?_, ?_⟩))
    all_goals
      rw [UInt8.toNat_ofNat']
      omega

/-- What a lead octet and the octets that it asks for encode. -/
theorem encodeChar_of_readTail (hLead : Lead.of? b = some lead)
    (h : readTail lead.low lead.high lead.count lead.value rest = (some value, rest')) :
    b :: rest = String.utf8EncodeChar (Char.ofNat value) ++ rest' := by
  rcases lead_eq_some_iff.mp hLead with
    ⟨bits, hb, hLow, hHigh, rfl⟩ | ⟨bits, hb, hHigh, rfl⟩ | ⟨bits, hb, hHigh, rfl⟩
  · obtain ⟨x, rest, rfl, hx, hx', h⟩ := exists_of_readTail_succ h
    obtain ⟨hValue, rfl⟩ := readTail_zero.mp h
    simp only [leadOf, UInt8.reduceToNat] at hx hx' hValue
    have hc : (Char.ofNat value).toNat = value := toNat_ofNat (Or.inl (by omega))
    rcases encodeChar_cases (Char.ofNat value) with
      ⟨hSize, -⟩ | ⟨-, -, b', x', hEncode, hb', hx''⟩ | ⟨hSize, -⟩ | ⟨hSize, -⟩
    · omega
    · obtain rfl : b' = b := UInt8.toNat_inj.mp (by omega)
      obtain rfl : x' = x := UInt8.toNat_inj.mp (by omega)
      rw [hEncode]
      rfl
    · omega
    · omega
  · obtain ⟨x, rest, rfl, hx, hx', h⟩ := exists_of_readTail_succ h
    obtain ⟨y, rest, rfl, hy, hy', h⟩ := exists_of_readTail_succ h
    obtain ⟨hValue, rfl⟩ := readTail_zero.mp h
    have hRange := range_leadOf_two.mp ⟨hx, hx'⟩
    simp only [leadOf, UInt8.reduceToNat] at hy hy' hValue
    have hc : (Char.ofNat value).toNat = value := toNat_ofNat (by unfold Nat.isValidChar; omega)
    rcases encodeChar_cases (Char.ofNat value) with
      ⟨hSize, -⟩ | ⟨-, hSize, -⟩ | ⟨-, -, b', x', y', hEncode, hb', hx'', hy''⟩ | ⟨hSize, -⟩
    · omega
    · omega
    · obtain rfl : b' = b := UInt8.toNat_inj.mp (by omega)
      obtain rfl : x' = x := UInt8.toNat_inj.mp (by omega)
      obtain rfl : y' = y := UInt8.toNat_inj.mp (by omega)
      rw [hEncode]
      rfl
    · omega
  · obtain ⟨x, rest, rfl, hx, hx', h⟩ := exists_of_readTail_succ h
    obtain ⟨y, rest, rfl, hy, hy', h⟩ := exists_of_readTail_succ h
    obtain ⟨z, rest, rfl, hz, hz', h⟩ := exists_of_readTail_succ h
    obtain ⟨hValue, rfl⟩ := readTail_zero.mp h
    have hRange := range_leadOf_three.mp ⟨hx, hx'⟩
    simp only [leadOf, UInt8.reduceToNat] at hy hy' hz hz' hValue
    have hc : (Char.ofNat value).toNat = value := toNat_ofNat (by unfold Nat.isValidChar; omega)
    rcases encodeChar_cases (Char.ofNat value) with
      ⟨hSize, -⟩ | ⟨-, hSize, -⟩ | ⟨-, hSize, -⟩ |
        ⟨-, b', x', y', z', hEncode, hb', hx'', hy'', hz''⟩
    · omega
    · omega
    · omega
    · obtain rfl : b' = b := UInt8.toNat_inj.mp (by omega)
      obtain rfl : x' = x := UInt8.toNat_inj.mp (by omega)
      obtain rfl : y' = y := UInt8.toNat_inj.mp (by omega)
      obtain rfl : z' = z := UInt8.toNat_inj.mp (by omega)
      rw [hEncode]
      rfl

theorem not_lt_of_toNat (h : 128 ≤ b.toNat) : ¬ b < 0x80 := by
  simpa [UInt8.lt_iff_toNat_lt] using h

theorem decode_of_lead (hLead : Lead.of? b = some lead) (hb : ¬ b < 0x80) (rest : Bytes) :
    decode (b :: rest) =
      (readTail lead.low lead.high lead.count lead.value rest).1.map Char.ofNat ::
        decode (readTail lead.low lead.high lead.count lead.value rest).2 := by
  rw [decode, if_neg hb, hLead]

theorem decode_of_readTail (hLead : Lead.of? b = some lead) (hb : ¬ b < 0x80)
    (h : readTail lead.low lead.high lead.count lead.value rest = (some value, rest')) :
    decode (b :: rest) = some (Char.ofNat value) :: decode rest' := by
  rw [decode_of_lead hLead hb, h]
  rfl

theorem encode_cons : encode (c :: cs) = String.utf8EncodeChar c ++ encode cs := List.flatMap_cons

theorem encodeChar_of_ascii (hb : b < 0x80) : String.utf8EncodeChar (Char.ofNat b.toNat) = [b] := by
  have hSmall : b.toNat < 128 := UInt8.lt_iff_toNat_lt.mp hb
  have hc : (Char.ofNat b.toNat).toNat = b.toNat := toNat_ofNat (Or.inl (by omega))
  rcases encodeChar_cases (Char.ofNat b.toNat) with
    ⟨-, b', hEncode, hb'⟩ | ⟨hSize, -⟩ | ⟨hSize, -⟩ | ⟨hSize, -⟩
  · rw [hEncode, UInt8.toNat_inj.mp (hb'.trans hc)]
  · omega
  · omega
  · omega

theorem decode_encodeChar (c : Char) (rest : Bytes) :
    decode (String.utf8EncodeChar c ++ rest) = some c :: decode rest := by
  have hValid : c.toNat.isValidChar := c.valid
  unfold Nat.isValidChar at hValid
  rcases encodeChar_cases c with
    ⟨hSize, b, hEncode, hb⟩ | ⟨hSize, hSize', b, x, hEncode, hb, hx⟩ |
      ⟨hSize, hSize', b, x, y, hEncode, hb, hx, hy⟩ | ⟨hSize, b, x, y, z, hEncode, hb, hx, hy, hz⟩
  · have hAscii : b < 0x80 := UInt8.lt_iff_toNat_lt.mpr (by simpa [hb] using hSize)
    rw [hEncode, List.singleton_append, decode_ascii_cons hAscii, hb, Char.ofNat_toNat]
  · have hLead : Lead.of? b = some (leadOf 1 (c.toNat / 64)) :=
      lead_eq_some_iff.mpr (Or.inl ⟨_, hb, by omega, by omega, rfl⟩)
    have hTail : readTail 0x80 0xbf 1 (c.toNat / 64) (x :: rest) = (some c.toNat, rest) := by
      rw [readTail_succ (by simp; omega) (by simp; omega)]
      exact readTail_zero.mpr ⟨by omega, rfl⟩
    rw [hEncode, List.cons_append, List.singleton_append,
      decode_of_readTail hLead (not_lt_of_toNat (by omega)) hTail, Char.ofNat_toNat]
  · have hLead : Lead.of? b = some (leadOf 2 (c.toNat / 4096)) :=
      lead_eq_some_iff.mpr (Or.inr (Or.inl ⟨_, hb, by omega, rfl⟩))
    have hRange := range_leadOf_two.mpr
      (show 128 ≤ x.toNat ∧ x.toNat ≤ 191 ∧ (c.toNat / 4096 = 0 → 160 ≤ x.toNat) ∧
        (c.toNat / 4096 = 0xd → x.toNat ≤ 159) by omega)
    have hTail : readTail (leadOf 2 (c.toNat / 4096)).low (leadOf 2 (c.toNat / 4096)).high 2
        (c.toNat / 4096) (x :: y :: rest) = (some c.toNat, rest) := by
      rw [readTail_succ hRange.1 hRange.2, readTail_succ (by simp; omega) (by simp; omega)]
      exact readTail_zero.mpr ⟨by omega, rfl⟩
    rw [hEncode, List.cons_append, List.cons_append, List.singleton_append,
      decode_of_readTail hLead (not_lt_of_toNat (by omega)) hTail, Char.ofNat_toNat]
  · have hLead : Lead.of? b = some (leadOf 3 (c.toNat / 262144)) :=
      lead_eq_some_iff.mpr (Or.inr (Or.inr ⟨_, hb, by omega, rfl⟩))
    have hRange := range_leadOf_three.mpr
      (show 128 ≤ x.toNat ∧ x.toNat ≤ 191 ∧ (c.toNat / 262144 = 0 → 144 ≤ x.toNat) ∧
        (c.toNat / 262144 = 4 → x.toNat ≤ 143) by omega)
    have hTail : readTail (leadOf 3 (c.toNat / 262144)).low (leadOf 3 (c.toNat / 262144)).high 3
        (c.toNat / 262144) (x :: y :: z :: rest) = (some c.toNat, rest) := by
      rw [readTail_succ hRange.1 hRange.2, readTail_succ (by simp; omega) (by simp; omega),
        readTail_succ (by simp; omega) (by simp; omega)]
      exact readTail_zero.mpr ⟨by omega, rfl⟩
    rw [hEncode, List.cons_append, List.cons_append, List.cons_append, List.singleton_append,
      decode_of_readTail hLead (not_lt_of_toNat (by omega)) hTail, Char.ofNat_toNat]

theorem decode?_nil : decode? [] = some [] := by simp [decode?]

theorem decode?_of_cons {decoded : Option Char} (h : decode bs = decoded :: decode rest) :
    decode? bs = decoded.bind fun c => (decode? rest).map (c :: ·) := by
  unfold decode?
  rw [h]
  cases decoded with
  | none => simp
  | some c => cases hRest : (decode rest).mapM id <;> simp [hRest]

/-- A text is decoded from the octets that encode it, and from no others. -/
theorem decode?_eq_some_iff : decode? bs = some cs ↔ bs = encode cs := by
  constructor
  · intro h
    induction bs using decode.induct generalizing cs with
    | case1 =>
      obtain rfl : [] = cs := by simpa [decode?_nil] using h
      rfl
    | case2 b rest hAscii ih =>
      rw [decode?_of_cons (decode_ascii_cons hAscii rest), Option.bind_some] at h
      obtain ⟨cs, hRest, rfl⟩ := Option.map_eq_some_iff.mp h
      rw [encode_cons, encodeChar_of_ascii hAscii, ih hRest, List.singleton_append]
    | case3 b rest hHigh hLead ih =>
      have hDecode : decode (b :: rest) = none :: decode rest := by
        rw [decode, if_neg hHigh]
        simp [hLead]
      rw [decode?_of_cons hDecode] at h
      simp at h
    | case4 b rest hHigh lead hLead ih =>
      have hDecode := decode_of_lead hLead hHigh rest
      rw [decode?_of_cons hDecode] at h
      obtain ⟨c, hc, hRest⟩ := Option.bind_eq_some_iff.mp h
      obtain ⟨value, hValue, rfl⟩ := Option.map_eq_some_iff.mp hc
      obtain ⟨cs, hcs, rfl⟩ := Option.map_eq_some_iff.mp hRest
      rw [encodeChar_of_readTail hLead (Prod.ext hValue rfl), encode_cons, ← ih hcs]
  · rintro rfl
    induction cs with
    | nil => exact decode?_nil
    | cons c cs ih =>
      rw [encode_cons, decode?_of_cons (decode_encodeChar c _), ih]
      rfl

/-! ## Texts cut at an ASCII octet -/

theorem low_of_lead (h : Lead.of? b = some lead) : 0x80 ≤ lead.low := by
  rcases lead_eq_some_iff.mp h with ⟨bits, -, -, -, rfl⟩ | ⟨bits, -, -, rfl⟩ | ⟨bits, -, -, rfl⟩
  · simp [leadOf]
  · simp only [leadOf]
    split <;> decide
  · simp only [leadOf]
    split <;> decide

/-- An ASCII octet continues no character. -/
theorem readTail_append_ascii (hLow : 0x80 ≤ low) (hb : b < 0x80) (n value : Nat)
    (bs rest : Bytes) :
    readTail low high n value (bs ++ b :: rest) =
      ((readTail low high n value bs).1, (readTail low high n value bs).2 ++ b :: rest) := by
  induction n generalizing low high value bs with
  | zero => rfl
  | succ n ih =>
    cases bs with
    | nil =>
      have hOut : ¬ low ≤ b := by
        rw [UInt8.le_iff_toNat_le] at hLow ⊢
        rw [UInt8.lt_iff_toNat_lt] at hb
        omega
      simp [readTail, hOut]
    | cons x bs =>
      rw [List.cons_append, readTail, readTail]
      split
      · exact ih (by decide) _ bs
      · rfl

theorem decode_append_ascii (hb : b < 0x80) (bs rest : Bytes) :
    decode (bs ++ b :: rest) = decode bs ++ some (Char.ofNat b.toNat) :: decode rest := by
  induction bs using decode.induct with
  | case1 => rw [List.nil_append, decode_ascii_cons hb, decode_nil, List.nil_append]
  | case2 x bs hAscii ih =>
    rw [List.cons_append, decode_ascii_cons hAscii, decode_ascii_cons hAscii, ih, List.cons_append]
  | case3 x bs hHigh hLead ih =>
    have hSkip (more : Bytes) : decode (x :: more) = none :: decode more := by
      rw [decode, if_neg hHigh]
      simp [hLead]
    rw [List.cons_append, hSkip, hSkip, ih, List.cons_append]
  | case4 x bs hHigh lead hLead ih =>
    have hTail : readTail lead.low lead.high lead.count lead.value (bs ++ b :: rest) = _ :=
      readTail_append_ascii (low_of_lead hLead) hb lead.count lead.value bs rest
    rw [List.cons_append, decode_of_lead hLead hHigh, decode_of_lead hLead hHigh, hTail, ih,
      List.cons_append]

/-- A character that is cut off before an ASCII octet is replaced as it is at the end of a text. -/
theorem decodeLossy_append_ascii (hb : b < 0x80) (bs rest : Bytes) :
    decodeLossy (bs ++ b :: rest) =
      decodeLossy bs ++ Char.ofNat b.toNat :: decodeLossy rest := by
  simp [decodeLossy, decode_append_ascii hb]

end ScriptBuild.Text
