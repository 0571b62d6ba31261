/-!
# UTF-8

Octets and the characters they encode. Decoding reads one character at a time and gives `none`
for each longest octet run that begins a character but cannot be completed, so that an ill-formed
text can either be refused (`decode?`) or read with replacement characters (`decodeLossy`).
-/

namespace ScriptBuild

set_option autoImplicit false

abbrev Bytes := List UInt8

namespace Text

def encode (cs : List Char) : Bytes := cs.flatMap String.utf8EncodeChar

def utf8 (s : String) : Bytes := encode s.toList

/-- What the first octet of a longer character asks for: how many octets follow, the range of the
first of them, and the value bits that the octet itself carries. -/
structure Lead where
  count : Nat
  low : UInt8
  high : UInt8
  value : Nat

/-- The lead octets are those of well-formed UTF-8: no overlong form, no surrogate, nothing above
U+10FFFF. -/
def Lead.of? (b : UInt8) : Option Lead :=
  if 0xc2 ≤ b && b ≤ 0xdf then some ⟨1, 0x80, 0xbf, b.toNat - 0xc0⟩
  else if b == 0xe0 then some ⟨2, 0xa0, 0xbf, 0⟩
  else if b == 0xed then some ⟨2, 0x80, 0x9f, 0xd⟩
  else if 0xe1 ≤ b && b ≤ 0xef then some ⟨2, 0x80, 0xbf, b.toNat - 0xe0⟩
  else if b == 0xf0 then some ⟨3, 0x90, 0xbf, 0⟩
  else if 0xf1 ≤ b && b ≤ 0xf3 then some ⟨3, 0x80, 0xbf, b.toNat - 0xf0⟩
  else if b == 0xf4 then some ⟨3, 0x80, 0x8f, 4⟩
  else none

def readTail (low high : UInt8) : Nat → Nat → Bytes → Option Nat × Bytes
  | 0, value, rest => (some value, rest)
  | _ + 1, _, [] => (none, [])
  | n + 1, value, b :: rest =>
    if low ≤ b && b ≤ high then readTail 0x80 0xbf n (value * 64 + (b.toNat - 0x80)) rest
    else (none, b :: rest)

theorem length_readTail_le (low high : UInt8) (n value : Nat) (bs : Bytes) :
    (readTail low high n value bs).2.length ≤ bs.length := by
  fun_induction readTail low high n value bs with
  | case1 => exact Nat.le_refl _
  | case2 => exact Nat.le_refl _
  | case3 low high n value b rest _ ih => exact Nat.le_succ_of_le ih
  | case4 => exact Nat.le_refl _

/-- The characters of an octet sequence, with `none` for each ill-formed run. -/
def decode : Bytes → List (Option Char)
  | [] => []
  | b :: rest =>
    if b < 0x80 then some (Char.ofNat b.toNat) :: decode rest
    else
      match Lead.of? b with
      | none => none :: decode rest
      | some lead =>
        (readTail lead.low lead.high lead.count lead.value rest).1.map Char.ofNat ::
          decode (readTail lead.low lead.high lead.count lead.value rest).2
termination_by bs => bs.length
decreasing_by
  · simp
  · simp
  · have := length_readTail_le lead.low lead.high lead.count lead.value rest
    simp; omega

def decode? (bs : Bytes) : Option (List Char) := (decode bs).mapM id

/-- The text of any octet sequence, with U+FFFD for each ill-formed run. -/
def decodeLossy (bs : Bytes) : List Char := (decode bs).map (·.getD '\ufffd')

@[simp] theorem decode_nil : decode [] = [] := by simp [decode]

@[simp] theorem decodeLossy_nil : decodeLossy [] = [] := by simp [decodeLossy]

theorem decode_ascii_cons {b : UInt8} (h : b < 0x80) (rest : Bytes) :
    decode (b :: rest) = some (Char.ofNat b.toNat) :: decode rest := by
  rw [decode]; simp [h]

end Text

end ScriptBuild
