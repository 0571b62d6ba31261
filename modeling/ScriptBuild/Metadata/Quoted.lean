import ScriptBuild.Metadata.Numeral

/-!
# Quoted strings

A JSON string is read octet by octet after its opening quote. A string that is kept is checked:
escapes for surrogates have to come in pairs, and the octets of the whole have to be UTF-8, which
is looked at when the string ends. A string that is passed over only has to be well-formed as to its
escapes and control characters.
-/

namespace ScriptBuild.Metadata.Quoted

set_option autoImplicit false

inductive Position
  | plain
  /-- After a backslash. -/
  | escape
  /-- After `\u` and the given octets. -/
  | hex (digits : Bytes)
  /-- After an escape for a high surrogate. -/
  | pair (high : Nat)
  /-- After an escape for a high surrogate and a backslash. -/
  | pairEscape (high : Nat)
  /-- After an escape for a high surrogate, `\u` and the given octets. -/
  | pairHex (high : Nat) (digits : Bytes)
  deriving DecidableEq, Repr

/-- What one more octet does to a string. The text is listed from its last octet back. -/
inductive Outcome
  | more (position : Position) (text : Bytes)
  | closed (text : Bytes)
  | refused
  deriving DecidableEq, Repr

def hexDigit? (b : UInt8) : Option Nat :=
  if isDigitOctet b then some (b - octet '0').toNat
  else if octet 'a' ≤ b && b ≤ octet 'f' then some ((b - octet 'a').toNat + 10)
  else if octet 'A' ≤ b && b ≤ octet 'F' then some ((b - octet 'A').toNat + 10)
  else none

def hexValue? (digits : Bytes) : Option Nat :=
  digits.foldlM (fun n b => (hexDigit? b).map (n * 16 + ·)) 0

def escaped? (b : UInt8) : Option UInt8 :=
  if b = octet '"' || b = octet '\\' || b = octet '/' then some b
  else if b = octet 'b' then some 0x08
  else if b = octet 'f' then some 0x0c
  else if b = octet 'n' then some 0x0a
  else if b = octet 'r' then some 0x0d
  else if b = octet 't' then some 0x09
  else none

def push (codePoint : Nat) (text : Bytes) : Bytes :=
  (String.utf8EncodeChar (Char.ofNat codePoint)).reverse ++ text

def onCode (kept : Bool) (text : Bytes) (code : Nat) : Outcome :=
  if !kept then .more .plain text
  else if 0xdc00 ≤ code && code ≤ 0xdfff then .refused
  else if 0xd800 ≤ code && code ≤ 0xdbff then .more (.pair code) text
  else .more .plain (push code text)

def onLowCode (text : Bytes) (high low : Nat) : Outcome :=
  if 0xdc00 ≤ low && low ≤ 0xdfff then
    .more .plain (push (0x10000 + (high - 0xd800) * 0x400 + (low - 0xdc00)) text)
  else .refused

/-- Reads one octet. The digits of an escape are looked at when there are four of them. -/
def step (kept : Bool) (text : Bytes) : Position → UInt8 → Outcome
  | .plain, b =>
    if b = octet '"' then .closed text
    else if b = octet '\\' then .more .escape text
    else if b < 0x20 then .refused
    else .more .plain (b :: text)
  | .escape, b =>
    if b = octet 'u' then .more (.hex []) text
    else
      match escaped? b with
      | some c => .more .plain (c :: text)
      | none => .refused
  | .hex digits, b =>
    if digits.length < 3 then .more (.hex (digits ++ [b])) text
    else
      match hexValue? (digits ++ [b]) with
      | some code => onCode kept text code
      | none => .refused
  | .pair high, b => if b = octet '\\' then .more (.pairEscape high) text else .refused
  | .pairEscape high, b => if b = octet 'u' then .more (.pairHex high []) text else .refused
  | .pairHex high digits, b =>
    if digits.length < 3 then .more (.pairHex high (digits ++ [b])) text
    else
      match hexValue? (digits ++ [b]) with
      | some low => onLowCode text high low
      | none => .refused

def string? (text : Bytes) : Option String := (Text.decode? text.reverse).map String.ofList

end ScriptBuild.Metadata.Quoted
