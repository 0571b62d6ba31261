import ScriptBuild.Metadata.Basic
import ScriptBuild.Text.Utf8

/-!
# Numerals

A JSON number is read octet by octet; it ends before the first octet that cannot continue it. No
field of a module image is a number, so its value matters in one respect only: a numeral that is
read as a value, and not passed over, is refused when the value is too large for a double.
-/

namespace ScriptBuild.Metadata

set_option autoImplicit false

def octet (c : Char) : UInt8 := c.toNat.toUInt8

def isDigitOctet (b : UInt8) : Bool := octet '0' ≤ b && b ≤ octet '9'

namespace Numeral

inductive Part
  | sign
  | zero
  | whole
  | point
  | fraction
  | letter
  | powerSign
  | power
  deriving DecidableEq, Repr

def Part.isComplete : Part → Bool
  | .zero | .whole | .fraction | .power => true
  | .sign | .point | .letter | .powerSign => false

inductive Outcome
  | more (part : Part)
  /-- The octet is not part of the numeral, which is complete. -/
  | ended
  /-- No numeral goes on like this. -/
  | refused
  deriving DecidableEq, Repr

/-- A digit continues the numeral with the given part; another octet gives the other outcome. -/
def onDigit (b : UInt8) (part : Part) (otherwise : Outcome) : Outcome :=
  if isDigitOctet b then .more part else otherwise

def onLetter (b : UInt8) : Outcome :=
  if b = octet 'e' || b = octet 'E' then .more .letter else .ended

def onPoint (b : UInt8) : Outcome := if b = octet '.' then .more .point else onLetter b

def step : Part → UInt8 → Outcome
  | .sign, b => if b = octet '0' then .more .zero else onDigit b .whole .refused
  | .zero, b => if isDigitOctet b then .refused else onPoint b
  | .whole, b => onDigit b .whole (onPoint b)
  | .point, b => onDigit b .fraction .refused
  | .fraction, b => onDigit b .fraction (onLetter b)
  | .letter, b =>
    if b = octet '+' || b = octet '-' then .more .powerSign else onDigit b .power .refused
  | .powerSign, b => onDigit b .power .refused
  | .power, b => onDigit b .power .ended

def begin? (b : UInt8) : Option Part :=
  if b = octet '-' then some .sign
  else if b = octet '0' then some .zero
  else if isDigitOctet b then some .whole
  else none

/-- A number rounded to 53 binary digits, a half to the even neighbour. -/
def round53 (n : Nat) : Nat :=
  let excess := n.log2 + 1 - 53
  let quotient := n / Nat.pow 2 excess
  let remainder := n % Nat.pow 2 excess
  let up :=
    Nat.pow 2 excess < 2 * remainder || (2 * remainder == Nat.pow 2 excess && quotient % 2 == 1)
  (if up then quotient + 1 else quotient) * Nat.pow 2 excess

/-- The digits of a numeral as a 64-bit significand and a decimal exponent. -/
structure Magnitude where
  significand : Nat
  exponent : Int
  deriving DecidableEq, Repr

/-- Takes in a digit before the point: once the significand is full, digits only count. -/
def Magnitude.onWhole (m : Magnitude) (b : UInt8) : Magnitude :=
  let next := m.significand * 10 + (b - octet '0').toNat
  if m.exponent = 0 && next < UInt64.size then { m with significand := next }
  else { m with exponent := m.exponent + 1 }

def Magnitude.onFraction (m : Magnitude) : Bytes → Magnitude
  | [] => m
  | b :: rest =>
    let next := m.significand * 10 + (b - octet '0').toNat
    if next < UInt64.size then Magnitude.onFraction ⟨next, m.exponent - 1⟩ rest else m

def power : Bytes → Int
  | [] => 0
  | b :: rest =>
    let value (digits : Bytes) : Nat :=
      digits.foldl (fun n d => n * 10 + (d - octet '0').toNat) 0
    if b = octet '-' then -(value rest : Int)
    else if b = octet '+' then value rest
    else value (b :: rest)

def magnitude (text : Bytes) : Magnitude :=
  let unsigned := if text.head? = some (octet '-') then text.tail else text
  let whole := unsigned.takeWhile isDigitOctet
  let afterWhole := unsigned.dropWhile isDigitOctet
  let fraction :=
    if afterWhole.head? = some (octet '.') then afterWhole.tail.takeWhile isDigitOctet else []
  let exponentPart := afterWhole.dropWhile fun b => b = octet '.' || isDigitOctet b
  let m := Magnitude.onFraction (whole.foldl Magnitude.onWhole ⟨0, 0⟩) fraction
  { m with exponent := m.exponent + power exponentPart.tail }

/-- Whether the significand times the power of ten, each rounded to a double and then the product,
is too large for a double. -/
def Magnitude.isTooLarge (m : Magnitude) : Bool :=
  match m.exponent with
  | .ofNat e =>
    m.significand != 0 && (308 < e ||
      Nat.pow 2 1024 ≤ round53 (round53 m.significand * round53 (Nat.pow 10 e)))
  | .negSucc _ => false

def isTooLarge (text : Bytes) : Bool := (magnitude text).isTooLarge

end Numeral

end ScriptBuild.Metadata
