import ScriptBuild.Metadata.Reader

/-!
# JSON as a grammar

The octets of JSON values. The members of an object and the items of an array are given by their
texts, so that what a reader asks of them can be said one level at a time. A string is well-formed
by the look of its escapes; what it spells is another question, and a string may spell nothing.
-/

namespace ScriptBuild.Json

open Metadata (octet isSpace isDigitOctet)
open Metadata.Quoted (escaped? hexValue?)

set_option autoImplicit false

variable {α κ : Type}

def Space (w : Bytes) : Prop := ∀ b ∈ w, isSpace b = true

def Run (ds : Bytes) : Prop := ∀ b ∈ ds, isDigitOctet b = true

def Digits (ds : Bytes) : Prop := ds ≠ [] ∧ Run ds

/-- Digits that begin with a zero only if there is no other. -/
def IsWhole (text : Bytes) : Prop :=
  text = [octet '0'] ∨ ∃ b ds, text = b :: ds ∧ isDigitOctet b = true ∧ b ≠ octet '0' ∧ Run ds

def IsFraction (text : Bytes) : Prop := text = [] ∨ ∃ ds, text = octet '.' :: ds ∧ Digits ds

def IsPower (text : Bytes) : Prop :=
  text = [] ∨ ∃ letter sign ds, text = letter :: sign ++ ds ∧
    (letter = octet 'e' ∨ letter = octet 'E') ∧
    (sign = [] ∨ sign = [octet '+'] ∨ sign = [octet '-']) ∧ Digits ds

def IsNumber (text : Bytes) : Prop :=
  ∃ sign whole fraction power, text = sign ++ whole ++ fraction ++ power ∧
    (sign = [] ∨ sign = [octet '-']) ∧ IsWhole whole ∧ IsFraction fraction ∧ IsPower power

inductive IsText : Bytes → Prop
  | nil : IsText []
  | plain {b : UInt8} {rest : Bytes} (hControl : ¬ b < 0x20) (hQuote : b ≠ octet '"')
      (hBackslash : b ≠ octet '\\') (hRest : IsText rest) : IsText (b :: rest)
  | escape {b c : UInt8} {rest : Bytes} (hEscaped : escaped? b = some c) (hRest : IsText rest) :
      IsText (octet '\\' :: b :: rest)
  | code {digits rest : Bytes} {code : Nat} (hLength : digits.length = 4)
      (hCode : hexValue? digits = some code) (hRest : IsText rest) :
      IsText (octet '\\' :: octet 'u' :: digits ++ rest)

def pairCode (high low : Nat) : Nat := 0x10000 + (high - 0xd800) * 0x400 + (low - 0xdc00)

/-- The octets that the octets between quotes stand for. An escape for a surrogate stands for
something only as half of a pair. -/
inductive Unescaped : Bytes → Bytes → Prop
  | nil : Unescaped [] []
  | plain {b : UInt8} {rest octets : Bytes} (hControl : ¬ b < 0x20) (hQuote : b ≠ octet '"')
      (hBackslash : b ≠ octet '\\') (hRest : Unescaped rest octets) :
      Unescaped (b :: rest) (b :: octets)
  | escape {b c : UInt8} {rest octets : Bytes} (hEscaped : escaped? b = some c)
      (hRest : Unescaped rest octets) : Unescaped (octet '\\' :: b :: rest) (c :: octets)
  | code {digits rest octets : Bytes} {code : Nat} (hLength : digits.length = 4)
      (hCode : hexValue? digits = some code) (hPlain : code < 0xd800 ∨ 0xdfff < code)
      (hRest : Unescaped rest octets) :
      Unescaped (octet '\\' :: octet 'u' :: digits ++ rest)
        (String.utf8EncodeChar (Char.ofNat code) ++ octets)
  | pair {digits digits' rest octets : Bytes} {high low : Nat} (hLength : digits.length = 4)
      (hLength' : digits'.length = 4) (hCode : hexValue? digits = some high)
      (hCode' : hexValue? digits' = some low) (hHigh : 0xd800 ≤ high ∧ high ≤ 0xdbff)
      (hLow : 0xdc00 ≤ low ∧ low ≤ 0xdfff) (hRest : Unescaped rest octets) :
      Unescaped (octet '\\' :: octet 'u' :: digits ++ octet '\\' :: octet 'u' :: digits' ++ rest)
        (String.utf8EncodeChar (Char.ofNat (pairCode high low)) ++ octets)

theorem Unescaped.isText {raw octets : Bytes} (h : Unescaped raw octets) : IsText raw := by
  induction h with
  | nil => exact .nil
  | plain hControl hQuote hBackslash hRest ih => exact .plain hControl hQuote hBackslash ih
  | escape hEscaped hRest ih => exact .escape hEscaped ih
  | code hLength hCode hPlain hRest ih => exact .code hLength hCode ih
  | pair hLength hLength' hCode hCode' hHigh hLow hRest ih =>
    have hPair := IsText.code hLength hCode (.code hLength' hCode' ih)
    simpa using hPair

def Spells (raw : Bytes) (s : String) : Prop := Unescaped raw (Text.utf8 s)

def quoted (raw : Bytes) : Bytes := octet '"' :: raw ++ [octet '"']

inductive Sequence (Writes : α → Bytes → Prop) : List α → Bytes → Prop
  | last {x : α} {w text w' : Bytes} (hBefore : Space w) (hItem : Writes x text)
      (hAfter : Space w') : Sequence Writes [x] (w ++ text ++ w')
  | comma {x : α} {xs : List α} {w text w' rest : Bytes} (hBefore : Space w)
      (hItem : Writes x text) (hAfter : Space w') (hRest : Sequence Writes xs rest) :
      Sequence Writes (x :: xs) (w ++ text ++ w' ++ octet ',' :: rest)

theorem Sequence.and_iff {Writes : α → Bytes → Prop} {P : α → Prop} {xs : List α} {inner : Bytes} :
    Sequence (fun x text => Writes x text ∧ P x) xs inner ↔
      Sequence Writes xs inner ∧ ∀ x ∈ xs, P x := by
  constructor
  · intro h
    induction h with
    | last hBefore hItem hAfter => exact ⟨.last hBefore hItem.1 hAfter, by simpa using hItem.2⟩
    | comma hBefore hItem hAfter hRest ih =>
      exact ⟨.comma hBefore hItem.1 hAfter ih.1, by simpa using ⟨hItem.2, ih.2⟩⟩
  · rintro ⟨h, hAll⟩
    induction h with
    | last hBefore hItem hAfter => exact .last hBefore ⟨hItem, by simpa using hAll⟩ hAfter
    | comma hBefore hItem hAfter hRest ih =>
      obtain ⟨hFirst, hOthers⟩ := List.forall_mem_cons.mp hAll
      exact .comma hBefore ⟨hItem, hFirst⟩ hAfter (ih hOthers)

def Bracketed (opening closing : UInt8) (Writes : α → Bytes → Prop) (xs : List α) (text : Bytes) :
    Prop :=
  ∃ inner, text = opening :: inner ++ [closing] ∧
    (xs = [] ∧ Space inner ∨ Sequence Writes xs inner)

theorem Bracketed.and_iff {opening closing : UInt8} {Writes : α → Bytes → Prop} {P : α → Prop}
    {xs : List α} {text : Bytes} :
    Bracketed opening closing (fun x text => Writes x text ∧ P x) xs text ↔
      Bracketed opening closing Writes xs text ∧ ∀ x ∈ xs, P x := by
  constructor
  · rintro ⟨inner, rfl, ⟨rfl, hSpace⟩ | hSequence⟩
    · exact ⟨⟨inner, rfl, Or.inl ⟨rfl, hSpace⟩⟩, by simp⟩
    · obtain ⟨hSequence, hAll⟩ := Sequence.and_iff.mp hSequence
      exact ⟨⟨inner, rfl, Or.inr hSequence⟩, hAll⟩
  · rintro ⟨⟨inner, rfl, ⟨rfl, hSpace⟩ | hSequence⟩, hAll⟩
    · exact ⟨inner, rfl, Or.inl ⟨rfl, hSpace⟩⟩
    · exact ⟨inner, rfl, Or.inr (Sequence.and_iff.mpr ⟨hSequence, hAll⟩)⟩

theorem Sequence.exists_of_imp {Writes : α → Bytes → Prop} {Writes' : κ → Bytes → Prop}
    {xs : List α} {inner : Bytes} (h : Sequence Writes xs inner)
    (hImp : ∀ x ∈ xs, ∀ text, Writes x text → ∃ y, Writes' y text) :
    ∃ ys, Sequence Writes' ys inner := by
  induction h with
  | last hBefore hItem hAfter =>
    obtain ⟨y, hItem'⟩ := hImp _ List.mem_cons_self _ hItem
    exact ⟨[y], .last hBefore hItem' hAfter⟩
  | comma hBefore hItem hAfter hRest ih =>
    obtain ⟨y, hItem'⟩ := hImp _ List.mem_cons_self _ hItem
    obtain ⟨ys, hRest'⟩ := ih fun x hx => hImp x (List.mem_cons_of_mem _ hx)
    exact ⟨y :: ys, .comma hBefore hItem' hAfter hRest'⟩

theorem Bracketed.exists_of_imp {opening closing : UInt8} {Writes : α → Bytes → Prop}
    {Writes' : κ → Bytes → Prop} {xs : List α} {text : Bytes}
    (h : Bracketed opening closing Writes xs text)
    (hImp : ∀ x ∈ xs, ∀ text, Writes x text → ∃ y, Writes' y text) :
    ∃ ys, Bracketed opening closing Writes' ys text := by
  obtain ⟨inner, rfl, ⟨rfl, hSpace⟩ | hSequence⟩ := h
  · exact ⟨[], inner, rfl, Or.inl ⟨rfl, hSpace⟩⟩
  · obtain ⟨ys, hSequence'⟩ := hSequence.exists_of_imp hImp
    exact ⟨ys, inner, rfl, Or.inr hSequence'⟩

def IsArray (Writes : α → Bytes → Prop) : List α → Bytes → Prop :=
  Bracketed (octet '[') (octet ']') Writes

def Member (Key : Bytes → κ → Prop) (field : κ × Bytes) (text : Bytes) : Prop :=
  ∃ raw w w', Key raw field.1 ∧ Space w ∧ Space w' ∧
    text = quoted raw ++ w ++ octet ':' :: w' ++ field.2

def IsObject (Key : Bytes → κ → Prop) : List (κ × Bytes) → Bytes → Prop :=
  Bracketed (octet '\x7b') (octet '\x7d') (Member Key)

/-- A JSON value, nested to any depth. -/
inductive WellFormed : Bytes → Prop
  | null : WellFormed (Text.utf8 "null")
  | true : WellFormed (Text.utf8 "true")
  | false : WellFormed (Text.utf8 "false")
  | number {text : Bytes} (h : IsNumber text) : WellFormed text
  | text {raw : Bytes} (h : IsText raw) : WellFormed (quoted raw)
  | array {items : List Bytes} {text : Bytes} (h : IsArray Eq items text)
      (hItems : ∀ item ∈ items, WellFormed item) : WellFormed text
  | object {fields : List (Bytes × Bytes)} {text : Bytes} (h : IsObject Eq fields text)
      (hKeys : ∀ field ∈ fields, IsText field.1) (hValues : ∀ field ∈ fields, WellFormed field.2) :
      WellFormed text

end ScriptBuild.Json
