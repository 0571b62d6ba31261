import ScriptBuild.Proofs.Metadata.Json

/-!
# Module images as JSON

Which JSON values are module images, and of what metadata. A value with two fields is an object in
which other keys may hold anything, or an array of the fields in order, of which the last may be
left out.
-/

namespace ScriptBuild.Metadata

open Json (Spells WellFormed Member IsArray IsObject quoted)

set_option autoImplicit false

def IsString (s : String) (text : Bytes) : Prop := ∃ raw, text = quoted raw ∧ Spells raw s

inductive IsNullable : Option String → Bytes → Prop
  | null : IsNullable none (Text.utf8 "null")
  | string {s : String} {text : Bytes} (h : IsString s text) : IsNullable (some s) text

/-- A key that occurs at most once, with the text of its value if it occurs. -/
def Holds (fields : List (String × Bytes)) (key : String) (text? : Option Bytes) : Prop :=
  (fields.filter (·.1 = key)).map Prod.snd = text?.toList

inductive HasFields (first second : String) : Option Bytes → Option Bytes → Bytes → Prop
  | object {fields : List (String × Bytes)} {text : Bytes} {first? second? : Option Bytes}
      (h : IsObject Spells fields text) (hFirst : Holds fields first first?)
      (hSecond : Holds fields second second?)
      (hOthers : ∀ field ∈ fields, field.1 ≠ first → field.1 ≠ second → WellFormed field.2) :
      HasFields first second first? second? text
  | array {items : List Bytes} {text : Bytes} (h : IsArray Eq items text)
      (hLength : items.length ≤ 2) : HasFields first second items[0]? items[1]? text

/-- The name is required; a namespace may be absent. -/
def IsType (t : TypeDeclaration) (text : Bytes) : Prop :=
  ∃ nameText spaceText? space?, HasFields "name" "namespace" (some nameText) spaceText? text ∧
    IsString t.name nameText ∧ Option.Rel IsNullable space? spaceText? ∧ t.space = space?.join

/-- Both fields may be absent. -/
def IsModule (m : Metadata) (text : Bytes) : Prop :=
  ∃ nameText? typesText? name? types?, HasFields "name" "types" nameText? typesText? text ∧
    Option.Rel IsNullable name? nameText? ∧ Option.Rel (IsArray IsType) types? typesText? ∧
    m.name = name?.join ∧ m.types = types?.getD []

variable {text : Bytes}

theorem IsString.wellFormed {s : String} (h : IsString s text) : WellFormed text := by
  obtain ⟨raw, rfl, hSpells⟩ := h
  exact .text (Json.Unescaped.isText hSpells)

theorem IsNullable.wellFormed {s? : Option String} (h : IsNullable s? text) :
    WellFormed text := by
  cases h with
  | null => exact .null
  | string hString => exact hString.wellFormed

theorem Holds.mem {fields : List (String × Bytes)} {key : String} {text? : Option Bytes}
    (h : Holds fields key text?) {field : String × Bytes} (hField : field ∈ fields)
    (hKey : field.1 = key) : text? = some field.2 := by
  have hMem : field.2 ∈ (fields.filter (·.1 = key)).map Prod.snd :=
    List.mem_map_of_mem (List.mem_filter.mpr ⟨hField, by simpa using hKey⟩)
  rw [h] at hMem
  exact Option.mem_toList.mp hMem

theorem HasFields.wellFormed {first second : String} {first? second? : Option Bytes}
    (h : HasFields first second first? second? text)
    (hFirst : ∀ text, first? = some text → WellFormed text)
    (hSecond : ∀ text, second? = some text → WellFormed text) : WellFormed text := by
  cases h with
  | @object fields text first? second? hObject hHolds hHolds' hOthers =>
    have hValue : ∀ field ∈ fields, WellFormed field.2 := by
      intro field hField
      by_cases hKey : field.1 = first
      · exact hFirst _ (hHolds.mem hField hKey)
      by_cases hKey' : field.1 = second
      · exact hSecond _ (hHolds'.mem hField hKey')
      · exact hOthers field hField hKey hKey'
    have hMembers : ∀ field ∈ fields, ∀ text, Member Spells field text →
        ∃ raw : Bytes × Bytes, Member Eq raw text ∧ Json.IsText raw.1 ∧ WellFormed raw.2 := by
      rintro field hField text ⟨raw, w, w', hSpells, hSpace, hSpace', rfl⟩
      exact ⟨(raw, field.2), ⟨raw, w, w', rfl, hSpace, hSpace', rfl⟩,
        Json.Unescaped.isText hSpells, hValue field hField⟩
    obtain ⟨raws, hRaws⟩ := hObject.exists_of_imp hMembers
    obtain ⟨hObject', hAll⟩ := Json.Bracketed.and_iff.mp hRaws
    exact .object hObject' (fun raw h => (hAll raw h).1) fun raw h => (hAll raw h).2
  | @array items text hArray hLength =>
    refine .array hArray ?_
    intro item hItem
    match items, hLength with
    | [first], _ =>
      obtain rfl := List.mem_singleton.mp hItem
      exact hFirst _ rfl
    | [first, second], _ =>
      rcases List.mem_cons.mp hItem with rfl | hItem
      · exact hFirst _ rfl
      · obtain rfl := List.mem_singleton.mp hItem
        exact hSecond _ rfl

theorem IsType.wellFormed {t : TypeDeclaration} (h : IsType t text) : WellFormed text := by
  obtain ⟨nameText, spaceText?, space?, hFields, hName, hSpace, -⟩ := h
  refine hFields.wellFormed ?_ ?_
  · rintro _ ⟨⟩
    exact hName.wellFormed
  · rintro _ rfl
    cases hSpace with
    | some hSpace => exact hSpace.wellFormed

theorem wellFormed_of_types {types : List TypeDeclaration} (h : IsArray IsType types text) :
    WellFormed text := by
  have hItems : ∀ t ∈ types, ∀ text, IsType t text → ∃ item, item = text ∧ WellFormed item :=
    fun _ _ text hType => ⟨text, rfl, hType.wellFormed⟩
  obtain ⟨items, hArray⟩ := h.exists_of_imp hItems
  obtain ⟨hArray', hAll⟩ := Json.Bracketed.and_iff.mp hArray
  exact .array hArray' hAll

theorem IsModule.wellFormed {m : Metadata} (h : IsModule m text) : WellFormed text := by
  obtain ⟨nameText?, typesText?, name?, types?, hFields, hName, hTypes, -, -⟩ := h
  refine hFields.wellFormed ?_ ?_
  · rintro _ rfl
    cases hName with
    | some hName => exact hName.wellFormed
  · rintro _ rfl
    cases hTypes with
    | some hTypes => exact wellFormed_of_types hTypes

end ScriptBuild.Metadata
