import ScriptBuild.Proofs.Metadata.Load

/-!
# Payload that is exchanged

Where a module or a type has a field that is not known, any JSON value may stand. Reading comes out
of all of them alike, so that an image with one value and the image with another in its place are
read to the same metadata, or refused for the same fault.
-/

namespace ScriptBuild.Metadata

open Json (Space Spells WellFormed quoted)

set_option autoImplicit false

variable {context : Context} {known : List String} {key : String} {front behind u v : Bytes}

inductive Context.InObject : Context → List String → Prop
  | module (draft : ModuleDraft) : InObject (.module .object draft) ["name", "types"]
  | type (form : Form) (draft : ModuleDraft) (listed : List TypeDeclaration) (entry : TypeDraft) :
      InObject (.type form draft listed .object entry) ["name", "namespace"]

theorem Context.InObject.slotOf (h : context.InObject known) (hKey : key ∉ known) :
    context.slotOf key = .ok .payload := by
  cases h with
  | module draft =>
    simp only [List.mem_cons, List.not_mem_nil, or_false, not_or] at hKey
    simp [Context.slotOf, hKey]
  | type form draft listed entry =>
    simp only [List.mem_cons, List.not_mem_nil, or_false, not_or] at hKey
    simp [Context.slotOf, hKey]

/-- What there is of an image is read without a fault up to a key, with its colon, that is none of
the fields of the object. -/
inductive AtPayload (context : Context) : Bytes → Prop
  | key {before raw w w' : Bytes} {known : List String} {key : String} {orEnd : Bool}
      (hBefore : State.initial.run before = .ok ⟨context, [], .key orEnd⟩)
      (hObject : context.InObject known) (hKey : Spells raw key) (hUnknown : key ∉ known)
      (hSpace : Space w) (hSpace' : Space w') :
      AtPayload context (before ++ (quoted raw ++ (w ++ octet ':' :: w')))

theorem AtPayload.run_eq (h : AtPayload context front) :
    State.initial.run front = .ok ⟨context, [], .value .payload false⟩ := by
  cases h with
  | key hBefore hObject hKey hUnknown hSpace hSpace' =>
    have hColon : State.step ⟨context, [], .colon .payload⟩ (octet ':') =
        .ok ⟨context, [], .value .payload false⟩ := rfl
    rw [run_of_run hBefore, run_of_run (Record.run_key hKey (hObject.slotOf hUnknown)),
      run_of_run (run_space skips_colon hSpace), run_of_step hColon,
      run_space skips_value hSpace']

/-- Reading passes over the value, and goes on behind it as if nothing had been there. -/
theorem AtPayload.run_append (h : AtPayload context front) (hValue : WellFormed u)
    (hBehind : Delimited behind) :
    State.initial.run (front ++ u ++ behind) = State.run ⟨context, [], .after⟩ behind := by
  rw [List.append_assoc, run_of_run h.run_eq]
  exact Payload.passesOver_of_wellFormed hValue context [] false behind hBehind

theorem ofImage_of_exchanged (h : AtPayload context front) (hu : WellFormed u) (hv : WellFormed v)
    (hBehind : Delimited behind) :
    ofImage (front ++ u ++ behind) = ofImage (front ++ v ++ behind) := by
  rw [ofImage, ofImage, h.run_append hu hBehind, h.run_append hv hBehind]

end ScriptBuild.Metadata

namespace ScriptBuild.MetadataLoader

open Json (WellFormed)
open Metadata (AtPayload Delimited isSpace octet)

variable {fs fs' : FileSystem} {p p' : Path} {front behind u v : Bytes}
  {context : Metadata.Context}

/-- The value of a field that is not known may be any JSON value: another one in its place changes
neither the metadata nor the fault for which an image is refused. -/
theorem image_of_exchanged_payload (hRead : fs.read p = .ok (front ++ u ++ behind))
    (hRead' : fs'.read p' = .ok (front ++ v ++ behind)) (hFront : AtPayload context front)
    (hu : WellFormed u) (hv : WellFormed v)
    (hBehind : ∃ b rest, behind = b :: rest ∧
      (isSpace b = true ∨ b = octet ',' ∨ b = octet '\x7d')) :
    image fs p = image fs' p' := by
  have hDelimited : Delimited behind := by
    obtain ⟨b, rest, rfl, hb⟩ := hBehind
    refine ⟨b, rest, rfl, ?_⟩
    rcases hb with hSpace | hComma | hObject
    · exact Or.inl hSpace
    · exact Or.inr (Or.inl hComma)
    · exact Or.inr (Or.inr (Or.inr hObject))
  rw [image_of_read hRead, image_of_read hRead',
    Metadata.ofImage_of_exchanged hFront hu hv hDelimited]

/-- The key may be spelt with an escape, and the other value may spell what is no string. -/
theorem image_of_payload_with_surrogate :
    let before := Text.utf8 "\x7b\"types\": [\x7b\"name\": \"Socket\", "
    let front := before ++ (Json.quoted (Text.utf8 "s\\u0069ze") ++ ([] ++ octet ':' :: []))
    let behind := Text.utf8 "\x7d]\x7d"
    let surrogate := Json.quoted (Text.utf8 "\\ud800")
    let payload := octet '[' :: ([] ++ surrogate ++ []) ++ [octet ']']
    let fs := (FileSystem.empty.put ["a.dll"]
      (.file (front ++ Text.utf8 "null" ++ behind) false)).put ["b.dll"]
      (.file (front ++ payload ++ behind) false)
    image fs ⟨"/a.dll"⟩ = .ok ⟨none, [⟨"Socket", none⟩]⟩ ∧
      image fs ⟨"/b.dll"⟩ = .ok ⟨none, [⟨"Socket", none⟩]⟩ := by
  intro before front behind surrogate payload fs
  have hRead : fs.read ⟨"/a.dll"⟩ = .ok (front ++ Text.utf8 "null" ++ behind) := by decide +kernel
  have hRead' : fs.read ⟨"/b.dll"⟩ = .ok (front ++ payload ++ behind) := by decide +kernel
  have hImage : image fs ⟨"/a.dll"⟩ = .ok ⟨none, [⟨"Socket", none⟩]⟩ := by decide +kernel
  have hBefore : Metadata.State.initial.run before =
      .ok ⟨.type .object {} [] .object ⟨some "Socket", none⟩, [], .key false⟩ := by decide +kernel
  have hKey : Json.Spells (Text.utf8 "s\\u0069ze") "size" :=
    Metadata.Quoted.spells_iff.mpr
      ⟨(Text.utf8 "size").reverse, by decide +kernel, by decide +kernel⟩
  have hFront : AtPayload _ front :=
    .key hBefore (.type _ _ _ _) hKey (by decide) Metadata.space_nil Metadata.space_nil
  have hText : Metadata.Quoted.follow false .plain [] (Text.utf8 "\\ud800") =
      some (.plain, []) := by decide +kernel
  have hPayload : WellFormed payload := by
    have hItems : Json.IsArray Eq [surrogate] payload :=
      ⟨_, rfl, Or.inr (.last Metadata.space_nil rfl Metadata.space_nil)⟩
    refine .array hItems ?_
    intro item hItem
    obtain rfl := List.mem_singleton.mp hItem
    exact .text (Metadata.Quoted.isText_of_follow hText)
  have hBehind : ∃ b rest, behind = b :: rest ∧
      (isSpace b = true ∨ b = octet ',' ∨ b = octet '\x7d') :=
    ⟨octet '\x7d', Text.utf8 "]\x7d", by decide +kernel, Or.inr (Or.inr rfl)⟩
  refine ⟨hImage, ?_⟩
  rw [← image_of_exchanged_payload hRead hRead' hFront .null hPayload hBehind]
  exact hImage

end ScriptBuild.MetadataLoader
