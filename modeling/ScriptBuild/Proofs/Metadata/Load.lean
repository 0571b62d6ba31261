import Mathlib.Data.List.Basic
import ScriptBuild.Index.Walk
import ScriptBuild.Proofs.File.Success
import ScriptBuild.Proofs.Metadata.Record

/-!
# Loading module images

An image is loaded exactly if it is a JSON value, with white space around it, that has the form of a
module; and the metadata is what the value says.
-/

namespace ScriptBuild.Metadata

open Json (Space IsArray)

set_option autoImplicit false

variable {bytes text image : Bytes} {m : Metadata} {form : Form} {draft : ModuleDraft}
  {listed : List TypeDeclaration} {t : TypeDeclaration} {n : Nat}

/-! ## Types -/

def typeRecord (form : Form) (draft : ModuleDraft) (listed : List TypeDeclaration) :
    Record String (Option String) TypeDeclaration where
  outer := .types form draft listed
  slot := .typeValue
  inner := fun inner name? space? => .type form draft listed inner ⟨name?, space?⟩
  first := "name"
  second := "namespace"
  firstSlot := .typeName
  secondSlot := .typeSpace
  IsFirst := IsString
  IsSecond := IsNullable
  make := fun name? space? => TypeDraft.declaration? ⟨name?, space?⟩
  after := fun t => .types form draft (t :: listed)

theorem reads_typeName (inner : Form) (space? : Option (Option String)) :
    Reads (.type form draft listed inner ⟨none, space?⟩) .typeName IsString
      fun name => .type form draft listed inner ⟨some name, space?⟩ := by
  refine IsPlain.reads_string ⟨?_, ?_, rfl, rfl, rfl, ?_⟩ rfl fun _ => rfl
  · intro m
    simp
  · simp
  · rintro (_ | _) context' <;> simp [Context.accept]

theorem reads_typeSpace (inner : Form) (name? : Option String) :
    Reads (.type form draft listed inner ⟨name?, none⟩) .typeSpace IsNullable
      fun space => .type form draft listed inner ⟨name?, some space⟩ := by
  refine IsPlain.reads_nullable ⟨?_, ?_, rfl, rfl, rfl, ?_⟩ rfl fun _ => rfl
  · intro m
    simp
  · simp
  · rintro (_ | _) context' <;> simp [Context.accept]

theorem close_typeRecord (name? : Option String) (space? : Option (Option String)) :
    Context.closeType form draft listed ⟨name?, space?⟩ =
      (typeRecord form draft listed).close name? space? := by
  unfold Context.closeType Record.close typeRecord
  cases name? <;> rfl

theorem lawful_typeRecord : (typeRecord form draft listed).Lawful where
  outer_isOpen := by
    intro m
    simp [typeRecord]
  inner_isOpen := by
    intro _ _ _ m
    simp [typeRecord]
  first_ne_second := by simp [typeRecord]
  slot_ne_payload := by simp [typeRecord]
  accept := by
    intro scalar context
    cases scalar with
    | number tooLarge => cases tooLarge <;> simp [typeRecord, Context.accept]
    | _ => simp [typeRecord, Context.accept]
  openArray := rfl
  openObject := rfl
  slotOf := fun _ _ _ => rfl
  afterComma_object := fun _ _ => rfl
  afterComma_array := fun _ _ => rfl
  closeObject_object := close_typeRecord
  closeObject_array := fun _ _ => rfl
  closeArray_array := close_typeRecord
  closeArray_object := fun _ _ => rfl
  reads_first := reads_typeName
  reads_second := reads_typeSpace

theorem isValue_typeRecord_iff : (typeRecord form draft listed).IsValue t text ↔ IsType t text := by
  constructor
  · rintro ⟨first?, space?, x?, y?, hFields, hFirst, hSecond, hMake⟩
    cases hFirst with
    | none => simp [typeRecord, TypeDraft.declaration?] at hMake
    | @some name nameText hName =>
      obtain rfl := Option.some.inj hMake
      exact ⟨nameText, space?, y?, hFields, hName, hSecond, rfl⟩
  · rintro ⟨nameText, spaceText?, space?, hFields, hName, hSpace, hEq⟩
    refine ⟨some nameText, spaceText?, some t.name, space?, hFields, .some hName, hSpace, ?_⟩
    obtain ⟨name, space⟩ := t
    obtain rfl : space = space?.join := hEq
    rfl

theorem reads_type : Reads (.types form draft listed) .typeValue IsType
    fun t => .types form draft (t :: listed) := by
  have hLawful : (typeRecord form draft listed).Lawful := lawful_typeRecord
  have hReads := hLawful.reads
  have hValue : (typeRecord form draft listed).IsValue = IsType := by
    funext t text
    exact propext isValue_typeRecord_iff
  rwa [hValue] at hReads

def typesCourse (form : Form) (draft : ModuleDraft) :
    Course (List TypeDeclaration) TypeDeclaration where
  expect := fun listed orEnd => ⟨.types form draft listed, [], .value .typeValue orEnd⟩
  done := fun listed => ⟨.types form draft listed, [], .after⟩
  closing := octet ']'
  closed := fun listed =>
    .ok ⟨.module form { draft with types := some listed.reverse }, [], .after⟩
  Writes := IsType
  Next := fun listed t listed' => listed' = t :: listed

theorem isOpen_types : (Context.types form draft listed).IsOpen := by
  intro m
  simp

theorem separated_types : (typesCourse form draft).Separated m := by
  intro _ _ listed bytes _ hAccepts
  obtain ⟨w, rest, rfl, hSpace, hEnding⟩ := Accepts.ending isOpen_types hAccepts
  refine ⟨w, rest, rfl, hSpace, ?_⟩
  cases hEnding with
  | comma hComma hRest =>
    obtain rfl := Except.ok.inj hComma
    exact Or.inr ⟨_, rfl, hRest⟩
  | array hArray hRest => exact Or.inl ⟨_, _, rfl, hArray, hRest⟩
  | object hObject => simp [State.onCloseObject, Context.closeObject] at hObject

theorem itemsBelow_types : (typesCourse form draft).ItemsBelow n m := by
  intro listed orEnd bytes _ hAccepts
  obtain ⟨w, rest, rfl, hSpace, hCase⟩ := reads_type.exists_of_accepts orEnd bytes m hAccepts
  refine ⟨w, rest, rfl, hSpace, ?_⟩
  rcases hCase with hEnd | ⟨t, text, rest', rfl, hType, hAfter⟩
  · exact Or.inl hEnd
  · exact Or.inr ⟨t, text, rest', t :: listed, rfl, hType, rfl, hAfter⟩

theorem takes_types : (typesCourse form draft).Takes where
  skips_expect := fun _ _ => skips_value
  skips_done := fun _ => skips_after
  run_item := by
    rintro listed t _ orEnd text rest hType rfl -
    exact run_of_run (reads_type.run t text orEnd hType)
  step_comma := fun _ _ _ _ _ _ _ => rfl
  isDelimiter_closing := Or.inr (Or.inr (Or.inl rfl))
  step_closing := fun _ => rfl
  step_empty := fun _ => rfl

theorem chain_types_iff {ts listed' : List TypeDeclaration} :
    Chain (typesCourse form draft).Next listed ts listed' ↔ listed' = ts.reverse ++ listed := by
  induction ts generalizing listed with
  | nil =>
    constructor
    · intro hChain
      cases hChain
      rfl
    · rintro rfl
      exact .nil _
  | cons t ts ih =>
    rw [chain_cons_iff]
    constructor
    · rintro ⟨_, rfl, hRest⟩
      simpa using ih.mp hRest
    · rintro rfl
      exact ⟨t :: listed, rfl, ih.mpr (by simp)⟩

theorem reads_types (name? : Option (Option String)) :
    Reads (.module form ⟨name?, none⟩) .moduleTypes (IsArray IsType)
      fun ts => .module form ⟨name?, some ts⟩ where
  run := by
    intro ts text orEnd hTypes
    have hOpening : State.step ⟨.module form ⟨name?, none⟩, [], .value .moduleTypes orEnd⟩
        (octet '[') = .ok ((typesCourse form ⟨name?, none⟩).expect [] true) :=
      step_value_of_ne (by decide) (by decide)
    have hChain : Chain (typesCourse form ⟨name?, none⟩).Next [] ts ts.reverse :=
      chain_types_iff.mpr (by simp)
    rw [Course.run_bracketed takes_types hOpening hTypes hChain]
    simp [typesCourse]
  exists_of_accepts := by
    intro orEnd bytes m hAccepts
    have hOpen : (Context.module form ⟨name?, none⟩).IsOpen := by
      intro m
      simp
    obtain ⟨w, rest, rfl, hSpace, hOpening⟩ := Accepts.opening hOpen hAccepts
    refine ⟨w, rest, rfl, hSpace, ?_⟩
    cases hOpening with
    | close hEnd hClose hRest => exact Or.inl ⟨hEnd, _, _, rfl, hClose, hRest⟩
    | @array t rest hArray hRest =>
      obtain rfl := Except.ok.inj hArray
      obtain ⟨ts, text, rest', listed, t, hText, hTypes, hChain, hClosed, hAfter⟩ :=
        (typesCourse form ⟨name?, none⟩).bracketed_of_accepts itemsBelow_types separated_types
          (Nat.lt_succ_self rest.length) (a := []) hRest
      obtain rfl := Except.ok.inj hClosed
      obtain rfl := chain_types_iff.mp hChain
      exact Or.inr ⟨ts, text, rest', hText, hTypes, by simpa using hAfter⟩
    | object hObject => simp [State.onOpenObject, Context.openObject] at hObject
    | text hRaw hText hRest =>
      obtain ⟨s, context, -, hAccept, -⟩ := (onText_eq_ok_iff (by simp)).mp hText
      simp [Context.accept] at hAccept
    | @scalar scalar text rest context' hScalar hAccept hRest =>
      cases hScalar with
      | number hNumber => cases h : Numeral.isTooLarge text <;> simp [Context.accept, h] at hAccept
      | _ => simp [Context.accept] at hAccept

/-! ## Modules -/

def moduleRecord : Record (Option String) (List TypeDeclaration) Metadata where
  outer := .outside
  slot := .image
  inner := fun form name? types? => .module form ⟨name?, types?⟩
  first := "name"
  second := "types"
  firstSlot := .moduleName
  secondSlot := .moduleTypes
  IsFirst := IsNullable
  IsSecond := IsArray IsType
  make := fun name? types? => some (ModuleDraft.metadata ⟨name?, types?⟩)
  after := .finished

theorem reads_moduleName (form : Form) (types? : Option (List TypeDeclaration)) :
    Reads (.module form ⟨none, types?⟩) .moduleName IsNullable
      fun name => .module form ⟨some name, types?⟩ := by
  refine IsPlain.reads_nullable ⟨?_, ?_, rfl, rfl, rfl, ?_⟩ rfl fun _ => rfl
  · intro m
    simp
  · simp
  · rintro (_ | _) context' <;> simp [Context.accept]

theorem lawful_moduleRecord : moduleRecord.Lawful where
  outer_isOpen := by
    intro m
    simp [moduleRecord]
  inner_isOpen := by
    intro _ _ _ m
    simp [moduleRecord]
  first_ne_second := by simp [moduleRecord]
  slot_ne_payload := by simp [moduleRecord]
  accept := by
    intro scalar context
    cases scalar with
    | number tooLarge => cases tooLarge <;> simp [moduleRecord, Context.accept]
    | _ => simp [moduleRecord, Context.accept]
  openArray := rfl
  openObject := rfl
  slotOf := fun _ _ _ => rfl
  afterComma_object := fun _ _ => rfl
  afterComma_array := fun _ _ => rfl
  closeObject_object := fun _ _ => rfl
  closeObject_array := fun _ _ => rfl
  closeArray_array := fun _ _ => rfl
  closeArray_object := fun _ _ => rfl
  reads_first := reads_moduleName
  reads_second := fun _ => reads_types

theorem isValue_moduleRecord_iff : moduleRecord.IsValue m text ↔ IsModule m text := by
  constructor
  · rintro ⟨name?, types?, x?, y?, hFields, hFirst, hSecond, hMake⟩
    obtain rfl := Option.some.inj hMake
    exact ⟨name?, types?, x?, y?, hFields, hFirst, hSecond, rfl, rfl⟩
  · rintro ⟨nameText?, typesText?, name?, types?, hFields, hName, hTypes, hEq, hEq'⟩
    refine ⟨nameText?, typesText?, name?, types?, hFields, hName, hTypes, ?_⟩
    obtain ⟨name, types⟩ := m
    obtain rfl : name = name?.join := hEq
    obtain rfl : types = types?.getD [] := hEq'
    rfl

theorem reads_module : Reads .outside .image IsModule .finished := by
  have hReads := lawful_moduleRecord.reads
  have hValue : moduleRecord.IsValue = IsModule := by
    funext m text
    exact propext isValue_moduleRecord_iff
  rwa [hValue] at hReads

theorem accepts_finished {m' : Metadata} :
    Accepts ⟨.finished m', [], .after⟩ bytes m ↔ Space bytes ∧ m' = m := by
  induction bytes with
  | nil => simp [accepts_nil, space_nil]
  | cons b rest ih =>
    rw [accepts_cons, space_cons]
    by_cases hb : isSpace b = true
    · simp [skips_after b hb, ih, hb]
    · simp only [hb, Bool.false_eq_true, false_and, iff_false]
      rintro ⟨t, hStep, -⟩
      change State.onAfter ⟨.finished m', [], .after⟩ b = _ at hStep
      unfold State.onAfter at hStep
      rw [if_neg hb] at hStep
      repeat' split at hStep
      all_goals simp [State.onComma, State.onCloseArray, State.onCloseObject, Context.afterComma,
        Context.closeArray, Context.closeObject] at hStep

theorem ofImage_eq_ok_iff : ofImage image = .ok m ↔
    ∃ w text w', image = w ++ text ++ w' ∧ Space w ∧ Space w' ∧ IsModule m text := by
  change Accepts State.initial image m ↔ _
  constructor
  · intro h
    obtain ⟨w, m', text, w', rfl, hSpace, hModule, hAfter⟩ := reads_module.exists_value h
    obtain ⟨hSpace', rfl⟩ := accepts_finished.mp hAfter
    exact ⟨w, text, w', by simp, hSpace, hSpace', hModule⟩
  · rintro ⟨w, text, w', rfl, hSpace, hSpace', hModule⟩
    have hBefore : State.initial.run w = .ok State.initial := run_space skips_value hSpace
    have hValue : State.initial.run text = .ok ⟨.finished m, [], .after⟩ :=
      reads_module.run m text false hModule
    rw [List.append_assoc, accepts_append hBefore, accepts_append hValue]
    exact accepts_finished.mpr ⟨hSpace', rfl⟩

end ScriptBuild.Metadata

namespace ScriptBuild.MetadataLoader

open Json (Space WellFormed)

variable {fs : FileSystem} {p : Path} {contents : Bytes} {m : Metadata}

theorem image_of_read (hRead : fs.read p = .ok contents) :
    image fs p = (Metadata.ofImage contents).mapError .invalid := by
  obtain ⟨executable, hNode⟩ := FileSystem.lookUp_of_read hRead
  rw [image, hNode]

/-- The images that are loaded are JSON values with white space around them, of the form of a
module, and the metadata is what they say. -/
theorem image_exact (hRead : fs.read p = .ok contents) :
    image fs p = .ok m ↔ ∃ w text w', contents = w ++ text ++ w' ∧ Space w ∧ Space w' ∧
      WellFormed text ∧ Metadata.IsModule m text := by
  have hImage : image fs p = .ok m ↔ Metadata.ofImage contents = .ok m := by
    rw [image_of_read hRead, mapError_eq_ok_iff]
  rw [hImage, Metadata.ofImage_eq_ok_iff]
  constructor
  · rintro ⟨w, text, w', hText, hSpace, hSpace', hModule⟩
    exact ⟨w, text, w', hText, hSpace, hSpace', hModule.wellFormed, hModule⟩
  · rintro ⟨w, text, w', hText, hSpace, hSpace', -, hModule⟩
    exact ⟨w, text, w', hText, hSpace, hSpace', hModule⟩

/-- A payload may spell what is no string, and a key may be spelt with an escape. -/
theorem image_exact_of_escapes :
    let contents := Text.utf8 ("\x7b\"code\": [\x7b\"\\ud800\": 1e999\x7d], \"code\": 0, " ++
      "\"n\\u0061me\": null, \"types\": [[\"Socket\", \"Lib\"], \x7b\"name\": \"Main\"\x7d]\x7d\n")
    let fs := FileSystem.empty.put ["m.dll"] (.file contents false)
    fs.read ⟨"/m.dll"⟩ = .ok contents ∧ ∃ w text w', contents = w ++ text ++ w' ∧ Space w ∧
      Space w' ∧ WellFormed text ∧
      Metadata.IsModule ⟨none, [⟨"Socket", some "Lib"⟩, ⟨"Main", none⟩]⟩ text := by
  intro contents fs
  have hRead : fs.read ⟨"/m.dll"⟩ = .ok contents := by decide +kernel
  have hImage : image fs ⟨"/m.dll"⟩ =
      .ok ⟨none, [⟨"Socket", some "Lib"⟩, ⟨"Main", none⟩]⟩ := by decide +kernel
  exact ⟨hRead, (image_exact hRead).mp hImage⟩

end ScriptBuild.MetadataLoader
