import ScriptBuild.Proofs.Metadata.Sequence

/-!
# Passing over payload

A value of the payload may be any JSON value, nested to any depth. Reading passes over it to where
it ends, and takes no more from it than that it was there.
-/

namespace ScriptBuild.Metadata

open Json (Space WellFormed IsText Member quoted)

set_option autoImplicit false

variable {t : State} {bytes rest text raw : Bytes} {m : Metadata} {context : Context}
  {skipping : List Form} {orEnd : Bool} {n : Nat}

namespace Payload

def array (context : Context) (skipping : List Form) (IsItem : Bytes → Prop) :
    Course Unit Bytes where
  expect := fun _ orEnd => ⟨context, .array :: skipping, .value .payload orEnd⟩
  done := fun _ => ⟨context, .array :: skipping, .after⟩
  closing := octet ']'
  closed := fun _ => .ok ⟨context, skipping, .after⟩
  Writes := fun item text => item = text ∧ IsItem item
  Next := fun _ _ _ => True

def object (context : Context) (skipping : List Form) (IsField : Bytes × Bytes → Prop) :
    Course Unit (Bytes × Bytes) where
  expect := fun _ orEnd => ⟨context, .object :: skipping, .key orEnd⟩
  done := fun _ => ⟨context, .object :: skipping, .after⟩
  closing := octet '\x7d'
  closed := fun _ => .ok ⟨context, skipping, .after⟩
  Writes := fun field text => Member Eq field text ∧ IsField field
  Next := fun _ _ _ => True

theorem separated_array {IsItem : Bytes → Prop} (hOpen : context.IsOpen) :
    (array context skipping IsItem).Separated m := by
  intro _ _ _ bytes _ h
  obtain ⟨w, rest, rfl, hSpace, hEnding⟩ := Accepts.ending hOpen h
  refine ⟨w, rest, rfl, hSpace, ?_⟩
  cases hEnding with
  | comma hComma hRest =>
    obtain rfl := Except.ok.inj hComma
    exact Or.inr ⟨_, rfl, hRest⟩
  | array hArray hRest => exact Or.inl ⟨_, _, rfl, hArray, hRest⟩
  | object hObject => simp [State.onCloseObject] at hObject

theorem separated_object {IsField : Bytes × Bytes → Prop} (hOpen : context.IsOpen) :
    (object context skipping IsField).Separated m := by
  intro _ _ _ bytes _ h
  obtain ⟨w, rest, rfl, hSpace, hEnding⟩ := Accepts.ending hOpen h
  refine ⟨w, rest, rfl, hSpace, ?_⟩
  cases hEnding with
  | comma hComma hRest =>
    obtain rfl := Except.ok.inj hComma
    exact Or.inr ⟨_, rfl, hRest⟩
  | array hArray => simp [State.onCloseArray] at hArray
  | object hObject hRest => exact Or.inl ⟨_, _, rfl, hObject, hRest⟩

/-- Images shorter than a length go on with a value, or with the end of an array. -/
def ValuesBelow (context : Context) (n : Nat) (m : Metadata) : Prop :=
  ∀ skipping orEnd bytes, bytes.length < n →
    Accepts ⟨context, skipping, .value .payload orEnd⟩ bytes m →
    ∃ w rest, bytes = w ++ rest ∧ Space w ∧
      (orEnd = true ∧ EndsArray ⟨context, skipping, .after⟩ m rest ∨
        ∃ text rest', rest = text ++ rest' ∧ WellFormed text ∧
          Accepts ⟨context, skipping, .after⟩ rest' m)

theorem itemsBelow_array (h : ValuesBelow context n m) :
    (array context skipping WellFormed).ItemsBelow n m := by
  intro _ orEnd bytes hLength hAccepts
  obtain ⟨w, rest, rfl, hSpace, hCase⟩ := h _ orEnd bytes hLength hAccepts
  refine ⟨w, rest, rfl, hSpace, ?_⟩
  rcases hCase with ⟨hEnd, hClose⟩ | ⟨text, rest', rfl, hText, hRest⟩
  · exact Or.inl ⟨hEnd, hClose⟩
  · exact Or.inr ⟨text, text, rest', (), rfl, ⟨rfl, hText⟩, trivial, hRest⟩

theorem itemsBelow_object (hOpen : context.IsOpen) (h : ValuesBelow context n m) :
    (object context skipping fun field => IsText field.1 ∧ WellFormed field.2).ItemsBelow n m := by
  intro _ orEnd bytes hLength hAccepts
  obtain ⟨w, rest, rfl, hSpace, hKeyed⟩ := Accepts.keyed hOpen hAccepts
  refine ⟨w, rest, rfl, hSpace, ?_⟩
  cases hKeyed with
  | close hEnd hClose hRest => exact Or.inl ⟨hEnd, _, _, rfl, hClose, hRest⟩
  | @key raw text w' rest' slot hSpace' hRaw hKey hRest =>
    have hSlot : slot = .payload := by simpa [State.onKey, eq_comm] using hKey
    subst hSlot
    have hLength' : rest'.length < n := by
      simp only [List.length_append, List.length_cons] at hLength
      omega
    obtain ⟨w'', rest'', rfl, hSpace'', hCase⟩ := h _ false rest' hLength' hRest
    rcases hCase with ⟨hEnd, -⟩ | ⟨text', rest''', rfl, hText, hAfter⟩
    · simp at hEnd
    · refine Or.inr ⟨(raw, text'), _, rest''', (), ?_, ⟨⟨raw, w', w'', rfl, hSpace', hSpace'', rfl⟩,
        Quoted.isText_of_follow hRaw, hText⟩, trivial, hAfter⟩
      simp

theorem wellFormed_of_isScalar {scalar : Scalar} (h : IsScalar scalar text) : WellFormed text := by
  cases h with
  | null => exact .null
  | true => exact .true
  | false => exact .false
  | number hNumber => exact .number hNumber

theorem valuesBelow (hOpen : context.IsOpen) (n : Nat) (m : Metadata) :
    ValuesBelow context n m := by
  induction n with
  | zero =>
    intro _ _ bytes hLength
    simp at hLength
  | succ n ih =>
    intro skipping orEnd bytes hLength h
    obtain ⟨w, rest, rfl, hSpace, hOpening⟩ := Accepts.opening hOpen h
    refine ⟨w, rest, rfl, hSpace, ?_⟩
    cases hOpening with
    | close hEnd hClose hRest => exact Or.inl ⟨hEnd, _, _, rfl, hClose, hRest⟩
    | @array t rest hArray hRest =>
      obtain rfl := Except.ok.inj hArray
      have hLength' : rest.length < n := by
        simp only [List.length_append, List.length_cons] at hLength
        omega
      obtain ⟨items, text, rest', _, t, hText, hArray, -, hClosed, hAfter⟩ :=
        (array context skipping WellFormed).bracketed_of_accepts (itemsBelow_array ih)
          (separated_array hOpen) hLength' (a := ()) hRest
      obtain rfl := Except.ok.inj hClosed
      obtain ⟨hArray, hItems⟩ := Json.Bracketed.and_iff.mp hArray
      exact Or.inr ⟨text, rest', hText, .array hArray hItems, hAfter⟩
    | @object t rest hObject hRest =>
      obtain rfl := Except.ok.inj hObject
      have hLength' : rest.length < n := by
        simp only [List.length_append, List.length_cons] at hLength
        omega
      obtain ⟨fields, text, rest', _, t, hText, hObject, -, hClosed, hAfter⟩ :=
        (object context skipping _).bracketed_of_accepts (itemsBelow_object hOpen ih)
          (separated_object hOpen) hLength' (a := ()) hRest
      obtain rfl := Except.ok.inj hClosed
      obtain ⟨hObject, hFields⟩ := Json.Bracketed.and_iff.mp hObject
      exact Or.inr ⟨text, rest', hText, .object hObject (fun field h => (hFields field h).1)
        (fun field h => (hFields field h).2), hAfter⟩
    | @text raw text rest t hRaw hText hRest =>
      obtain rfl := Except.ok.inj hText
      exact Or.inr ⟨quoted raw, rest, rfl, .text (Quoted.isText_of_follow hRaw), hRest⟩
    | @scalar scalar text rest context' hScalar hAccept hRest =>
      obtain rfl : context = context' := by simpa [Context.accept] using hAccept
      exact Or.inr ⟨text, rest, rfl, wellFormed_of_isScalar hScalar, hRest⟩

theorem exists_value (hOpen : context.IsOpen)
    (h : Accepts ⟨context, skipping, .value .payload false⟩ bytes m) :
    ∃ w text rest, bytes = w ++ (text ++ rest) ∧ Space w ∧ WellFormed text ∧
      Accepts ⟨context, skipping, .after⟩ rest m := by
  obtain ⟨w, rest, rfl, hSpace, hCase⟩ :=
    valuesBelow hOpen (bytes.length + 1) m skipping false bytes (Nat.lt_succ_self _) h
  rcases hCase with ⟨hEnd, -⟩ | ⟨text, rest', rfl, hText, hAfter⟩
  · simp at hEnd
  · exact ⟨w, text, rest', rfl, hSpace, hText, hAfter⟩

/-- Where a value is passed over, whatever surrounds it. -/
def PassesOver (context : Context) (text : Bytes) : Prop :=
  ∀ skipping orEnd rest, Delimited rest →
    State.run ⟨context, skipping, .value .payload orEnd⟩ (text ++ rest) =
      State.run ⟨context, skipping, .after⟩ rest

theorem passesOver_of_run
    (h : ∀ skipping orEnd, State.run ⟨context, skipping, .value .payload orEnd⟩ text =
      .ok ⟨context, skipping, .after⟩) : PassesOver context text :=
  fun skipping orEnd _ _ => run_of_run (h skipping orEnd)

theorem takes_array (context : Context) (skipping : List Form) :
    (array context skipping (PassesOver context)).Takes where
  skips_expect := fun _ _ => skips_value
  skips_done := fun _ => skips_after
  run_item := by
    rintro _ item _ orEnd _ rest ⟨rfl, hItem⟩ - hRest
    exact hItem _ orEnd rest hRest
  step_comma := fun _ _ _ _ _ _ _ => rfl
  isDelimiter_closing := Or.inr (Or.inr (Or.inl rfl))
  step_closing := fun _ => rfl
  step_empty := fun _ => rfl

theorem run_key (hRaw : IsText raw) (form : Form) (orEnd : Bool) :
    State.run ⟨context, form :: skipping, .key orEnd⟩ (quoted raw) =
      .ok ⟨context, form :: skipping, .colon .payload⟩ := by
  obtain ⟨text', hFollow⟩ := Quoted.exists_follow_of_isText hRaw []
  have hStep : State.step ⟨context, form :: skipping, .key orEnd⟩ (octet '"') =
      .ok ⟨context, form :: skipping, .quotedKey .plain []⟩ := by
    cases orEnd <;> rfl
  rw [quoted, List.cons_append, run_of_step hStep]
  exact run_string false .quotedKey (State.onKey ⟨context, form :: skipping, .after⟩)
    (fun _ _ _ => rfl) hFollow

theorem takes_object (context : Context) (skipping : List Form) :
    (object context skipping fun field => IsText field.1 ∧ PassesOver context field.2).Takes where
  skips_expect := fun _ _ => skips_key
  skips_done := fun _ => skips_after
  run_item := by
    rintro _ ⟨key, value⟩ _ orEnd _ rest ⟨⟨raw, w, w', rfl, hSpace, hSpace', rfl⟩, hKey, hValue⟩ -
      hRest
    have hColon : State.step ⟨context, .object :: skipping, .colon .payload⟩ (octet ':') =
        .ok ⟨context, .object :: skipping, .value .payload false⟩ := rfl
    simp only [List.append_assoc, List.cons_append]
    change State.run ⟨context, .object :: skipping, .key orEnd⟩ _ = _
    rw [run_of_run (run_key hKey .object orEnd), run_of_run (run_space skips_colon hSpace),
      run_of_step hColon, run_of_run (run_space skips_value hSpace')]
    exact hValue _ false rest hRest
  step_comma := fun _ _ _ _ _ _ _ => rfl
  isDelimiter_closing := Or.inr (Or.inr (Or.inr rfl))
  step_closing := fun _ => rfl
  step_empty := fun _ => rfl

/-- A JSON value of the payload is passed over, and everything around it stays as it is. -/
theorem passesOver_of_wellFormed (h : WellFormed text) (context : Context) :
    PassesOver context text := by
  induction h with
  | null => exact passesOver_of_run fun _ _ => run_null rfl
  | true => exact passesOver_of_run fun _ _ => run_true rfl
  | false => exact passesOver_of_run fun _ _ => run_false rfl
  | @number text hNumber =>
    intro skipping orEnd rest hRest
    cases text with
    | nil => exact absurd hNumber Numeral.not_isNumber_nil
    | cons b more =>
      obtain ⟨part, hBegin, hMore⟩ := Numeral.isNumber_cons.mp hNumber
      obtain ⟨hSpace, hEnd, hValue⟩ :=
        begin?_plain ⟨context, skipping, .after⟩ .payload hBegin
      rw [List.cons_append, run_of_step ((step_value_of_ne hSpace hEnd).trans hValue)]
      exact run_numeral hMore hRest
  | text hText =>
    obtain ⟨text', hFollow⟩ := Quoted.exists_follow_of_isText hText []
    exact passesOver_of_run fun _ _ => run_text hFollow
  | array hArray hItems ih =>
    refine passesOver_of_run fun skipping orEnd => ?_
    have hOpening : State.step ⟨context, skipping, .value .payload orEnd⟩ (octet '[') =
        .ok ((array context skipping (PassesOver context)).expect () true) :=
      step_value_of_ne (by decide) (by decide)
    exact Course.run_bracketed (takes_array context skipping) hOpening
      (Json.Bracketed.and_iff.mpr ⟨hArray, ih⟩) (chain_unit (fun _ _ _ => trivial) _)
  | object hObject hKeys hValues ih =>
    refine passesOver_of_run fun skipping orEnd => ?_
    have hOpening : State.step ⟨context, skipping, .value .payload orEnd⟩ (octet '\x7b') =
        .ok ((object context skipping fun field =>
          IsText field.1 ∧ PassesOver context field.2).expect () true) :=
      step_value_of_ne (by decide) (by decide)
    exact Course.run_bracketed (takes_object context skipping) hOpening
      (Json.Bracketed.and_iff.mpr ⟨hObject, fun field h => ⟨hKeys field h, ih field h⟩⟩)
      (chain_unit (fun _ _ _ => trivial) _)

end Payload

end ScriptBuild.Metadata
