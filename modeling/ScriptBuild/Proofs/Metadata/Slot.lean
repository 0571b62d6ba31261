import ScriptBuild.Proofs.Metadata.Image
import ScriptBuild.Proofs.Metadata.Payload

/-!
# Reading what is kept

Of a module image, the values in a few slots are kept. A slot for a string takes a string and
nothing else, or null as well; and from an image that is accepted, the value in it can be read off.
-/

namespace ScriptBuild.Metadata

open Json (Space)

set_option autoImplicit false

variable {β : Type} {bytes rest text : Bytes} {m : Metadata} {context : Context} {slot : Slot}
  {orEnd : Bool}

/-- The values that are read in a slot, and what they make of the context. -/
structure Reads (context : Context) (slot : Slot) (IsValue : β → Bytes → Prop)
    (after : β → Context) : Prop where
  run : ∀ x text orEnd, IsValue x text →
    State.run ⟨context, [], .value slot orEnd⟩ text = .ok ⟨after x, [], .after⟩
  exists_of_accepts : ∀ orEnd bytes m, Accepts ⟨context, [], .value slot orEnd⟩ bytes m →
    ∃ w rest, bytes = w ++ rest ∧ Space w ∧
      (orEnd = true ∧ EndsArray ⟨context, [], .after⟩ m rest ∨
        ∃ x text rest', rest = text ++ rest' ∧ IsValue x text ∧
          Accepts ⟨after x, [], .after⟩ rest' m)

theorem Reads.exists_value {IsValue : β → Bytes → Prop} {after : β → Context}
    (h : Reads context slot IsValue after)
    (hAccepts : Accepts ⟨context, [], .value slot false⟩ bytes m) :
    ∃ w x text rest, bytes = w ++ (text ++ rest) ∧ Space w ∧ IsValue x text ∧
      Accepts ⟨after x, [], .after⟩ rest m := by
  obtain ⟨w, rest, rfl, hSpace, hCase⟩ := h.exists_of_accepts false bytes m hAccepts
  rcases hCase with ⟨hEnd, -⟩ | ⟨x, text, rest', rfl, hValue, hAfter⟩
  · simp at hEnd
  · exact ⟨w, x, text, rest', rfl, hSpace, hValue, hAfter⟩

/-! ## Strings -/

structure IsPlain (context : Context) (slot : Slot) : Prop where
  isOpen : context.IsOpen
  ne_payload : slot ≠ .payload
  openArray : context.openArray slot = .error .mismatched
  openObject : context.openObject slot = .error .mismatched
  boolean : context.accept slot .boolean = .error .mismatched
  number : ∀ tooLarge context', context.accept slot (.number tooLarge) ≠ .ok context'

theorem onText_eq_ok_iff {s t : State} (hSlot : slot ≠ .payload) : s.onText slot text = .ok t ↔
    ∃ string context, Quoted.string? text = some string ∧
      s.context.accept slot (.text string) = .ok context ∧ ⟨context, s.skipping, .after⟩ = t := by
  unfold State.onText
  rw [if_neg hSlot]
  cases hString : Quoted.string? text with
  | none => simp
  | some string => simp [onScalar_eq_ok_iff]

theorem IsPlain.exists_of_accepts (h : IsPlain context slot)
    (hAccepts : Accepts ⟨context, [], .value slot orEnd⟩ bytes m) :
    ∃ w rest, bytes = w ++ rest ∧ Space w ∧
      (orEnd = true ∧ EndsArray ⟨context, [], .after⟩ m rest ∨
        ∃ scalar text rest' context', rest = text ++ rest' ∧
          (scalar = .null ∧ text = Text.utf8 "null" ∨ ∃ s, scalar = .text s ∧ IsString s text) ∧
          context.accept slot scalar = .ok context' ∧
          Accepts ⟨context', [], .after⟩ rest' m) := by
  obtain ⟨w, rest, rfl, hSpace, hOpening⟩ := Accepts.opening h.isOpen hAccepts
  refine ⟨w, rest, rfl, hSpace, ?_⟩
  cases hOpening with
  | close hEnd hClose hRest => exact Or.inl ⟨hEnd, _, _, rfl, hClose, hRest⟩
  | array hArray =>
    simp [State.onOpenArray, h.ne_payload, h.openArray] at hArray
  | object hObject =>
    simp [State.onOpenObject, h.ne_payload, h.openObject] at hObject
  | @text raw text rest t hRaw hText hRest =>
    obtain ⟨s, context', hString, hAccept, rfl⟩ := (onText_eq_ok_iff h.ne_payload).mp hText
    have hKept : (slot != .payload) = true := by simpa using h.ne_payload
    rw [hKept] at hRaw
    exact Or.inr ⟨.text s, _, rest, context', rfl,
      Or.inr ⟨s, rfl, raw, rfl, Quoted.spells_iff.mpr ⟨text, hRaw, hString⟩⟩, hAccept, hRest⟩
  | @scalar scalar text rest context' hScalar hAccept hRest =>
    cases hScalar with
    | null => exact Or.inr ⟨.null, _, rest, context', rfl, Or.inl ⟨rfl, rfl⟩, hAccept, hRest⟩
    | true =>
      rw [h.boolean] at hAccept
      simp at hAccept
    | false =>
      rw [h.boolean] at hAccept
      simp at hAccept
    | number hNumber => exact absurd hAccept (h.number _ _)

theorem IsPlain.run_string {s : String} {context' : Context} (h : IsPlain context slot)
    (hAccept : context.accept slot (.text s) = .ok context') (hText : IsString s text)
    (orEnd : Bool) :
    State.run ⟨context, [], .value slot orEnd⟩ text = .ok ⟨context', [], .after⟩ := by
  obtain ⟨raw, rfl, hSpells⟩ := hText
  obtain ⟨text, hFollow, hString⟩ := Quoted.spells_iff.mp hSpells
  have hKept : (slot != .payload) = true := by simpa using h.ne_payload
  rw [run_text (by rw [hKept]; exact hFollow)]
  exact (onText_eq_ok_iff h.ne_payload).mpr ⟨s, context', hString, hAccept, rfl⟩

theorem IsPlain.reads_string {after : String → Context} (h : IsPlain context slot)
    (hNull : context.accept slot .null = .error .mismatched)
    (hText : ∀ s, context.accept slot (.text s) = .ok (after s)) :
    Reads context slot IsString after where
  run s text orEnd hString := h.run_string (hText s) hString orEnd
  exists_of_accepts := by
    intro orEnd bytes m hAccepts
    obtain ⟨w, rest, rfl, hSpace, hCase⟩ := h.exists_of_accepts hAccepts
    refine ⟨w, rest, rfl, hSpace, ?_⟩
    rcases hCase with hEnd | ⟨scalar, text, rest', context', rfl, hScalar, hAccept, hRest⟩
    · exact Or.inl hEnd
    · rcases hScalar with ⟨rfl, -⟩ | ⟨s, rfl, hString⟩
      · rw [hNull] at hAccept
        simp at hAccept
      · rw [hText] at hAccept
        obtain rfl := Except.ok.inj hAccept
        exact Or.inr ⟨s, text, rest', rfl, hString, hRest⟩

theorem IsPlain.reads_nullable {after : Option String → Context} (h : IsPlain context slot)
    (hNull : context.accept slot .null = .ok (after none))
    (hText : ∀ s, context.accept slot (.text s) = .ok (after (some s))) :
    Reads context slot IsNullable after where
  run := by
    intro s? text orEnd hNullable
    cases hNullable with
    | null => exact run_null hNull
    | string hString => exact h.run_string (hText _) hString orEnd
  exists_of_accepts := by
    intro orEnd bytes m hAccepts
    obtain ⟨w, rest, rfl, hSpace, hCase⟩ := h.exists_of_accepts hAccepts
    refine ⟨w, rest, rfl, hSpace, ?_⟩
    rcases hCase with hEnd | ⟨scalar, text, rest', context', rfl, hScalar, hAccept, hRest⟩
    · exact Or.inl hEnd
    · rcases hScalar with ⟨rfl, rfl⟩ | ⟨s, rfl, hString⟩
      · rw [hNull] at hAccept
        obtain rfl := Except.ok.inj hAccept
        exact Or.inr ⟨none, _, rest', rfl, .null, hRest⟩
      · rw [hText] at hAccept
        obtain rfl := Except.ok.inj hAccept
        exact Or.inr ⟨some s, text, rest', rfl, .string hString, hRest⟩

end ScriptBuild.Metadata
