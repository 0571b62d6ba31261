import ScriptBuild.Proofs.Metadata.Slot

/-!
# Reading values with two fields

Modules and types are read alike: fields of an object by their keys, in any order and with anything
under other keys, and fields of an array in order. What is asked of either is that it reads its own
fields.
-/

namespace ScriptBuild.Metadata

open Json (Space Spells WellFormed Member IsArray IsObject quoted)

set_option autoImplicit false

variable {X Y Z : Type} {bytes rest text : Bytes} {m : Metadata} {orEnd : Bool} {n : Nat}

/-- What the reader does with a value with two fields: the contexts around and within it, the slots
and the values of its fields, and what they make. -/
structure Record (X Y Z : Type) where
  outer : Context
  slot : Slot
  inner : Form → Option X → Option Y → Context
  first : String
  second : String
  firstSlot : Slot
  secondSlot : Slot
  IsFirst : X → Bytes → Prop
  IsSecond : Y → Bytes → Prop
  make : Option X → Option Y → Option Z
  after : Z → Context

namespace Record

variable {r : Record X Y Z} {x? : Option X} {y? : Option Y} {z : Z}

def close (r : Record X Y Z) (x? : Option X) (y? : Option Y) : Except Fault Context :=
  match r.make x? y? with
  | some z => .ok (r.after z)
  | none => .error .mismatched

structure Lawful (r : Record X Y Z) : Prop where
  outer_isOpen : r.outer.IsOpen
  inner_isOpen : ∀ form x? y?, (r.inner form x? y?).IsOpen
  first_ne_second : r.first ≠ r.second
  slot_ne_payload : r.slot ≠ .payload
  accept : ∀ scalar context, r.outer.accept r.slot scalar ≠ .ok context
  openArray : r.outer.openArray r.slot = .ok (r.inner .array none none, .value r.firstSlot true)
  openObject : r.outer.openObject r.slot = .ok (r.inner .object none none, .key true)
  slotOf : ∀ x? y? key, (r.inner .object x? y?).slotOf key =
    if key = r.first then if x?.isSome then .error .mismatched else .ok r.firstSlot
    else if key = r.second then if y?.isSome then .error .mismatched else .ok r.secondSlot
    else .ok .payload
  afterComma_object : ∀ x? y?, (r.inner .object x? y?).afterComma = .ok (.key false)
  afterComma_array : ∀ x? y?, (r.inner .array x? y?).afterComma =
    if y?.isNone then .ok (.value r.secondSlot false) else .error .malformed
  closeObject_object : ∀ x? y?, (r.inner .object x? y?).closeObject = r.close x? y?
  closeObject_array : ∀ x? y?, (r.inner .array x? y?).closeObject = .error .malformed
  closeArray_array : ∀ x? y?, (r.inner .array x? y?).closeArray = r.close x? y?
  closeArray_object : ∀ x? y?, (r.inner .object x? y?).closeArray = .error .malformed
  reads_first : ∀ form y?, Reads (r.inner form none y?) r.firstSlot r.IsFirst
    fun x => r.inner form (some x) y?
  reads_second : ∀ form x?, Reads (r.inner form x? none) r.secondSlot r.IsSecond
    fun y => r.inner form x? (some y)

def IsValue (r : Record X Y Z) (z : Z) (text : Bytes) : Prop :=
  ∃ first? second? x? y?, HasFields r.first r.second first? second? text ∧
    Option.Rel r.IsFirst x? first? ∧ Option.Rel r.IsSecond y? second? ∧ r.make x? y? = some z

/-! ## Objects -/

/-- What one member of an object adds to the fields that were read. -/
inductive Next (r : Record X Y Z) :
    Option X × Option Y → String × Bytes → Option X × Option Y → Prop
  | first {x : X} {y? : Option Y} {text : Bytes} (h : r.IsFirst x text) :
      Next r (none, y?) (r.first, text) (some x, y?)
  | second {x? : Option X} {y : Y} {text : Bytes} (h : r.IsSecond y text) :
      Next r (x?, none) (r.second, text) (x?, some y)
  | other {a : Option X × Option Y} {key : String} {text : Bytes} (hFirst : key ≠ r.first)
      (hSecond : key ≠ r.second) (h : WellFormed text) : Next r a (key, text) a

def object (r : Record X Y Z) : Course (Option X × Option Y) (String × Bytes) where
  expect := fun a orEnd => ⟨r.inner .object a.1 a.2, [], .key orEnd⟩
  done := fun a => ⟨r.inner .object a.1 a.2, [], .after⟩
  closing := octet '\x7d'
  closed := fun a => (r.close a.1 a.2).map fun context => ⟨context, [], .after⟩
  Writes := Member Spells
  Next := r.Next

theorem onCloseObject_eq {context : Context} :
    State.onCloseObject ⟨context, [], .after⟩ =
      context.closeObject.map fun context => ⟨context, [], .after⟩ := by
  unfold State.onCloseObject
  cases context.closeObject <;> rfl

theorem onCloseArray_eq {context : Context} :
    State.onCloseArray ⟨context, [], .after⟩ =
      context.closeArray.map fun context => ⟨context, [], .after⟩ := by
  unfold State.onCloseArray
  cases context.closeArray <;> rfl

theorem onComma_eq {context : Context} :
    State.onComma ⟨context, [], .after⟩ =
      context.afterComma.map fun mode => ⟨context, [], mode⟩ := by
  unfold State.onComma
  cases context.afterComma <;> rfl

theorem separated_object (h : r.Lawful) : r.object.Separated m := by
  intro _ _ a bytes _ hAccepts
  obtain ⟨w, rest, rfl, hSpace, hEnding⟩ := Accepts.ending (h.inner_isOpen _ _ _) hAccepts
  refine ⟨w, rest, rfl, hSpace, ?_⟩
  cases hEnding with
  | comma hComma hRest =>
    rw [onComma_eq, h.afterComma_object] at hComma
    obtain rfl := Except.ok.inj hComma
    exact Or.inr ⟨_, rfl, hRest⟩
  | array hArray =>
    rw [onCloseArray_eq, h.closeArray_object] at hArray
    simp [Except.map] at hArray
  | object hObject hRest =>
    rw [onCloseObject_eq, h.closeObject_object] at hObject
    exact Or.inl ⟨_, _, rfl, hObject, hRest⟩

theorem onKey_eq_ok_iff {context : Context} {slot : Slot} :
    State.onKey ⟨context, [], .after⟩ text = .ok ⟨context, [], .colon slot⟩ ↔
      ∃ key, Quoted.string? text = some key ∧ context.slotOf key = .ok slot := by
  unfold State.onKey
  simp only [List.isEmpty_nil, if_true]
  cases Quoted.string? text with
  | none => simp
  | some key =>
    simp

theorem exists_next_of_slot {key : String} {slot : Slot} (h : r.Lawful)
    (hSlot : (r.inner .object x? y?).slotOf key = .ok slot)
    (hAccepts : Accepts ⟨r.inner .object x? y?, [], .value slot false⟩ bytes m) :
    ∃ w text rest a', bytes = w ++ (text ++ rest) ∧ Space w ∧ r.Next (x?, y?) (key, text) a' ∧
      Accepts (r.object.done a') rest m := by
  rw [h.slotOf] at hSlot
  by_cases hFirst : key = r.first
  · rw [if_pos hFirst] at hSlot
    subst hFirst
    cases x? with
    | some x => simp at hSlot
    | none =>
      obtain rfl : r.firstSlot = slot := by simpa using hSlot
      obtain ⟨w, x, text, rest, hText, hSpace, hValue, hAfter⟩ :=
        (h.reads_first .object y?).exists_value hAccepts
      exact ⟨w, text, rest, (some x, y?), hText, hSpace, .first hValue, hAfter⟩
  rw [if_neg hFirst] at hSlot
  by_cases hSecond : key = r.second
  · rw [if_pos hSecond] at hSlot
    subst hSecond
    cases y? with
    | some y => simp at hSlot
    | none =>
      obtain rfl : r.secondSlot = slot := by simpa using hSlot
      obtain ⟨w, y, text, rest, hText, hSpace, hValue, hAfter⟩ :=
        (h.reads_second .object x?).exists_value hAccepts
      exact ⟨w, text, rest, (x?, some y), hText, hSpace, .second hValue, hAfter⟩
  rw [if_neg hSecond] at hSlot
  obtain rfl : .payload = slot := Except.ok.inj hSlot
  obtain ⟨w, text, rest, hText, hSpace, hValue, hAfter⟩ :=
    Payload.exists_value (h.inner_isOpen _ _ _) hAccepts
  exact ⟨w, text, rest, (x?, y?), hText, hSpace, .other hFirst hSecond hValue, hAfter⟩

theorem itemsBelow_object (h : r.Lawful) : r.object.ItemsBelow n m := by
  rintro ⟨x?, y?⟩ orEnd bytes - hAccepts
  obtain ⟨w, rest, rfl, hSpace, hKeyed⟩ := Accepts.keyed (h.inner_isOpen .object x? y?) hAccepts
  refine ⟨w, rest, rfl, hSpace, ?_⟩
  cases hKeyed with
  | close hEnd hClose hRest =>
    rw [onCloseObject_eq, h.closeObject_object] at hClose
    exact Or.inl ⟨hEnd, _, _, rfl, hClose, hRest⟩
  | @key raw text w' rest' slot hSpace' hRaw hKey hRest =>
    obtain ⟨key, hString, hSlot⟩ := onKey_eq_ok_iff.mp hKey
    have hSpells : Spells raw key := Quoted.spells_iff.mpr ⟨text, hRaw, hString⟩
    obtain ⟨w'', text', rest'', a', rfl, hSpace'', hNext, hAfter⟩ :=
      exists_next_of_slot h hSlot hRest
    exact Or.inr ⟨(key, text'), quoted raw ++ w' ++ octet ':' :: w'' ++ text', rest'', a', by simp,
      ⟨raw, w', w'', hSpells, hSpace', hSpace'', rfl⟩, hNext, hAfter⟩

theorem run_key {context : Context} {slot : Slot} {raw : Bytes} {key : String}
    (hSpells : Spells raw key) (hSlot : context.slotOf key = .ok slot) :
    State.run ⟨context, [], .key orEnd⟩ (quoted raw) = .ok ⟨context, [], .colon slot⟩ := by
  obtain ⟨text, hFollow, hString⟩ := Quoted.spells_iff.mp hSpells
  have hStep : State.step ⟨context, [], .key orEnd⟩ (octet '"') =
      .ok ⟨context, [], .quotedKey .plain []⟩ := by
    cases orEnd <;> rfl
  rw [quoted, List.cons_append, run_of_step hStep,
    run_string true .quotedKey (State.onKey ⟨context, [], .after⟩) (fun _ _ _ => rfl) hFollow]
  exact onKey_eq_ok_iff.mpr ⟨key, hString, hSlot⟩

theorem run_member {context context' : Context} {slot : Slot} {key : String} {value : Bytes}
    (hMember : Member Spells (key, value) text) (hSlot : context.slotOf key = .ok slot)
    (hValue : State.run ⟨context, [], .value slot false⟩ (value ++ rest) =
      State.run ⟨context', [], .after⟩ rest) :
    State.run ⟨context, [], .key orEnd⟩ (text ++ rest) = State.run ⟨context', [], .after⟩ rest := by
  obtain ⟨raw, w, w', hSpells, hSpace, hSpace', rfl⟩ := hMember
  have hColon : State.step ⟨context, [], .colon slot⟩ (octet ':') =
      .ok ⟨context, [], .value slot false⟩ := rfl
  simp only [List.append_assoc, List.cons_append]
  rw [run_of_run (run_key hSpells hSlot), run_of_run (run_space skips_colon hSpace),
    run_of_step hColon, run_of_run (run_space skips_value hSpace')]
  exact hValue

theorem takes_object (h : r.Lawful) : r.object.Takes where
  skips_expect := fun _ _ => skips_key
  skips_done := fun _ => skips_after
  run_item := by
    rintro ⟨x?, y?⟩ ⟨key, value⟩ a' orEnd text rest hMember hNext hRest
    cases hNext with
    | first hValue =>
      refine run_member hMember ?_ (run_of_run ((h.reads_first .object y?).run _ _ false hValue))
      rw [h.slotOf, if_pos rfl]
      rfl
    | second hValue =>
      refine run_member hMember ?_ (run_of_run ((h.reads_second .object x?).run _ _ false hValue))
      rw [h.slotOf, if_neg h.first_ne_second.symm, if_pos rfl]
      rfl
    | other hFirst hSecond hValue =>
      refine run_member hMember ?_ (Payload.passesOver_of_wellFormed hValue _ _ _ _ hRest)
      rw [h.slotOf, if_neg hFirst, if_neg hSecond]
  step_comma := by
    rintro _ _ ⟨x?, y?⟩ _ _ - -
    change State.onComma ⟨r.inner .object x? y?, [], .after⟩ = _
    rw [onComma_eq, h.afterComma_object]
    rfl
  isDelimiter_closing := Or.inr (Or.inr (Or.inr rfl))
  step_closing := by
    rintro ⟨x?, y?⟩
    change State.onCloseObject ⟨r.inner .object x? y?, [], .after⟩ = _
    rw [onCloseObject_eq, h.closeObject_object]
    rfl
  step_empty := by
    rintro ⟨x?, y?⟩
    change State.onCloseObject ⟨r.inner .object x? y?, [], .after⟩ = _
    rw [onCloseObject_eq, h.closeObject_object]
    rfl

/-- What a field that may have been read already can be after more members. -/
def Gains {V : Type} (IsField : V → Bytes → Prop) (fields : List (String × Bytes)) (key : String) :
    Option V → Option V → Prop
  | none, v? => ∃ text?, Holds fields key text? ∧ Option.Rel IsField v? text?
  | some v, v? => Holds fields key none ∧ v? = some v

section Gains

variable {V : Type} {IsField : V → Bytes → Prop} {fields : List (String × Bytes)}
  {key key' : String} {before after : Option V}

theorem gains_nil : Gains IsField [] key before after ↔ after = before := by
  cases before with
  | some v => simp [Gains, Holds]
  | none =>
    unfold Gains
    constructor
    · rintro ⟨text?, hHolds, hRel⟩
      cases hRel with
      | none => rfl
      | some => simp [Holds] at hHolds
    · rintro rfl
      exact ⟨none, rfl, .none⟩

theorem holds_cons_of_ne {text? : Option Bytes} (h : key' ≠ key) :
    Holds ((key', text) :: fields) key text? ↔ Holds fields key text? := by
  simp [Holds, h]

theorem gains_cons_of_ne (h : key' ≠ key) :
    Gains IsField ((key', text) :: fields) key before after ↔
      Gains IsField fields key before after := by
  cases before <;> simp [Gains, holds_cons_of_ne h]

theorem gains_cons : Gains IsField ((key, text) :: fields) key before after ↔
    ∃ v, before = none ∧ IsField v text ∧ Gains IsField fields key (some v) after := by
  cases before with
  | some v => simp [Gains, Holds]
  | none =>
    simp only [Gains, true_and]
    constructor
    · rintro ⟨text?, hHolds, hRel⟩
      cases hRel with
      | none => simp [Holds] at hHolds
      | @some v text' hField =>
        obtain ⟨rfl, hNone⟩ : text = text' ∧ Holds fields key none := by
          simpa [Holds] using hHolds
        exact ⟨v, hField, hNone, rfl⟩
    · rintro ⟨v, hField, hNone, rfl⟩
      exact ⟨some text, by simpa [Holds] using hNone, .some hField⟩

end Gains

/-- Each field is gained from the one member with its key. -/
theorem chain_next_iff (h : r.Lawful) {fields : List (String × Bytes)}
    {a a' : Option X × Option Y} :
    Chain r.Next a fields a' ↔
      Gains r.IsFirst fields r.first a.1 a'.1 ∧ Gains r.IsSecond fields r.second a.2 a'.2 ∧
        ∀ field ∈ fields, field.1 ≠ r.first → field.1 ≠ r.second → WellFormed field.2 := by
  induction fields generalizing a with
  | nil =>
    rw [gains_nil, gains_nil]
    constructor
    · intro hChain
      cases hChain
      simp
    · rintro ⟨hFirst, hSecond, -⟩
      obtain rfl : a' = a := Prod.ext hFirst hSecond
      exact .nil a'
  | cons field fields ih =>
    obtain ⟨key, text⟩ := field
    rw [chain_cons_iff]
    have hApart := h.first_ne_second
    constructor
    · rintro ⟨b, hNext, hRest⟩
      obtain ⟨hGainsFirst, hGainsSecond, hOthers⟩ := ih.mp hRest
      cases hNext with
      | first hValue =>
        refine ⟨gains_cons.mpr ⟨_, rfl, hValue, hGainsFirst⟩,
          (gains_cons_of_ne hApart).mpr hGainsSecond, ?_⟩
        exact List.forall_mem_cons.mpr ⟨fun hFirst => absurd rfl hFirst, hOthers⟩
      | second hValue =>
        refine ⟨(gains_cons_of_ne hApart.symm).mpr hGainsFirst,
          gains_cons.mpr ⟨_, rfl, hValue, hGainsSecond⟩, ?_⟩
        exact List.forall_mem_cons.mpr ⟨fun _ hSecond => absurd rfl hSecond, hOthers⟩
      | other hFirst hSecond hValue =>
        exact ⟨(gains_cons_of_ne hFirst).mpr hGainsFirst,
          (gains_cons_of_ne hSecond).mpr hGainsSecond,
          List.forall_mem_cons.mpr ⟨fun _ _ => hValue, hOthers⟩⟩
    · rintro ⟨hGainsFirst, hGainsSecond, hOthers⟩
      obtain ⟨hOther, hRest⟩ := List.forall_mem_cons.mp hOthers
      obtain ⟨x?, y?⟩ := a
      by_cases hFirst : key = r.first
      · subst hFirst
        obtain ⟨x, rfl, hValue, hGains⟩ := gains_cons.mp hGainsFirst
        exact ⟨(some x, y?), .first hValue,
          ih.mpr ⟨hGains, (gains_cons_of_ne hApart).mp hGainsSecond, hRest⟩⟩
      by_cases hSecond : key = r.second
      · subst hSecond
        obtain ⟨y, rfl, hValue, hGains⟩ := gains_cons.mp hGainsSecond
        exact ⟨(x?, some y), .second hValue,
          ih.mpr ⟨(gains_cons_of_ne hApart.symm).mp hGainsFirst, hGains, hRest⟩⟩
      · exact ⟨(x?, y?), .other hFirst hSecond (hOther hFirst hSecond),
          ih.mpr ⟨(gains_cons_of_ne hFirst).mp hGainsFirst,
            (gains_cons_of_ne hSecond).mp hGainsSecond, hRest⟩⟩

/-! ## Arrays -/

theorem exists_of_close {t : State}
    (h : (r.close x? y?).map (fun context => (⟨context, [], .after⟩ : State)) = .ok t) :
    ∃ z, r.make x? y? = some z ∧ t = ⟨r.after z, [], .after⟩ := by
  unfold close at h
  split at h
  · exact ⟨_, ‹_›, (Except.ok.inj h).symm⟩
  · simp [Except.map] at h

theorem close_of_make (h : r.make x? y? = some z) :
    (r.close x? y?).map (fun context => (⟨context, [], .after⟩ : State)) =
      .ok ⟨r.after z, [], .after⟩ := by
  rw [close, h]
  rfl

theorem Lawful.ending_array (h : r.Lawful)
    (hAccepts : Accepts ⟨r.inner .array x? y?, [], .after⟩ bytes m) :
    ∃ w rest, bytes = w ++ rest ∧ Space w ∧
      ((∃ rest' z, rest = octet ']' :: rest' ∧ r.make x? y? = some z ∧
          Accepts ⟨r.after z, [], .after⟩ rest' m) ∨
        y? = none ∧ ∃ rest', rest = octet ',' :: rest' ∧
          Accepts ⟨r.inner .array x? y?, [], .value r.secondSlot false⟩ rest' m) := by
  obtain ⟨w, rest, rfl, hSpace, hEnding⟩ := Accepts.ending (h.inner_isOpen _ _ _) hAccepts
  refine ⟨w, rest, rfl, hSpace, ?_⟩
  cases hEnding with
  | comma hComma hRest =>
    rw [onComma_eq, h.afterComma_array] at hComma
    cases y? with
    | some y => simp [Except.map] at hComma
    | none =>
      obtain rfl := Except.ok.inj hComma
      exact Or.inr ⟨rfl, _, rfl, hRest⟩
  | array hArray hRest =>
    rw [onCloseArray_eq, h.closeArray_array] at hArray
    obtain ⟨z, hMake, rfl⟩ := exists_of_close hArray
    exact Or.inl ⟨_, z, rfl, hMake, hRest⟩
  | object hObject =>
    rw [onCloseObject_eq, h.closeObject_array] at hObject
    simp [Except.map] at hObject

theorem Lawful.exists_array_of_accepts (h : r.Lawful)
    (hAccepts : Accepts ⟨r.inner .array none none, [], .value r.firstSlot true⟩ bytes m) :
    ∃ text rest z, octet '[' :: bytes = text ++ rest ∧ r.IsValue z text ∧
      Accepts ⟨r.after z, [], .after⟩ rest m := by
  obtain ⟨w, rest, rfl, hSpace, hCase⟩ :=
    (h.reads_first .array none).exists_of_accepts true bytes m hAccepts
  rcases hCase with ⟨-, rest', t, rfl, hClose, hRest⟩ | ⟨x, text, rest', rfl, hFirst, hAfter⟩
  · rw [onCloseArray_eq, h.closeArray_array] at hClose
    obtain ⟨z, hMake, rfl⟩ := exists_of_close hClose
    have hArray : IsArray Eq [] (octet '[' :: w ++ [octet ']']) :=
      ⟨w, rfl, Or.inl ⟨rfl, hSpace⟩⟩
    exact ⟨_, rest', z, by simp,
      ⟨_, _, none, none, .array hArray (by simp), .none, .none, hMake⟩, hRest⟩
  · obtain ⟨w', rest, rfl, hSpace', hCase⟩ := h.ending_array hAfter
    rcases hCase with ⟨rest', z, rfl, hMake, hRest⟩ | ⟨-, rest', rfl, hMore⟩
    · have hArray : IsArray Eq [text] (octet '[' :: (w ++ text ++ w') ++ [octet ']']) :=
        ⟨_, rfl, Or.inr (.last hSpace rfl hSpace')⟩
      exact ⟨_, rest', z, by simp,
        ⟨_, _, some x, none, .array hArray (by simp), .some hFirst, .none, hMake⟩, hRest⟩
    · obtain ⟨v, y, text', rest', rfl, hSpaceV, hSecond, hAfter⟩ :=
        (h.reads_second .array (some x)).exists_value hMore
      obtain ⟨v', rest, rfl, hSpaceV', hCase⟩ := h.ending_array hAfter
      rcases hCase with ⟨rest', z, rfl, hMake, hRest⟩ | ⟨hNone, -⟩
      · have hArray : IsArray Eq [text, text'] (octet '[' ::
            (w ++ text ++ w' ++ octet ',' :: (v ++ text' ++ v')) ++ [octet ']']) :=
          ⟨_, rfl, Or.inr (.comma hSpace rfl hSpace' (.last hSpaceV rfl hSpaceV'))⟩
        exact ⟨_, rest', z, by simp,
          ⟨_, _, some x, some y, .array hArray (by simp), .some hFirst, .some hSecond, hMake⟩,
          hRest⟩
      · simp at hNone

theorem Lawful.exists_object_of_accepts (h : r.Lawful)
    (hAccepts : Accepts ⟨r.inner .object none none, [], .key true⟩ bytes m) :
    ∃ text rest z, octet '\x7b' :: bytes = text ++ rest ∧ r.IsValue z text ∧
      Accepts ⟨r.after z, [], .after⟩ rest m := by
  obtain ⟨fields, text, rest, ⟨x?, y?⟩, t, hText, hObject, hChain, hClosed, hRest⟩ :=
    r.object.bracketed_of_accepts (itemsBelow_object h) (separated_object h)
      (Nat.lt_succ_self bytes.length) (a := (none, none)) hAccepts
  obtain ⟨z, hMake, rfl⟩ := exists_of_close hClosed
  obtain ⟨⟨first?, hHolds, hFirst⟩, ⟨second?, hHolds', hSecond⟩, hOthers⟩ :=
    (chain_next_iff h).mp hChain
  exact ⟨text, rest, z, hText,
    ⟨first?, second?, x?, y?, .object hObject hHolds hHolds' hOthers, hFirst, hSecond, hMake⟩,
    hRest⟩

theorem Lawful.step_openArray (h : r.Lawful) :
    State.step ⟨r.outer, [], .value r.slot orEnd⟩ (octet '[') =
      .ok ⟨r.inner .array none none, [], .value r.firstSlot true⟩ := by
  refine (step_value_of_ne (by decide) (by decide)).trans ?_
  change State.onOpenArray ⟨r.outer, [], .after⟩ r.slot = _
  unfold State.onOpenArray
  rw [if_neg h.slot_ne_payload, h.openArray]
  rfl

theorem Lawful.step_openObject (h : r.Lawful) :
    State.step ⟨r.outer, [], .value r.slot orEnd⟩ (octet '\x7b') =
      .ok (r.object.expect (none, none) true) := by
  refine (step_value_of_ne (by decide) (by decide)).trans ?_
  change State.onOpenObject ⟨r.outer, [], .after⟩ r.slot = _
  unfold State.onOpenObject
  rw [if_neg h.slot_ne_payload, h.openObject]
  rfl

theorem Lawful.step_closeArray (h : r.Lawful) (hMake : r.make x? y? = some z) :
    State.step ⟨r.inner .array x? y?, [], .after⟩ (octet ']') = .ok ⟨r.after z, [], .after⟩ := by
  change State.onCloseArray ⟨r.inner .array x? y?, [], .after⟩ = _
  rw [onCloseArray_eq, h.closeArray_array, close_of_make hMake]

theorem Lawful.step_comma_array (h : r.Lawful) :
    State.step ⟨r.inner .array x? none, [], .after⟩ (octet ',') =
      .ok ⟨r.inner .array x? none, [], .value r.secondSlot false⟩ := by
  change State.onComma ⟨r.inner .array x? none, [], .after⟩ = _
  rw [onComma_eq, h.afterComma_array]
  rfl

theorem Lawful.run_array (h : r.Lawful) {items : List Bytes} (hArray : IsArray Eq items text)
    (hLength : items.length ≤ 2) (hFirst : Option.Rel r.IsFirst x? items[0]?)
    (hSecond : Option.Rel r.IsSecond y? items[1]?) (hMake : r.make x? y? = some z) :
    State.run ⟨r.outer, [], .value r.slot orEnd⟩ text = .ok ⟨r.after z, [], .after⟩ := by
  obtain ⟨inner, rfl, hInner⟩ := hArray
  rw [List.cons_append, run_of_step h.step_openArray]
  rcases hInner with ⟨rfl, hSpace⟩ | hInner
  · cases hFirst
    cases hSecond
    have hClose : State.step ⟨r.inner .array none none, [], .value r.firstSlot true⟩ (octet ']') =
        .ok ⟨r.after z, [], .after⟩ := h.step_closeArray hMake
    rw [run_of_run (run_space skips_value hSpace), run_singleton, hClose]
  · cases hInner with
    | last hBefore hItem hAfter =>
      subst hItem
      cases hFirst with
      | some hFirst =>
        cases hSecond
        rw [List.append_assoc, List.append_assoc, run_of_run (run_space skips_value hBefore),
          run_of_run ((h.reads_first .array none).run _ _ true hFirst),
          run_of_run (run_space skips_after hAfter), run_singleton, h.step_closeArray hMake]
    | comma hBefore hItem hAfter hRest =>
      subst hItem
      cases hRest with
      | last hBefore' hItem' hAfter' =>
        subst hItem'
        cases hFirst with
        | @some x _ hFirst =>
          cases hSecond with
          | some hSecond =>
            simp only [List.append_assoc, List.cons_append]
            rw [run_of_run (run_space skips_value hBefore),
              run_of_run ((h.reads_first .array none).run _ _ true hFirst),
              run_of_run (run_space skips_after hAfter), run_of_step h.step_comma_array,
              run_of_run (run_space skips_value hBefore'),
              run_of_run ((h.reads_second .array (some x)).run _ _ false hSecond),
              run_of_run (run_space skips_after hAfter'), run_singleton, h.step_closeArray hMake]
      | comma hBefore' hItem' hAfter' hRest' =>
        cases hRest' <;> simp at hLength

theorem Lawful.run_object (h : r.Lawful) {fields : List (String × Bytes)}
    {first? second? : Option Bytes} (hObject : IsObject Spells fields text)
    (hHolds : Holds fields r.first first?) (hHolds' : Holds fields r.second second?)
    (hOthers : ∀ field ∈ fields, field.1 ≠ r.first → field.1 ≠ r.second → WellFormed field.2)
    (hFirst : Option.Rel r.IsFirst x? first?) (hSecond : Option.Rel r.IsSecond y? second?)
    (hMake : r.make x? y? = some z) :
    State.run ⟨r.outer, [], .value r.slot orEnd⟩ text = .ok ⟨r.after z, [], .after⟩ := by
  have hChain : Chain r.Next (none, none) fields (x?, y?) :=
    (chain_next_iff h).mpr ⟨⟨first?, hHolds, hFirst⟩, ⟨second?, hHolds', hSecond⟩, hOthers⟩
  rw [Course.run_bracketed (takes_object h) h.step_openObject hObject hChain]
  exact close_of_make hMake

/-- A value with two fields is read in either form, and nothing else is. -/
theorem Lawful.reads (h : r.Lawful) : Reads r.outer r.slot r.IsValue r.after where
  run := by
    rintro z text orEnd ⟨first?, second?, x?, y?, hFields, hFirst, hSecond, hMake⟩
    cases hFields with
    | object hObject hHolds hHolds' hOthers =>
      exact h.run_object hObject hHolds hHolds' hOthers hFirst hSecond hMake
    | array hArray hLength => exact h.run_array hArray hLength hFirst hSecond hMake
  exists_of_accepts := by
    intro orEnd bytes m hAccepts
    obtain ⟨w, rest, rfl, hSpace, hOpening⟩ := Accepts.opening h.outer_isOpen hAccepts
    refine ⟨w, rest, rfl, hSpace, ?_⟩
    cases hOpening with
    | close hEnd hClose hRest => exact Or.inl ⟨hEnd, _, _, rfl, hClose, hRest⟩
    | array hArray hRest =>
      unfold State.onOpenArray at hArray
      rw [if_neg h.slot_ne_payload, h.openArray] at hArray
      obtain rfl := Except.ok.inj hArray
      obtain ⟨text, rest', z, hText, hValue, hAfter⟩ := h.exists_array_of_accepts hRest
      exact Or.inr ⟨z, text, rest', hText, hValue, hAfter⟩
    | object hObject hRest =>
      unfold State.onOpenObject at hObject
      rw [if_neg h.slot_ne_payload, h.openObject] at hObject
      obtain rfl := Except.ok.inj hObject
      obtain ⟨text, rest', z, hText, hValue, hAfter⟩ := h.exists_object_of_accepts hRest
      exact Or.inr ⟨z, text, rest', hText, hValue, hAfter⟩
    | text hRaw hText hRest =>
      obtain ⟨s, context, -, hAccept, -⟩ := (onText_eq_ok_iff h.slot_ne_payload).mp hText
      exact absurd hAccept (h.accept _ _)
    | scalar hScalar hAccept hRest => exact absurd hAccept (h.accept _ _)

end Record

end ScriptBuild.Metadata
