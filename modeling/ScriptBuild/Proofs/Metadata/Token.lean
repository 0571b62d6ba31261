import ScriptBuild.Proofs.Metadata.Numeral
import ScriptBuild.Proofs.Metadata.Quoted
import ScriptBuild.Proofs.Result

/-!
# What the reader takes in at a time

Before the image is complete, reading goes on with white space and then with one token: a bracket, a
comma, a string, a key with its colon, a literal or a numeral. Whatever is accepted in the end has
such a token at its start.
-/

namespace ScriptBuild.Metadata

open Json (Space IsNumber quoted)

set_option autoImplicit false

variable {s t : State} {b : UInt8} {w bytes rest text : Bytes} {m : Metadata} {context : Context}
  {skipping : List Form} {slot : Slot} {orEnd : Bool} {scalar : Scalar} {part : Numeral.Part}
  {position : Quoted.Position}

/-- Reading on from a state to the end of an image gives metadata. -/
def Accepts (s : State) (bytes : Bytes) (m : Metadata) : Prop :=
  (s.run bytes).bind State.finish = .ok m

theorem finish_eq_ok_iff : s.finish = .ok m ↔ s.context = .finished m := by
  unfold State.finish
  split <;> simp_all

theorem accepts_nil : Accepts s [] m ↔ s.context = .finished m := finish_eq_ok_iff

theorem accepts_append (h : s.run w = .ok t) : Accepts s (w ++ rest) m ↔ Accepts t rest m := by
  rw [Accepts, State.run_append, h]
  rfl

theorem accepts_cons : Accepts s (b :: rest) m ↔ ∃ t, s.step b = .ok t ∧ Accepts t rest m := by
  unfold Accepts
  rw [State.run_cons]
  cases s.step b <;> simp [Except.bind]

def Context.IsOpen (context : Context) : Prop := ∀ m, context ≠ .finished m

theorem Accepts.exists_cons (hOpen : s.context.IsOpen) (h : Accepts s bytes m) :
    ∃ b rest t, bytes = b :: rest ∧ s.step b = .ok t ∧ Accepts t rest m := by
  cases bytes with
  | nil => exact absurd (accepts_nil.mp h) (hOpen m)
  | cons b rest =>
    obtain ⟨t, hStep, hRest⟩ := accepts_cons.mp h
    exact ⟨b, rest, t, rfl, hStep, hRest⟩

/-- White space makes no difference. -/
def Skips (s : State) : Prop := ∀ b, isSpace b = true → s.step b = .ok s

theorem skips_value : Skips ⟨context, skipping, .value slot orEnd⟩ := by
  intro b hSpace
  exact if_pos hSpace

theorem skips_key : Skips ⟨context, skipping, .key orEnd⟩ := by
  intro b hSpace
  exact if_pos hSpace

theorem skips_colon : Skips ⟨context, skipping, .colon slot⟩ := by
  intro b hSpace
  exact if_pos hSpace

theorem skips_after : Skips ⟨context, skipping, .after⟩ := by
  intro b hSpace
  exact if_pos hSpace

theorem run_space (hSkips : Skips s) (hSpace : Space w) : s.run w = .ok s := by
  induction w with
  | nil => rfl
  | cons b w ih =>
    rw [State.run_cons, hSkips b (hSpace b List.mem_cons_self)]
    exact ih fun b' hb' => hSpace b' (List.mem_cons_of_mem b hb')

theorem space_nil : Space [] := by simp [Space]

theorem space_cons : Space (b :: w) ↔ isSpace b = true ∧ Space w := by simp [Space]

theorem Accepts.exists_token (hSkips : Skips s) (hOpen : s.context.IsOpen)
    (h : Accepts s bytes m) :
    ∃ w b rest t, bytes = w ++ b :: rest ∧ Space w ∧ isSpace b = false ∧ s.step b = .ok t ∧
      Accepts t rest m := by
  induction bytes with
  | nil => exact absurd (accepts_nil.mp h) (hOpen m)
  | cons b rest ih =>
    obtain ⟨t, hStep, hRest⟩ := accepts_cons.mp h
    by_cases hb : isSpace b = true
    · rw [hSkips b hb] at hStep
      obtain rfl := Except.ok.inj hStep
      obtain ⟨w, b', rest', t', rfl, hSpace, hToken⟩ := ih hRest
      exact ⟨b :: w, b', rest', t', rfl, space_cons.mpr ⟨hb, hSpace⟩, hToken⟩
    · exact ⟨[], b, rest, t, rfl, space_nil, by simpa using hb, hStep, hRest⟩

/-! ## Scalars -/

inductive IsScalar : Scalar → Bytes → Prop
  | null : IsScalar .null (Text.utf8 "null")
  | true : IsScalar .boolean (Text.utf8 "true")
  | false : IsScalar .boolean (Text.utf8 "false")
  | number {text : Bytes} (h : IsNumber text) : IsScalar (.number (Numeral.isTooLarge text)) text

theorem onScalar_eq_ok_iff : s.onScalar slot scalar = .ok t ↔
    ∃ context, s.context.accept slot scalar = .ok context ∧ ⟨context, s.skipping, .after⟩ = t := by
  simp [State.onScalar]

theorem Accepts.literal {next : UInt8} {more : Bytes} (hOpen : context.IsOpen)
    (h : Accepts ⟨context, skipping, .literal slot scalar next more⟩ bytes m) :
    ∃ rest context', bytes = next :: more ++ rest ∧ context.accept slot scalar = .ok context' ∧
      Accepts ⟨context', skipping, .after⟩ rest m := by
  induction more generalizing next bytes with
  | nil =>
    obtain ⟨b, rest, t, rfl, hStep, hRest⟩ := h.exists_cons hOpen
    change (if b = next then State.onScalar _ slot scalar else _) = _ at hStep
    split at hStep
    · rename_i hNext
      obtain ⟨context', hAccept, rfl⟩ := onScalar_eq_ok_iff.mp hStep
      exact ⟨rest, context', by rw [hNext]; rfl, hAccept, hRest⟩
    · simp at hStep
  | cons c more ih =>
    obtain ⟨b, rest, t, rfl, hStep, hRest⟩ := h.exists_cons hOpen
    change (if b = next then Except.ok _ else _) = _ at hStep
    split at hStep
    · rename_i hNext
      obtain rfl := Except.ok.inj hStep
      obtain ⟨rest', context', rfl, hAccept, hRest'⟩ := ih hRest
      exact ⟨rest', context', by rw [hNext]; rfl, hAccept, hRest'⟩
    · simp at hStep

theorem onNumeral_eq_ok_iff : s.onNumeral slot text = .ok t ↔
    ∃ context, s.context.accept slot (.number (Numeral.isTooLarge text.reverse)) = .ok context ∧
      ⟨context, s.skipping, .after⟩ = t := by
  unfold State.onNumeral
  split
  · rename_i hSlot
    subst hSlot
    simp [Context.accept]
  · exact onScalar_eq_ok_iff

theorem Accepts.numeral (hOpen : context.IsOpen)
    (h : Accepts ⟨context, skipping, .numeral slot part text⟩ bytes m) :
    ∃ more rest context', bytes = more ++ rest ∧ Numeral.Completes part more ∧
      context.accept slot (.number (Numeral.isTooLarge (text.reverse ++ more))) = .ok context' ∧
      Accepts ⟨context', skipping, .after⟩ rest m := by
  induction bytes generalizing part text with
  | nil => exact absurd (accepts_nil.mp h) (hOpen m)
  | cons b rest ih =>
    obtain ⟨t, hStep, hRest⟩ := accepts_cons.mp h
    unfold State.step at hStep
    cases hNumeral : Numeral.step part b with
    | more next =>
      simp only [hNumeral] at hStep
      obtain rfl := Except.ok.inj hStep
      obtain ⟨more, rest', context', rfl, hMore, hAccept, hRest'⟩ := ih hRest
      refine ⟨b :: more, rest', context', rfl, ?_, by simpa using hAccept, hRest'⟩
      exact Numeral.completes_cons.mpr ⟨next, hNumeral, hMore⟩
    | ended =>
      simp only [hNumeral] at hStep
      obtain ⟨ended, hEnd, hStep⟩ := bind_eq_ok_iff.mp hStep
      obtain ⟨context', hAccept, rfl⟩ := onNumeral_eq_ok_iff.mp hEnd
      refine ⟨[], b :: rest, context', rfl, ?_, by simpa using hAccept, ?_⟩
      · exact Numeral.completes_nil.mpr (Numeral.isComplete_of_ended hNumeral)
      · exact accepts_cons.mpr ⟨t, hStep, hRest⟩
    | refused => simp [hNumeral] at hStep

theorem Accepts.string (kept : Bool) (mode : Quoted.Position → Bytes → Mode)
    (close : Bytes → Except Fault State) (hOpen : context.IsOpen)
    (hString : ∀ position text b, State.step ⟨context, skipping, mode position text⟩ b =
      match Quoted.step kept text position b with
      | .more next text' => .ok ⟨context, skipping, mode next text'⟩
      | .closed text' => close text'
      | .refused => .error .malformed)
    (h : Accepts ⟨context, skipping, mode position text⟩ bytes m) :
    ∃ raw text' rest t, bytes = raw ++ octet '"' :: rest ∧
      Quoted.follow kept position text raw = some (.plain, text') ∧ close text' = .ok t ∧
      Accepts t rest m := by
  induction bytes generalizing position text with
  | nil => exact absurd (accepts_nil.mp h) (hOpen m)
  | cons b rest ih =>
    obtain ⟨t, hStep, hRest⟩ := accepts_cons.mp h
    rw [hString] at hStep
    cases hQuoted : Quoted.step kept text position b with
    | more next text' =>
      simp only [hQuoted] at hStep
      obtain rfl := Except.ok.inj hStep
      obtain ⟨raw, text'', rest', t', rfl, hFollow, hClose, hRest'⟩ := ih hRest
      refine ⟨b :: raw, text'', rest', t', rfl, ?_, hClose, hRest'⟩
      rw [Quoted.follow_cons_of_more hQuoted, hFollow]
    | closed text' =>
      obtain ⟨rfl, rfl, rfl⟩ := Quoted.step_eq_closed_iff.mp hQuoted
      simp only [hQuoted] at hStep
      exact ⟨[], text', rest, t, rfl, rfl, hStep, hRest⟩
    | refused => simp [hQuoted] at hStep

/-! ## Values -/

theorem quoted_append (raw rest : Bytes) :
    quoted raw ++ rest = octet '"' :: (raw ++ octet '"' :: rest) := by
  simp [quoted]

/-- What an image goes on with where a value is expected. -/
inductive Opening (s : State) (slot : Slot) (orEnd : Bool) (m : Metadata) : Bytes → Prop
  | close {t : State} {rest : Bytes} (hEnd : orEnd = true) (hClose : s.onCloseArray = .ok t)
      (hRest : Accepts t rest m) : Opening s slot orEnd m (octet ']' :: rest)
  | array {t : State} {rest : Bytes} (hArray : s.onOpenArray slot = .ok t)
      (hRest : Accepts t rest m) : Opening s slot orEnd m (octet '[' :: rest)
  | object {t : State} {rest : Bytes} (hObject : s.onOpenObject slot = .ok t)
      (hRest : Accepts t rest m) : Opening s slot orEnd m (octet '\x7b' :: rest)
  | text {raw text rest : Bytes} {t : State}
      (hRaw : Quoted.follow (slot != .payload) .plain [] raw = some (.plain, text))
      (hText : s.onText slot text = .ok t) (hRest : Accepts t rest m) :
      Opening s slot orEnd m (quoted raw ++ rest)
  | scalar {scalar : Scalar} {text rest : Bytes} {context : Context}
      (hScalar : IsScalar scalar text) (hAccept : s.context.accept slot scalar = .ok context)
      (hRest : Accepts ⟨context, s.skipping, .after⟩ rest m) :
      Opening s slot orEnd m (text ++ rest)

theorem step_value (hb : isSpace b = false) : State.step ⟨context, skipping, .value slot orEnd⟩ b =
    if orEnd && b = octet ']' then State.onCloseArray ⟨context, skipping, .after⟩
    else State.onValue ⟨context, skipping, .after⟩ slot b := by
  unfold State.step
  rw [hb]
  rfl

/-- The first octet of a value tells what it is. -/
theorem onValue_cases (h : s.onValue slot b = .ok t) :
    b = octet '[' ∧ s.onOpenArray slot = .ok t ∨
    b = octet '\x7b' ∧ s.onOpenObject slot = .ok t ∨
    b = octet '"' ∧ t = { s with mode := .quoted slot .plain [] } ∨
    (∃ scalar next more, IsScalar scalar (b :: next :: more) ∧
      t = { s with mode := .literal slot scalar next more }) ∨
    ∃ part, Numeral.begin? b = some part ∧ t = { s with mode := .numeral slot part [b] } := by
  unfold State.onValue at h
  by_cases hArray : b = octet '['
  · rw [if_pos hArray] at h
    exact Or.inl ⟨hArray, h⟩
  rw [if_neg hArray] at h
  by_cases hObject : b = octet '\x7b'
  · rw [if_pos hObject] at h
    exact Or.inr (Or.inl ⟨hObject, h⟩)
  rw [if_neg hObject] at h
  by_cases hQuote : b = octet '"'
  · rw [if_pos hQuote] at h
    exact Or.inr (Or.inr (Or.inl ⟨hQuote, (Except.ok.inj h).symm⟩))
  rw [if_neg hQuote] at h
  refine Or.inr (Or.inr (Or.inr ?_))
  split at h
  · rename_i hNull
    subst hNull
    exact Or.inl ⟨.null, _, _, .null, (Except.ok.inj h).symm⟩
  split at h
  · rename_i hTrue
    subst hTrue
    exact Or.inl ⟨.boolean, _, _, .true, (Except.ok.inj h).symm⟩
  split at h
  · rename_i hFalse
    subst hFalse
    exact Or.inl ⟨.boolean, _, _, .false, (Except.ok.inj h).symm⟩
  split at h
  · rename_i part hBegin
    exact Or.inr ⟨part, hBegin, (Except.ok.inj h).symm⟩
  · simp at h

theorem Accepts.opening (hOpen : context.IsOpen)
    (h : Accepts ⟨context, skipping, .value slot orEnd⟩ bytes m) :
    ∃ w rest, bytes = w ++ rest ∧ Space w ∧
      Opening ⟨context, skipping, .after⟩ slot orEnd m rest := by
  obtain ⟨w, b, rest, t, rfl, hSpace, hb, hStep, hRest⟩ := h.exists_token skips_value hOpen
  refine ⟨w, b :: rest, rfl, hSpace, ?_⟩
  rw [step_value hb] at hStep
  by_cases hEnd : (orEnd && decide (b = octet ']')) = true
  · rw [if_pos hEnd] at hStep
    obtain ⟨hOrEnd, rfl⟩ : orEnd = true ∧ b = octet ']' := by simpa using hEnd
    exact .close hOrEnd hStep hRest
  rw [if_neg hEnd] at hStep
  rcases onValue_cases hStep with ⟨rfl, hArray⟩ | ⟨rfl, hObject⟩ | ⟨rfl, rfl⟩ |
    ⟨scalar, next, more, hScalar, rfl⟩ | ⟨part, hBegin, rfl⟩
  · exact .array hArray hRest
  · exact .object hObject hRest
  · obtain ⟨raw, text, rest', t, rfl, hFollow, hText, hRest'⟩ :=
      hRest.string (slot != .payload) (.quoted slot)
        (State.onText ⟨context, skipping, .after⟩ slot) hOpen fun _ _ _ => rfl
    rw [← quoted_append]
    exact .text hFollow hText hRest'
  · obtain ⟨rest', context', rfl, hAccept, hRest'⟩ := hRest.literal hOpen
    exact .scalar hScalar hAccept hRest'
  · obtain ⟨more, rest', context', rfl, hMore, hAccept, hRest'⟩ := hRest.numeral hOpen
    exact .scalar (.number (Numeral.isNumber_cons.mpr ⟨part, hBegin, hMore⟩)) hAccept hRest'

/-! ## Around values -/

def EndsArray (s : State) (m : Metadata) (rest : Bytes) : Prop :=
  ∃ rest' t, rest = octet ']' :: rest' ∧ s.onCloseArray = .ok t ∧ Accepts t rest' m

/-- What an image goes on with after a value. -/
inductive Ending (s : State) (m : Metadata) : Bytes → Prop
  | comma {t : State} {rest : Bytes} (hComma : s.onComma = .ok t) (hRest : Accepts t rest m) :
      Ending s m (octet ',' :: rest)
  | array {t : State} {rest : Bytes} (hArray : s.onCloseArray = .ok t) (hRest : Accepts t rest m) :
      Ending s m (octet ']' :: rest)
  | object {t : State} {rest : Bytes} (hObject : s.onCloseObject = .ok t)
      (hRest : Accepts t rest m) : Ending s m (octet '\x7d' :: rest)

theorem Accepts.ending (hOpen : context.IsOpen) (h : Accepts ⟨context, skipping, .after⟩ bytes m) :
    ∃ w rest, bytes = w ++ rest ∧ Space w ∧ Ending ⟨context, skipping, .after⟩ m rest := by
  obtain ⟨w, b, rest, t, rfl, hSpace, hb, hStep, hRest⟩ := h.exists_token skips_after hOpen
  refine ⟨w, b :: rest, rfl, hSpace, ?_⟩
  change State.onAfter ⟨context, skipping, .after⟩ b = _ at hStep
  unfold State.onAfter at hStep
  rw [if_neg (by simp [hb])] at hStep
  split at hStep
  · rename_i hComma
    subst hComma
    exact .comma hStep hRest
  split at hStep
  · rename_i hArray
    subst hArray
    exact .array hStep hRest
  split at hStep
  · rename_i hObject
    subst hObject
    exact .object hStep hRest
  · simp at hStep

theorem Accepts.colon (hOpen : context.IsOpen)
    (h : Accepts ⟨context, skipping, .colon slot⟩ bytes m) :
    ∃ w rest, bytes = w ++ octet ':' :: rest ∧ Space w ∧
      Accepts ⟨context, skipping, .value slot false⟩ rest m := by
  obtain ⟨w, b, rest, t, rfl, hSpace, hb, hStep, hRest⟩ := h.exists_token skips_colon hOpen
  change (if isSpace b then _ else if b = octet ':' then Except.ok _ else _) = _ at hStep
  rw [if_neg (by simp [hb])] at hStep
  split at hStep
  · rename_i hColon
    obtain rfl := Except.ok.inj hStep
    exact ⟨w, rest, by rw [hColon], hSpace, hRest⟩
  · simp at hStep

/-- What an image goes on with where a key is expected: the end of the object, or a key with its
colon, by which the slot of the value is known. -/
inductive Keyed (context : Context) (skipping : List Form) (orEnd : Bool) (m : Metadata) :
    Bytes → Prop
  | close {t : State} {rest : Bytes} (hEnd : orEnd = true)
      (hClose : State.onCloseObject ⟨context, skipping, .after⟩ = .ok t)
      (hRest : Accepts t rest m) : Keyed context skipping orEnd m (octet '\x7d' :: rest)
  | key {raw text w rest : Bytes} {slot : Slot} (hSpace : Space w)
      (hRaw : Quoted.follow skipping.isEmpty .plain [] raw = some (.plain, text))
      (hKey : State.onKey ⟨context, skipping, .after⟩ text = .ok ⟨context, skipping, .colon slot⟩)
      (hRest : Accepts ⟨context, skipping, .value slot false⟩ rest m) :
      Keyed context skipping orEnd m (quoted raw ++ (w ++ octet ':' :: rest))

theorem exists_slot_of_onKey (h : s.onKey text = .ok t) :
    ∃ slot, t = { s with mode := .colon slot } := by
  unfold State.onKey at h
  split at h
  · split at h
    · rename_i key hString
      obtain ⟨slot, -, h⟩ := bind_eq_ok_iff.mp h
      exact ⟨slot, (pure_eq_ok_iff.mp h).symm⟩
    · simp at h
  · exact ⟨.payload, (Except.ok.inj h).symm⟩

theorem Accepts.keyed (hOpen : context.IsOpen)
    (h : Accepts ⟨context, skipping, .key orEnd⟩ bytes m) :
    ∃ w rest, bytes = w ++ rest ∧ Space w ∧ Keyed context skipping orEnd m rest := by
  obtain ⟨w, b, rest, t, rfl, hSpace, hb, hStep, hRest⟩ := h.exists_token skips_key hOpen
  refine ⟨w, b :: rest, rfl, hSpace, ?_⟩
  unfold State.step at hStep
  simp only [hb, Bool.false_eq_true, if_false] at hStep
  by_cases hEnd : (orEnd && decide (b = octet '\x7d')) = true
  · rw [if_pos hEnd] at hStep
    obtain ⟨hOrEnd, rfl⟩ : orEnd = true ∧ b = octet '\x7d' := by simpa using hEnd
    exact .close hOrEnd hStep hRest
  rw [if_neg hEnd] at hStep
  split at hStep
  · rename_i hQuote
    subst hQuote
    obtain rfl := Except.ok.inj hStep
    obtain ⟨raw, text, rest', t, rfl, hFollow, hKey, hRest'⟩ :=
      hRest.string skipping.isEmpty .quotedKey (State.onKey ⟨context, skipping, .after⟩) hOpen
        fun _ _ _ => rfl
    obtain ⟨slot, rfl⟩ := exists_slot_of_onKey hKey
    obtain ⟨w', rest'', rfl, hSpace', hRest''⟩ := Accepts.colon hOpen hRest'
    rw [← quoted_append]
    exact .key hSpace' hFollow hKey hRest''
  · simp at hStep

/-! ## Taking tokens in -/

def IsDelimiter (b : UInt8) : Prop :=
  isSpace b = true ∨ b = octet ',' ∨ b = octet ']' ∨ b = octet '\x7d'

def Delimited (rest : Bytes) : Prop := ∃ b more, rest = b :: more ∧ IsDelimiter b

theorem Delimited.append (hSpace : Space w) (hRest : Delimited rest) : Delimited (w ++ rest) := by
  cases w with
  | nil => exact hRest
  | cons b w => exact ⟨b, w ++ rest, rfl, Or.inl (space_cons.mp hSpace).1⟩

theorem run_of_run (h : s.run w = .ok t) : s.run (w ++ rest) = t.run rest := by
  rw [State.run_append, h]
  rfl

theorem run_of_step (h : s.step b = .ok t) : s.run (b :: rest) = t.run rest := by
  rw [State.run_cons, h]
  rfl

theorem run_singleton : s.run [b] = s.step b := by
  rw [State.run_cons]
  cases s.step b <;> rfl

theorem run_literal {context' : Context} {next : UInt8} {more : Bytes}
    (hAccept : context.accept slot scalar = .ok context') :
    State.run ⟨context, skipping, .literal slot scalar next more⟩ (next :: more) =
      .ok ⟨context', skipping, .after⟩ := by
  have hScalar := onScalar_eq_ok_iff (s := ⟨context, skipping, .after⟩).mpr ⟨context', hAccept, rfl⟩
  induction more generalizing next with
  | nil =>
    rw [run_singleton]
    change (if next = next then State.onScalar _ slot scalar else _) = _
    rw [if_pos rfl]
    exact hScalar
  | cons c more ih =>
    have hStep : State.step ⟨context, skipping, .literal slot scalar next (c :: more)⟩ next =
        .ok ⟨context, skipping, .literal slot scalar c more⟩ := if_pos rfl
    rw [run_of_step hStep]
    exact ih

theorem run_string (kept : Bool) (mode : Quoted.Position → Bytes → Mode)
    (close : Bytes → Except Fault State) {raw text' : Bytes}
    (hString : ∀ position text b, State.step ⟨context, skipping, mode position text⟩ b =
      match Quoted.step kept text position b with
      | .more next text' => .ok ⟨context, skipping, mode next text'⟩
      | .closed text' => close text'
      | .refused => .error .malformed)
    (hFollow : Quoted.follow kept position text raw = some (.plain, text')) :
    State.run ⟨context, skipping, mode position text⟩ (raw ++ [octet '"']) = close text' := by
  induction raw generalizing position text with
  | nil =>
    obtain ⟨rfl, rfl⟩ : position = .plain ∧ text = text' := by
      simpa [Quoted.follow] using hFollow
    rw [List.nil_append, run_singleton, hString,
      Quoted.step_eq_closed_iff.mpr ⟨rfl, rfl, rfl⟩]
  | cons b raw ih =>
    rw [Quoted.follow] at hFollow
    split at hFollow
    · rename_i next text'' hStep
      have hMore : State.step ⟨context, skipping, mode position text⟩ b =
          .ok ⟨context, skipping, mode next text''⟩ := by
        rw [hString, hStep]
      rw [List.cons_append, run_of_step hMore]
      exact ih hFollow
    · simp at hFollow

theorem IsDelimiter.ended (h : IsDelimiter b) (hComplete : part.isComplete = true) :
    Numeral.step part b = .ended := by
  apply Numeral.ended_of_isComplete hComplete
  unfold IsDelimiter isSpace at h
  simp only [Bool.or_eq_true, decide_eq_true_eq, or_assoc] at h
  rcases h with rfl | rfl | rfl | rfl | rfl | rfl | rfl <;> decide

/-- A numeral of the payload ends where what comes next cannot be part of it. -/
theorem run_numeral {more : Bytes} (hMore : Numeral.Completes part more) (hRest : Delimited rest) :
    State.run ⟨context, skipping, .numeral .payload part text⟩ (more ++ rest) =
      State.run ⟨context, skipping, .after⟩ rest := by
  induction more generalizing part text with
  | nil =>
    obtain ⟨b, rest', rfl, hb⟩ := hRest
    have hEnded := hb.ended (Numeral.completes_nil.mp hMore)
    have hStep : State.step ⟨context, skipping, .numeral .payload part text⟩ b =
        State.step ⟨context, skipping, .after⟩ b := by
      simp only [State.step, hEnded]
      rfl
    rw [List.nil_append, State.run_cons, State.run_cons, hStep]
  | cons b more ih =>
    obtain ⟨next, hNumeral, hMore'⟩ := Numeral.completes_cons.mp hMore
    have hStep : State.step ⟨context, skipping, .numeral .payload part text⟩ b =
        .ok ⟨context, skipping, .numeral .payload next (b :: text)⟩ := by
      simp only [State.step, hNumeral]
    rw [List.cons_append, run_of_step hStep]
    exact ih hMore'

theorem step_value_of_ne (hb : isSpace b = false) (hEnd : b ≠ octet ']') :
    State.step ⟨context, skipping, .value slot orEnd⟩ b =
      State.onValue ⟨context, skipping, .after⟩ slot b := by
  rw [step_value hb, if_neg (by simp [hEnd])]

theorem run_text {raw text' : Bytes}
    (hRaw : Quoted.follow (slot != .payload) .plain [] raw = some (.plain, text')) :
    State.run ⟨context, skipping, .value slot orEnd⟩ (quoted raw) =
      State.onText ⟨context, skipping, .after⟩ slot text' := by
  have hStep : State.step ⟨context, skipping, .value slot orEnd⟩ (octet '"') =
      .ok ⟨context, skipping, .quoted slot .plain []⟩ :=
    step_value_of_ne (by decide) (by decide)
  rw [quoted, List.cons_append, run_of_step hStep]
  exact run_string (slot != .payload) (.quoted slot)
    (State.onText ⟨context, skipping, .after⟩ slot) (fun _ _ _ => rfl) hRaw

theorem run_null {context' : Context} (hAccept : context.accept slot .null = .ok context') :
    State.run ⟨context, skipping, .value slot orEnd⟩ (Text.utf8 "null") =
      .ok ⟨context', skipping, .after⟩ := by
  have hStep : State.step ⟨context, skipping, .value slot orEnd⟩ (octet 'n') =
      .ok ⟨context, skipping, .literal slot .null (octet 'u') [octet 'l', octet 'l']⟩ :=
    step_value_of_ne (by decide) (by decide)
  exact (run_of_step hStep).trans (run_literal hAccept)

theorem run_true {context' : Context} (hAccept : context.accept slot .boolean = .ok context') :
    State.run ⟨context, skipping, .value slot orEnd⟩ (Text.utf8 "true") =
      .ok ⟨context', skipping, .after⟩ := by
  have hStep : State.step ⟨context, skipping, .value slot orEnd⟩ (octet 't') =
      .ok ⟨context, skipping, .literal slot .boolean (octet 'r') [octet 'u', octet 'e']⟩ :=
    step_value_of_ne (by decide) (by decide)
  exact (run_of_step hStep).trans (run_literal hAccept)

theorem run_false {context' : Context} (hAccept : context.accept slot .boolean = .ok context') :
    State.run ⟨context, skipping, .value slot orEnd⟩ (Text.utf8 "false") =
      .ok ⟨context', skipping, .after⟩ := by
  have hStep : State.step ⟨context, skipping, .value slot orEnd⟩ (octet 'f') =
      .ok ⟨context, skipping,
        .literal slot .boolean (octet 'a') [octet 'l', octet 's', octet 'e']⟩ :=
    step_value_of_ne (by decide) (by decide)
  exact (run_of_step hStep).trans (run_literal hAccept)

theorem begin?_plain (s : State) (slot : Slot) (h : Numeral.begin? b = some part) :
    isSpace b = false ∧ b ≠ octet ']' ∧
      State.onValue s slot b = .ok { s with mode := .numeral slot part [b] } := by
  have hDigit : b = octet '-' ∨ isDigitOctet b = true := by
    unfold Numeral.begin? at h
    split at h
    · exact Or.inl ‹_›
    · split at h
      · rename_i hZero
        exact Or.inr (by rw [hZero]; decide)
      · split at h
        · exact Or.inr ‹_›
        · simp at h
  have hOther : isSpace b = false ∧ b ≠ octet ']' ∧ b ≠ octet '[' ∧ b ≠ octet '\x7b' ∧
      b ≠ octet '"' ∧ b ≠ octet 'n' ∧ b ≠ octet 't' ∧ b ≠ octet 'f' := by
    rcases hDigit with rfl | hDigit
    · decide
    · have hNe : ∀ c, isDigitOctet c = false → b ≠ c := by
        rintro c hc rfl
        simp [hc] at hDigit
      refine ⟨?_, hNe _ (by decide), hNe _ (by decide), hNe _ (by decide), hNe _ (by decide),
        hNe _ (by decide), hNe _ (by decide), hNe _ (by decide)⟩
      simp [isSpace, hNe (octet ' ') (by decide), hNe (octet '\t') (by decide),
        hNe (octet '\n') (by decide), hNe (octet '\r') (by decide)]
  obtain ⟨hSpace, hEnd, hArray, hObject, hQuote, hNull, hTrue, hFalse⟩ := hOther
  refine ⟨hSpace, hEnd, ?_⟩
  unfold State.onValue
  rw [if_neg hArray, if_neg hObject, if_neg hQuote, if_neg hNull, if_neg hTrue, if_neg hFalse, h]

end ScriptBuild.Metadata
