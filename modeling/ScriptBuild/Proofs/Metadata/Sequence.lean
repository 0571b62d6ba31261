import ScriptBuild.Proofs.Metadata.Token

/-!
# Reading what is in brackets

Arrays and objects, of the payload and of what is kept, are read by one pattern: an item or the end
is expected, and after an item comes a comma or the end. What is said here of one item at a time
carries over to all of them.
-/

namespace ScriptBuild.Metadata

open Json (Space Sequence Bracketed)

set_option autoImplicit false

variable {α β : Type} {s t : State} {w bytes rest inner : Bytes} {m : Metadata}

inductive Chain (Next : α → β → α → Prop) : α → List β → α → Prop
  | nil (a : α) : Chain Next a [] a
  | cons {a b c : α} {x : β} {xs : List β} (hNext : Next a x b) (hRest : Chain Next b xs c) :
      Chain Next a (x :: xs) c

theorem chain_cons_iff {Next : α → β → α → Prop} {a a' : α} {x : β} {xs : List β} :
    Chain Next a (x :: xs) a' ↔ ∃ b, Next a x b ∧ Chain Next b xs a' := by
  constructor
  · intro hChain
    cases hChain with
    | cons hNext hRest => exact ⟨_, hNext, hRest⟩
  · rintro ⟨b, hNext, hRest⟩
    exact .cons hNext hRest

theorem chain_unit {Next : Unit → β → Unit → Prop} (hNext : ∀ a x b, Next a x b)
    (xs : List β) : Chain Next () xs () := by
  induction xs with
  | nil => exact .nil ()
  | cons x xs ih => exact .cons (hNext () x ()) ih

/-- How the reader goes through brackets. -/
structure Course (α β : Type) where
  /-- An item is expected, or the end if it is allowed. -/
  expect : α → Bool → State
  /-- After an item. -/
  done : α → State
  closing : UInt8
  closed : α → Except Fault State
  Writes : β → Bytes → Prop
  Next : α → β → α → Prop

namespace Course

variable {c : Course α β} {a a' : α} {orEnd : Bool} {xs : List β} {n : Nat}

def Ends (c : Course α β) (m : Metadata) (a : α) (rest : Bytes) : Prop :=
  ∃ rest' t, rest = c.closing :: rest' ∧ c.closed a = .ok t ∧ Accepts t rest' m

def ItemsBelow (c : Course α β) (n : Nat) (m : Metadata) : Prop :=
  ∀ a orEnd bytes, bytes.length < n → Accepts (c.expect a orEnd) bytes m →
    ∃ w rest, bytes = w ++ rest ∧ Space w ∧
      (orEnd = true ∧ c.Ends m a rest ∨
        ∃ x text rest' a', rest = text ++ rest' ∧ c.Writes x text ∧ c.Next a x a' ∧
          Accepts (c.done a') rest' m)

def Separated (c : Course α β) (m : Metadata) : Prop :=
  ∀ a x a' bytes, c.Next a x a' → Accepts (c.done a') bytes m →
    ∃ w rest, bytes = w ++ rest ∧ Space w ∧
      (c.Ends m a' rest ∨ ∃ rest', rest = octet ',' :: rest' ∧ Accepts (c.expect a' false) rest' m)

theorem sequence_of_accepts (hItems : c.ItemsBelow n m) (hSeparated : c.Separated m)
    (hLength : bytes.length < n) (h : Accepts (c.expect a orEnd) bytes m) :
    ∃ xs inner rest a' t, bytes = inner ++ c.closing :: rest ∧
      (orEnd = true ∧ xs = [] ∧ Space inner ∨ Sequence c.Writes xs inner) ∧
      Chain c.Next a xs a' ∧ c.closed a' = .ok t ∧ Accepts t rest m := by
  induction hSize : bytes.length using Nat.strongRecOn generalizing bytes a orEnd with
  | ind size ih =>
    obtain ⟨w, rest, rfl, hSpace, hCase⟩ := hItems a orEnd bytes hLength h
    rcases hCase with ⟨hEnd, rest', t, rfl, hClosed, hRest⟩ |
      ⟨x, text, rest', a', rfl, hWrites, hNext, hDone⟩
    · exact ⟨[], w, rest', a, t, rfl, Or.inl ⟨hEnd, rfl, hSpace⟩, .nil a, hClosed, hRest⟩
    · obtain ⟨w', after, rfl, hSpace', hCase⟩ := hSeparated a x a' rest' hNext hDone
      rcases hCase with ⟨rest'', t, rfl, hClosed, hRest⟩ | ⟨rest'', rfl, hMore⟩
      · exact ⟨[x], w ++ text ++ w', rest'', a', t, by simp, Or.inr (.last hSpace hWrites hSpace'),
          .cons hNext (.nil a'), hClosed, hRest⟩
      · simp only [List.length_append, List.length_cons] at hLength hSize
        obtain ⟨xs, inner, final, a'', t, rfl, hInner, hChain, hClosed, hRest⟩ :=
          ih rest''.length (by omega) (by omega) hMore rfl
        have hSequence : Sequence c.Writes xs inner := by simpa using hInner
        exact ⟨x :: xs, w ++ text ++ w' ++ octet ',' :: inner, final, a'', t, by simp,
          Or.inr (.comma hSpace hWrites hSpace' hSequence), .cons hNext hChain, hClosed, hRest⟩

theorem bracketed_of_accepts {opening : UInt8} (hItems : c.ItemsBelow n m)
    (hSeparated : c.Separated m) (hLength : bytes.length < n)
    (h : Accepts (c.expect a true) bytes m) :
    ∃ xs text rest a' t, opening :: bytes = text ++ rest ∧
      Bracketed opening c.closing c.Writes xs text ∧ Chain c.Next a xs a' ∧
      c.closed a' = .ok t ∧ Accepts t rest m := by
  obtain ⟨xs, inner, rest, a', t, rfl, hInner, hChain, hClosed, hRest⟩ :=
    sequence_of_accepts hItems hSeparated hLength h
  refine ⟨xs, opening :: inner ++ [c.closing], rest, a', t, by simp, ⟨inner, rfl, ?_⟩, hChain,
    hClosed, hRest⟩
  simpa using hInner

/-- What lets the reader take in items, commas and the end. -/
structure Takes (c : Course α β) : Prop where
  skips_expect : ∀ a orEnd, Skips (c.expect a orEnd)
  skips_done : ∀ a, Skips (c.done a)
  run_item : ∀ a x a' orEnd text rest, c.Writes x text → c.Next a x a' → Delimited rest →
    (c.expect a orEnd).run (text ++ rest) = (c.done a').run rest
  step_comma : ∀ a x a' y a'', c.Next a x a' → c.Next a' y a'' →
    (c.done a').step (octet ',') = .ok (c.expect a' false)
  isDelimiter_closing : IsDelimiter c.closing
  step_closing : ∀ a, (c.done a).step c.closing = c.closed a
  step_empty : ∀ a, (c.expect a true).step c.closing = c.closed a

theorem exists_next_of_chain (h : Sequence c.Writes xs inner) (hChain : Chain c.Next a xs a') :
    ∃ y a'', c.Next a y a'' := by
  cases hChain with
  | nil => cases h
  | cons hNext hRest => exact ⟨_, _, hNext⟩

theorem run_sequence (hTakes : c.Takes) (h : Sequence c.Writes xs inner)
    (hChain : Chain c.Next a xs a') :
    (c.expect a orEnd).run (inner ++ [c.closing]) = c.closed a' := by
  induction h generalizing a orEnd with
  | @last x w text w' hBefore hItem hAfter =>
    cases hChain with
    | cons hNext hRest =>
      cases hRest
      have hClosing : Delimited (w' ++ [c.closing]) :=
        Delimited.append hAfter ⟨_, _, rfl, hTakes.isDelimiter_closing⟩
      rw [List.append_assoc, List.append_assoc,
        run_of_run (run_space (hTakes.skips_expect _ _) hBefore),
        hTakes.run_item _ _ _ _ _ _ hItem hNext hClosing,
        run_of_run (run_space (hTakes.skips_done _) hAfter), run_singleton, hTakes.step_closing]
  | @comma x xs w text w' rest hBefore hItem hAfter hRest ih =>
    cases hChain with
    | cons hNext hMore =>
      have hComma : Delimited (w' ++ octet ',' :: (rest ++ [c.closing])) :=
        Delimited.append hAfter ⟨_, _, rfl, Or.inr (Or.inl rfl)⟩
      obtain ⟨y, a'', hNext'⟩ := exists_next_of_chain hRest hMore
      simp only [List.append_assoc, List.cons_append]
      rw [run_of_run (run_space (hTakes.skips_expect _ _) hBefore),
        hTakes.run_item _ _ _ _ _ _ hItem hNext hComma,
        run_of_run (run_space (hTakes.skips_done _) hAfter),
        run_of_step (hTakes.step_comma _ _ _ _ _ hNext hNext')]
      exact ih hMore

/-- What is in brackets is read up to the end of them. -/
theorem run_bracketed {opening : UInt8} {text : Bytes} (hTakes : c.Takes)
    (hOpening : s.step opening = .ok (c.expect a true))
    (h : Bracketed opening c.closing c.Writes xs text) (hChain : Chain c.Next a xs a') :
    s.run text = c.closed a' := by
  obtain ⟨inner, rfl, ⟨rfl, hSpace⟩ | h⟩ := h
  · cases hChain
    rw [List.cons_append, run_of_step hOpening,
      run_of_run (run_space (hTakes.skips_expect _ _) hSpace), run_singleton, hTakes.step_empty]
  · rw [List.cons_append, run_of_step hOpening]
    exact run_sequence hTakes h hChain

end Course

end ScriptBuild.Metadata
