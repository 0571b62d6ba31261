import ScriptBuild.Text.Blank

/-!
# Import declarations

The written form of one import: `using Some.Name;`, or `using Alias = Some.Name;`, which imports
the name that the alias stands for. White space is required after `using` and allowed around the
name, the alias and the equals sign. Identifiers are ASCII.
-/

namespace ScriptBuild.Declaration

set_option autoImplicit false

def isNameStart (c : Char) : Bool := c.isAlpha || c == '_'

def isNameChar (c : Char) : Bool := c.isAlphanum || c == '_'

/-- Reads identifiers joined by dots, up to the first character that cannot continue them; `begun`
tells whether an identifier has been begun, so that no dot follows a dot. -/
def dottedName? (begun : Bool) : List Char → Option (List Char × List Char)
  | [] => if begun then some ([], []) else none
  | c :: rest =>
    if begun then
      if isNameChar c then (dottedName? true rest).map fun (name, after) => (c :: name, after)
      else if c = '.' then (dottedName? false rest).map fun (name, after) => (c :: name, after)
      else some ([], c :: rest)
    else if isNameStart c then (dottedName? true rest).map fun (name, after) => (c :: name, after)
    else none

/-- The text after an alias and its equals sign, or the whole text if there is no alias. -/
def skipAlias (cs : List Char) : List Char :=
  match cs with
  | [] => []
  | c :: rest =>
    if isNameStart c then
      match Text.dropBlank (rest.dropWhile isNameChar) with
      | '=' :: target => Text.dropBlank target
      | _ => cs
    else cs

def target? (cs : List Char) : Option (String × List Char) :=
  match dottedName? false cs with
  | none => none
  | some (name, after) =>
    match Text.dropBlank after with
    | ';' :: rest => some (String.ofList name, rest)
    | _ => none

def read? : List Char → Option (String × List Char)
  | 'u' :: 's' :: 'i' :: 'n' :: 'g' :: c :: rest =>
    if Text.isBlank c then target? (skipAlias (Text.dropBlank rest)) else none
  | _ => none

theorem length_of_dottedName? {begun : Bool} {cs name after : List Char}
    (h : dottedName? begun cs = some (name, after)) : after.length ≤ cs.length := by
  induction cs generalizing begun name after with
  | nil =>
    rw [dottedName?] at h
    split at h <;> simp at h
    simp [h]
  | cons c rest ih =>
    rw [dottedName?] at h
    have step : ∀ {b : Bool}, (dottedName? b rest).map (fun x => (c :: x.1, x.2)) = some (name, after) →
        after.length ≤ (c :: rest).length := by
      intro b hb
      obtain ⟨⟨n, a⟩, ha, he⟩ := Option.map_eq_some_iff.mp hb
      have := ih ha
      simp only [Prod.mk.injEq] at he
      simp only [List.length_cons, ← he.2]
      omega
    split at h
    · split at h
      · exact step h
      · split at h
        · exact step h
        · simp only [Option.some.injEq, Prod.mk.injEq] at h
          simp [← h.2]
    · split at h
      · exact step h
      · simp at h

theorem length_skipAlias_le (cs : List Char) : (skipAlias cs).length ≤ cs.length := by
  unfold skipAlias
  split
  · simp
  · rename_i c rest
    split
    · split
      · rename_i target ht
        have h₁ := Text.length_dropBlank_le target
        have h₂ := Text.length_dropBlank_le (rest.dropWhile isNameChar)
        have h₃ := (List.dropWhile_suffix isNameChar (l := rest)).length_le
        rw [ht] at h₂
        simp only [List.length_cons] at *
        omega
      · simp
    · simp

theorem length_of_target? {cs rest : List Char} {name : String}
    (h : target? cs = some (name, rest)) : rest.length < cs.length := by
  unfold target? at h
  split at h
  · simp at h
  · rename_i found after hf
    have h₁ := length_of_dottedName? hf
    have h₂ := Text.length_dropBlank_le after
    split at h
    · rename_i tail ht
      simp only [Option.some.injEq, Prod.mk.injEq] at h
      rw [ht] at h₂
      simp only [List.length_cons, h.2] at h₂
      omega
    · simp at h

theorem length_of_read? {cs rest : List Char} {name : String}
    (h : read? cs = some (name, rest)) : rest.length < cs.length := by
  unfold read? at h
  split at h
  · rename_i c tail
    split at h
    · have h₁ := length_of_target? h
      have h₂ := length_skipAlias_le (Text.dropBlank tail)
      have h₃ := Text.length_dropBlank_le tail
      simp only [List.length_cons]
      omega
    · simp at h
  · simp at h

end ScriptBuild.Declaration
