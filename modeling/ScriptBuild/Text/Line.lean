/-!
# Lines

A text is cut into lines at each newline. A carriage return just before a newline belongs to the
line end; a text that ends with a newline has no further, empty line. Pieces between separators are simpler:
every separator ends one piece and begins another.
-/

namespace ScriptBuild.Text

set_option autoImplicit false

def consLine (c : Char) : List (List Char) → List (List Char)
  | [] => [[c]]
  | line :: lines => (c :: line) :: lines

/-- The pieces of a text between the occurrences of a separator. There is always at least one. -/
def pieces (separator : Char) : List Char → List (List Char)
  | [] => [[]]
  | c :: rest =>
    if c = separator then [] :: pieces separator rest else consLine c (pieces separator rest)

def lines : List Char → List (List Char)
  | [] => []
  | '\n' :: rest => [] :: lines rest
  | '\r' :: '\n' :: rest => [] :: lines rest
  | c :: rest => consLine c (lines rest)

@[simp] theorem lines_nil : lines [] = [] := by simp [lines]

@[simp] theorem lines_newline (rest : List Char) : lines ('\n' :: rest) = [] :: lines rest := by
  simp [lines]

@[simp] theorem lines_return_newline (rest : List Char) :
    lines ('\r' :: '\n' :: rest) = [] :: lines rest := by
  simp [lines]

theorem mem_consLine {c : Char} {ls : List (List Char)} {l : List Char} (h : l ∈ consLine c ls) :
    l ∈ ls ∨ ∃ l', l = c :: l' ∧ (l' = [] ∨ l' ∈ ls) := by
  cases ls with
  | nil => simp [consLine] at h; simp [h]
  | cons a as =>
    simp only [consLine, List.mem_cons] at h
    rcases h with rfl | h
    · exact .inr ⟨a, rfl, .inr (by simp)⟩
    · exact .inl (by simp [h])

theorem not_mem_of_mem_lines {cs l : List Char} (h : l ∈ lines cs) : '\n' ∉ l := by
  fun_induction lines cs generalizing l with
  | case1 => simp at h
  | case2 rest ih =>
    rcases List.mem_cons.mp h with rfl | h
    · simp
    · exact ih h
  | case3 rest ih =>
    rcases List.mem_cons.mp h with rfl | h
    · simp
    · exact ih h
  | case4 c rest _ hc ih =>
    rcases mem_consLine h with h | ⟨l', rfl, rfl | h⟩
    · exact ih h
    · simp; grind
    · have := ih h
      simp [this]; grind

end ScriptBuild.Text
