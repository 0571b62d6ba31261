/-!
# White space

The characters that separate words in scripts and in compiler output, and the removal of runs of
them at either end of a text. The class is the Unicode property `White_Space`, which is larger
than the four characters that `Char.isWhitespace` knows.
-/

namespace ScriptBuild.Text

set_option autoImplicit false

/-- The characters with the Unicode property `White_Space`. -/
def isBlank (c : Char) : Bool :=
  let n := c.toNat
  (0x09 ≤ n && n ≤ 0x0d) || n == 0x20 || n == 0x85 || n == 0xa0 || n == 0x1680 ||
    (0x2000 ≤ n && n ≤ 0x200a) || n == 0x2028 || n == 0x2029 || n == 0x202f || n == 0x205f ||
    n == 0x3000

def dropBlank (cs : List Char) : List Char := cs.dropWhile isBlank

def dropBlankEnd : List Char → List Char
  | [] => []
  | c :: rest =>
    match dropBlankEnd rest with
    | [] => if isBlank c then [] else [c]
    | kept => c :: kept

def trim (cs : List Char) : List Char := dropBlankEnd (dropBlank cs)

theorem length_dropBlank_le (cs : List Char) : (dropBlank cs).length ≤ cs.length :=
  (List.dropWhile_suffix isBlank).length_le

@[simp] theorem dropBlank_nil : dropBlank [] = [] := rfl

theorem dropBlank_cons (c : Char) (cs : List Char) :
    dropBlank (c :: cs) = if isBlank c then dropBlank cs else c :: cs := by
  simp [dropBlank, List.dropWhile_cons]

end ScriptBuild.Text
