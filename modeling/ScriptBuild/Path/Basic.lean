import ScriptBuild.Text.Line
import ScriptBuild.Text.Order

/-!
# Paths

A path is kept as the text it was given with, and compared by its segments: repeated slashes,
slashes at the end and inner `.` pieces do not count, a leading `.` does, and `..` is a segment
like any other. Two paths may therefore be the same without having the same text.
-/

namespace ScriptBuild

set_option autoImplicit false

structure Path where
  text : String
  deriving DecidableEq, Repr, Inhabited

inductive Segment
  /-- The slash at the start of an absolute path. -/
  | root
  /-- A `.` at the start of a relative path. -/
  | here
  | up
  | name (text : String)
  deriving DecidableEq, Repr

namespace Segment

def ofPiece? : List Char → Option Segment
  | [] => none
  | ['.'] => none
  | ['.', '.'] => some .up
  | piece => some (.name (String.ofList piece))

/-- The octets by which segments are ordered: one for the kind, then those of the name. -/
def key : Segment → Bytes
  | .root => [0]
  | .here => [1]
  | .up => [2]
  | .name text => 3 :: Text.utf8 text

instance : LT Segment := ⟨fun s t => s.key < t.key⟩

instance (s t : Segment) : Decidable (s < t) := inferInstanceAs (Decidable (s.key < t.key))

theorem lt_irrefl (s : Segment) : ¬ s < s := List.lt_irrefl s.key

theorem lt_trans {s t u : Segment} (h : s < t) (h' : t < u) : s < u :=
  show s.key < u.key from List.lt_trans h h'

instance : Std.Irrefl (α := Segment) (· < ·) := ⟨lt_irrefl⟩

instance : Trans (α := Segment) (· < ·) (· < ·) (· < ·) := ⟨lt_trans⟩

end Segment

namespace Path

def segmentsOf : List Char → List Segment
  | '/' :: rest => .root :: (Text.pieces '/' rest).filterMap Segment.ofPiece?
  | cs =>
    match Text.pieces '/' cs with
    | ['.'] :: rest => .here :: rest.filterMap Segment.ofPiece?
    | pieces => pieces.filterMap Segment.ofPiece?

def segments (p : Path) : List Segment := segmentsOf p.text.toList

/-- Two paths are the same if their segments are. -/
def Same (p q : Path) : Prop := p.segments = q.segments

instance (p q : Path) : Decidable (Same p q) := inferInstanceAs (Decidable (_ = _))

def Before (p q : Path) : Prop := p.segments < q.segments

instance (p q : Path) : Decidable (Before p q) := inferInstanceAs (Decidable (_ < _))

theorem Same.refl (p : Path) : Same p p := rfl

theorem Same.symm {p q : Path} (h : Same p q) : Same q p := Eq.symm h

theorem Same.trans {p q r : Path} (h : Same p q) (h' : Same q r) : Same p r := Eq.trans h h'

theorem Before.irrefl (p : Path) : ¬ Before p p := List.lt_irrefl _

theorem Before.trans {p q r : Path} (h : Before p q) (h' : Before q r) : Before p r :=
  List.lt_trans h h'

theorem Before.not_same {p q : Path} (h : Before p q) : ¬ Same p q := fun same => by
  unfold Before at h
  rw [show p.segments = q.segments from same] at h
  exact List.lt_irrefl _ h

end Path

end ScriptBuild
