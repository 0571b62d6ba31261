import ScriptBuild.Text.Utf8

/-!
# The order of names

Names are ordered by their UTF-8 octets. The order is irreflexive and transitive, which is all that
a sorted list of names needs.
-/

namespace ScriptBuild.Text

set_option autoImplicit false

/-- One string comes before another in the order of their UTF-8 octets. -/
def Before (a b : String) : Prop := utf8 a < utf8 b

instance (a b : String) : Decidable (Before a b) := inferInstanceAs (Decidable (utf8 a < utf8 b))

theorem Before.irrefl (a : String) : ¬ Before a a := List.lt_irrefl _

theorem Before.trans {a b c : String} (h : Before a b) (h' : Before b c) : Before a c :=
  List.lt_trans h h'

theorem Before.ne {a b : String} (h : Before a b) : a ≠ b := fun same =>
  Before.irrefl b (same ▸ h)

end ScriptBuild.Text
