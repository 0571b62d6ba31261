import ScriptBuild.Build.Process
import ScriptBuild.Proofs.Diagnostic.Recognised
import ScriptBuild.Proofs.Text.Utf8

/-!
# Output in two parts

Compiler output that is cut at a line boundary gives the diagnostics of its two parts, except that
the first related lines of the second part belong to what the first part ends with. The two streams
of a compiler are read apart, so they are read as if the one followed the other unless the standard
error begins with such a line.
-/

namespace ScriptBuild

set_option autoImplicit false

open Text

namespace Diagnostic

variable {a b line : List Char} {d e : Diagnostic} {l : Line}

/-- How many of the diagnostics of a text come from related lines with no other one before them. -/
def relatedRun (cs : List Char) : Nat := ((recognised cs).takeWhile Line.isRelated).length

theorem relatedRun_eq_zero (h : ∀ l ∈ (recognised b).head?, l.isRelated = false) :
    relatedRun b = 0 := by
  rw [relatedRun]
  cases hLines : recognised b with
  | nil => rfl
  | cons l ls =>
    have hFirst : ¬ l.isRelated = true := by
      rw [Bool.not_eq_true]
      apply h
      rw [hLines]
      rfl
    rw [List.takeWhile_cons_of_neg hFirst]
    rfl

theorem ofText_append_newline_eq : ofText (a ++ '\n' :: b) =
    ofText a ++ entries (ofText a).getLast? (recognised b) := by
  rw [ofText, recognised_append_newline, entries_append, Option.or_none, ofText]

theorem ofText_below (h : e ∈ (ofText a).getLast?) : ofText (a ++ '\n' :: b) =
    ofText a ++ (((ofText b).take (relatedRun b)).map (like e) ++ (ofText b).drop (relatedRun b)) := by
  rw [ofText_append_newline_eq, Option.mem_def.mp h, entries_some e none, relatedRun, ← ofText]

theorem ofText_below_nothing (h : ofText a = []) : ofText (a ++ '\n' :: b) = ofText b := by
  rw [ofText_append_newline_eq, h]
  rfl

theorem ofText_append_of_not_isRelated (h : ∀ l ∈ (recognised b).head?, l.isRelated = false) :
    ofText (a ++ '\n' :: b) = ofText a ++ ofText b := by
  cases hLast : (ofText a).getLast? with
  | none =>
    have hNothing := List.getLast?_eq_none_iff.mp hLast
    rw [ofText_below_nothing hNothing, hNothing, List.nil_append]
  | some e =>
    rw [ofText_below hLast, relatedRun_eq_zero h]
    rfl

end Diagnostic

open Diagnostic

theorem ExternalCompiler.diagnostics_eq_ofOutput (exit : Exit)
    (h : ∀ l ∈ (recognised (decodeLossy exit.stderr)).head?, l.isRelated = false) :
    diagnostics exit = ofOutput (exit.stdout ++ 0x0a :: exit.stderr) := by
  have hNewline : Char.ofNat (0x0a : UInt8).toNat = '\n' := by decide
  have hJoined : decodeLossy (exit.stdout ++ 0x0a :: exit.stderr) =
      decodeLossy exit.stdout ++ '\n' :: decodeLossy exit.stderr := by
    rw [decodeLossy_append_ascii (by decide), hNewline]
  rw [diagnostics, ofOutput, ofOutput, ofOutput, hJoined, ofText_append_of_not_isRelated h]

/-- The diagnostics of a text that is cut at a newline are those of its parts, with the first
related ones of the lower part like the last one of the upper part, if there is one; by themselves
they count as errors without a code. The two streams of a compiler are read as one text unless the
lower one begins with a related line. -/
theorem Diagnostic.ofText_append_newline :
    (∀ a b, (ofText a = [] → ofText (a ++ '\n' :: b) = ofText b) ∧
      ∀ e ∈ (ofText a).getLast?, ofText (a ++ '\n' :: b) =
        ofText a ++ (((ofText b).take (relatedRun b)).map (like e) ++
          (ofText b).drop (relatedRun b))) ∧
    (∀ b, ∀ d ∈ (ofText b).take (relatedRun b), d.severity = .error ∧ d.code = "") ∧
    ∀ exit : Exit, (∀ l ∈ (recognised (decodeLossy exit.stderr)).head?, l.isRelated = false) →
      ExternalCompiler.diagnostics exit = ofOutput (exit.stdout ++ 0x0a :: exit.stderr) := by
  refine ⟨?_, ?_, ExternalCompiler.diagnostics_eq_ofOutput⟩
  · intro a b
    constructor
    · exact ofText_below_nothing
    · intro e hLast
      exact ofText_below hLast
  · intro b d hMem
    exact carried_of_mem_take hMem

/-- A related line follows the warning at the end of the text above it, and the standard error after
a cut off line may hold one that is not its first. -/
theorem Diagnostic.ofText_of_parted_output :
    let related := "b.cs(3,4): (Location of the symbol related to previous error)"
    let place : Diagnostic := ⟨⟨"b.cs"⟩, 3, 4, .error, "", relatedMarker⟩
    let warning : Diagnostic := ⟨⟨"a.cs"⟩, 1, 2, .warning, "CS1", "x"⟩
    let unlocated : Diagnostic := ⟨⟨""⟩, 0, 0, .error, "CS2", "y"⟩
    let exit : Exit := ⟨1, utf8 "a.cs(1,2): warning CS1: x\r",
      utf8 ("noise\nerror CS2: y\n" ++ related), .empty⟩
    ofText ("a.cs(1,2): warning CS1: x".toList ++ '\n' :: related.toList) =
        [warning, like warning place] ∧
      ofOutput (exit.stdout ++ 0x0a :: exit.stderr) = [warning, unlocated, like unlocated place] := by
  intro related place warning unlocated exit
  have hAbove : ofText "a.cs(1,2): warning CS1: x".toList = [warning] := by decide +kernel +revert
  have hBelow : ofText related.toList = [place] := by decide +kernel +revert
  have hRun : relatedRun related.toList = 1 := by decide +kernel +revert
  have hFirst : (recognised (decodeLossy exit.stderr)).head? = some (.complete unlocated) := by
    decide +kernel +revert
  have hStreams : ExternalCompiler.diagnostics exit =
      [warning, unlocated, like unlocated place] := by
    decide +kernel +revert
  constructor
  · rw [(ofText_append_newline.1 _ _).2 warning (by rw [hAbove]; rfl), hAbove, hBelow, hRun]
    rfl
  · have hBare : ∀ l ∈ (recognised (decodeLossy exit.stderr)).head?, l.isRelated = false := by
      intro l hl
      rw [hFirst] at hl
      obtain rfl := Option.some.inj hl
      rfl
    rw [← ofText_append_newline.2.2 exit hBare, hStreams]

end ScriptBuild
