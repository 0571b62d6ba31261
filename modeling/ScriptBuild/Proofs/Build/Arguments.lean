import Mathlib.Data.List.Basic
import ScriptBuild.Build.Invocation

/-!
# What a command line asks for

The references and the sources of an invocation stand one after the other in its command line, with
nothing in between. What tells them apart is how a reference begins, so a command line says which
invocation it is for as long as no source begins like a reference. A first source that does is taken
for the last reference.
-/

namespace ScriptBuild.Invocation

set_option autoImplicit false

variable {invocation other : Invocation} {extra : List String} {output output' : Path}

/-- A list is cut in one way only into items of one class and items of which the first is of another
class. -/
theorem append_inj_of_apart {α : Type} {P : α → Prop} {xs xs' ys ys' : List α}
    (hxs : ∀ x ∈ xs, P x) (hxs' : ∀ x ∈ xs', P x) (hys : ∀ y ∈ ys.head?, ¬ P y)
    (hys' : ∀ y ∈ ys'.head?, ¬ P y) (h : xs ++ ys = xs' ++ ys') : xs = xs' ∧ ys = ys' := by
  rcases List.append_eq_append_iff.mp h with ⟨between, hLonger, hRest⟩ | ⟨between, hLonger, hRest⟩
  · cases between with
    | nil => exact ⟨by simpa using hLonger.symm, by simpa using hRest⟩
    | cons x between => exact absurd (hxs' x (by simp [hLonger])) (hys x (by simp [hRest]))
  · cases between with
    | nil => exact ⟨by simpa using hLonger, by simpa using hRest.symm⟩
    | cons x between => exact absurd (hxs x (by simp [hLonger])) (hys' x (by simp [hRest]))

/-! ## The arguments one by one -/

theorem text_injective : Function.Injective Path.text := by
  rintro ⟨_⟩ ⟨_⟩ rfl
  rfl

theorem append_text_injective (front : String) :
    Function.Injective fun p : Path => front ++ p.text := by
  intro p q h
  have hTexts := congrArg String.toList h
  simp only [String.toList_append, List.append_cancel_left_eq] at hTexts
  exact text_injective (String.toList_inj.mp hTexts)

theorem targetSwitch_eq_iff :
    invocation.targetSwitch = other.targetSwitch ↔ invocation.executable = other.executable := by
  rw [targetSwitch, targetSwitch]
  cases invocation.executable <;> cases other.executable <;> decide

theorem debugSwitch_eq_iff :
    invocation.debugSwitch = other.debugSwitch ↔ invocation.debugInfo = other.debugInfo := by
  rw [debugSwitch, debugSwitch]
  cases invocation.debugInfo <;> cases other.debugInfo <;> decide

def LikeReference (argument : String) : Prop := "-r:".toList <+: argument.toList

theorem likeReference_iff {argument : String} :
    LikeReference argument ↔ ∃ p, referenceSwitch p = argument := by
  constructor
  · rintro ⟨rest, hRest⟩
    refine ⟨⟨String.ofList rest⟩, String.toList_inj.mp ?_⟩
    simpa [referenceSwitch] using hRest
  · rintro ⟨p, rfl⟩
    rw [LikeReference, referenceSwitch, String.toList_append]
    exact List.prefix_append _ _

/-! ## The whole command line -/

theorem agree_of_arguments
    (hFirst : ∀ source ∈ invocation.sources.head?, ¬ LikeReference source.text)
    (hFirst' : ∀ source ∈ other.sources.head?, ¬ LikeReference source.text)
    (h : invocation.arguments extra output = other.arguments extra output') :
    invocation.executable = other.executable ∧ invocation.debugInfo = other.debugInfo ∧
      output = output' ∧ invocation.references = other.references ∧
        invocation.sources = other.sources := by
  simp only [arguments, List.append_assoc, List.append_cancel_left_eq, List.cons_append,
    List.nil_append, List.cons.injEq] at h
  obtain ⟨hTarget, hDebug, hOutput, hPaths⟩ := h
  have hReference : ∀ ps : List Path, ∀ x ∈ ps.map referenceSwitch, LikeReference x := by
    intro ps x hx
    obtain ⟨p, -, hp⟩ := List.mem_map.mp hx
    exact likeReference_iff.mpr ⟨p, hp⟩
  obtain ⟨hReferences, hSources⟩ := append_inj_of_apart (hReference _) (hReference _)
    (by simpa using hFirst) (by simpa using hFirst') hPaths
  exact ⟨targetSwitch_eq_iff.mp hTarget, debugSwitch_eq_iff.mp hDebug,
    append_text_injective _ hOutput, (append_text_injective _).list_map hReferences,
    text_injective.list_map hSources⟩

/-- A first source that begins as a reference does cannot be told from a last reference. -/
theorem exists_arguments_eq {source : Path} {sources : List Path}
    (hSource : LikeReference source.text) (hSources : invocation.sources = source :: sources) :
    ∃ p, invocation.arguments extra output =
      { invocation with
        references := invocation.references ++ [p], sources := sources }.arguments extra output := by
  obtain ⟨p, hp⟩ := likeReference_iff.mp hSource
  refine ⟨p, ?_⟩
  simp only [arguments, hSources, List.map_append, List.map_cons, List.map_nil, hp,
    List.append_assoc, List.singleton_append]
  rfl

/-- Two invocations, no source of which begins as a reference does, have the same command line only
if they agree in all that a command line says. -/
theorem arguments_eq_iff
    (hSources : ∀ source ∈ invocation.sources, ¬ "-r:".toList <+: source.text.toList)
    (hSources' : ∀ source ∈ other.sources, ¬ "-r:".toList <+: source.text.toList) :
    invocation.arguments extra output = other.arguments extra output' ↔
      invocation.executable = other.executable ∧ invocation.debugInfo = other.debugInfo ∧
        output = output' ∧ invocation.references = other.references ∧
          invocation.sources = other.sources := by
  constructor
  · apply agree_of_arguments
    · exact fun source hFirst => hSources source (List.mem_of_mem_head? hFirst)
    · exact fun source hFirst => hSources' source (List.mem_of_mem_head? hFirst)
  · rintro ⟨hTarget, hDebug, rfl, hReferences, hSame⟩
    rw [arguments, arguments, targetSwitch_eq_iff.mpr hTarget, debugSwitch_eq_iff.mpr hDebug,
      hReferences, hSame]

/-- A reference may begin as a reference does, and a source as any other switch, with blanks and
colons in both: what is moved from the one list to the other is noticed. -/
theorem arguments_of_moved_path :
    let invocation : Invocation :=
      ⟨false, true, false, none, [⟨"-r:a b.dll"⟩, ⟨"c:/d.dll"⟩], [⟨"-out:e.cs"⟩]⟩
    let other : Invocation :=
      ⟨false, true, false, none, [⟨"-r:a b.dll"⟩], [⟨"c:/d.dll"⟩, ⟨"-out:e.cs"⟩]⟩
    (∀ source ∈ invocation.sources, ¬ "-r:".toList <+: source.text.toList) ∧
      (∀ source ∈ other.sources, ¬ "-r:".toList <+: source.text.toList) ∧
      invocation.arguments ["-target:exe", "-r:x.dll"] ⟨"out/f.dll"⟩ ≠
        other.arguments ["-target:exe", "-r:x.dll"] ⟨"out/f.dll"⟩ := by
  intro invocation other
  have hSources : ∀ source ∈ invocation.sources, ¬ "-r:".toList <+: source.text.toList := by
    decide +kernel +revert
  have hSources' : ∀ source ∈ other.sources, ¬ "-r:".toList <+: source.text.toList := by
    decide +kernel +revert
  refine ⟨hSources, hSources', ?_⟩
  rw [Ne, arguments_eq_iff hSources hSources']
  rintro ⟨-, -, -, hReferences, -⟩
  exact absurd (congrArg List.length hReferences) (by decide)

end ScriptBuild.Invocation
