import ScriptBuild.Build.Options
import ScriptBuild.Proofs.Text.Blank

/-!
# The words of build options

An option is named by any spelling of one of its words: ASCII letters of either case, with white
space around them. Nothing else names it, and a text names one option at most.
-/

namespace ScriptBuild

set_option autoImplicit false

open Text

variable {word text : String} {letters : List Char} {c : Char}

/-- A text spells a word: it holds the letters of the word, those of ASCII in either case, and
nothing but white space around them. -/
def Spells (word text : String) : Prop :=
  ∃ before letters after, text.toList = before ++ (letters ++ after) ∧ Blank before ∧
    Blank after ∧ letters.map Char.toLower = word.toList

theorem isBlank_of_map_toLower (hWord : word.toList.any isBlank = false)
    (hLetters : letters.map Char.toLower = word.toList) (hc : c ∈ letters) : isBlank c = false := by
  by_contra hBlank
  have hMem : c.toLower ∈ word.toList := by
    rw [← hLetters]
    exact List.mem_map_of_mem hc
  have hLower := isBlank_toLower (eq_true_of_ne_false hBlank)
  exact List.any_eq_false.mp hWord _ hMem hLower

theorem plainWord_eq_iff (hWord : word.toList.any isBlank = false) :
    plainWord text = word ↔ Spells word text := by
  rw [plainWord, ← String.toList_inj, String.toList_ofList]
  constructor
  · intro hPlain
    obtain ⟨w, v, hw, hv, hText⟩ := exists_trim text.toList
    exact ⟨w, trim text.toList, v, hText, hw, hv, hPlain⟩
  · intro ⟨w, letters, v, hText, hw, hv, hLetters⟩
    have hSolid : trim letters = letters := by
      apply trim_eq_self
      · intro c hc
        exact isBlank_of_map_toLower hWord hLetters (List.mem_of_mem_head? hc)
      · intro c hc
        exact isBlank_of_map_toLower hWord hLetters (List.mem_of_getLast? hc)
    rw [hText, trim, dropBlank_append hw, ← trim, trim_append_blank hv, hSolid, hLetters]

theorem BuildMode.ofWord_eq_ok_iff {mode : BuildMode} :
    BuildMode.ofWord text = .ok mode ↔ Spells mode.word text := by
  have hSolid : mode.word.toList.any isBlank = false := by
    cases mode <;> decide +kernel
  rw [← plainWord_eq_iff hSolid, BuildMode.ofWord]
  cases mode with
  | debug => grind [BuildMode.word]
  | release => grind [BuildMode.word]

theorem BuildMode.ofWord_eq_error (h : ∀ mode, ¬ Spells (BuildMode.word mode) text) :
    BuildMode.ofWord text = .error (.unknownMode (plainWord text)) := by
  cases hWord : BuildMode.ofWord text with
  | ok mode => exact absurd (ofWord_eq_ok_iff.mp hWord) (h mode)
  | error e => grind [BuildMode.ofWord]

def ReferencePolicy.words : ReferencePolicy → List String
  | .loadedOnly => ["loaded", "loaded-only"]
  | .loadedAndMatched => ["matched", "loaded-and-matched"]

theorem ReferencePolicy.ofWord_eq_ok_iff {policy : ReferencePolicy} :
    ReferencePolicy.ofWord text = .ok policy ↔ ∃ word ∈ policy.words, Spells word text := by
  have hSolid : ∀ word ∈ policy.words, word.toList.any isBlank = false := by
    cases policy <;> decide +kernel
  have hWords : (∃ word ∈ policy.words, Spells word text) ↔ plainWord text ∈ policy.words := by
    constructor
    · intro ⟨word, hMem, hSpells⟩
      rw [(plainWord_eq_iff (hSolid word hMem)).mpr hSpells]
      exact hMem
    · intro hMem
      exact ⟨_, hMem, (plainWord_eq_iff (hSolid _ hMem)).mp rfl⟩
  rw [hWords, ReferencePolicy.ofWord]
  cases policy with
  | loadedOnly => grind [ReferencePolicy.words]
  | loadedAndMatched => grind [ReferencePolicy.words]

end ScriptBuild
