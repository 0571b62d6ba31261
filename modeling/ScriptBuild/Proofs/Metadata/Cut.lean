import ScriptBuild.Proofs.Index.Build
import ScriptBuild.Proofs.Metadata.Load

/-!
# Images that are cut off

A fault is met at the first octet that no image goes on with, so what comes after it does not count.
Of an image that is cut off nothing else is found than that it ends too early, unless only white
space is missing. A numeral is the one thing whose end is not told from its octets alone: an image
that is cut within one may be judged by what the numeral would be.
-/

namespace ScriptBuild.Metadata

open Json (Space)

set_option autoImplicit false

variable {s t : State} {b : UInt8} {bytes front rest : Bytes} {m m' : Metadata} {fault : Fault}
  {slot : Slot} {text : Bytes}

/-! ## The last octet of a numeral -/

/-- An octet that a numeral, or what there is of it, may end with. -/
def IsNumeralOctet (b : UInt8) : Prop :=
  isDigitOctet b = true ∨ b = octet '+' ∨ b = octet '-' ∨ b = octet '.' ∨ b = octet 'e' ∨
    b = octet 'E'

/-- What there is of an image may be cut within a numeral. -/
def EndsInNumeral (front : Bytes) : Prop := ∃ b, front.getLast? = some b ∧ IsNumeralOctet b

theorem isNumeralOctet_of_begin {part : Numeral.Part} (h : Numeral.begin? b = some part) :
    IsNumeralOctet b := by
  unfold Numeral.begin? at h
  split at h
  · exact Or.inr (Or.inr (Or.inl ‹_›))
  · split at h
    · rename_i hZero
      exact Or.inl (by rw [hZero]; decide)
    · split at h
      · exact Or.inl ‹_›
      · simp at h

theorem isNumeralOctet_of_onDigit {part next : Numeral.Part} {otherwise : Numeral.Outcome}
    (h : Numeral.onDigit b part otherwise = .more next)
    (hOther : otherwise = .more next → IsNumeralOctet b) : IsNumeralOctet b := by
  unfold Numeral.onDigit at h
  split at h
  · exact Or.inl ‹_›
  · exact hOther h

theorem isNumeralOctet_of_onLetter {next : Numeral.Part} (h : Numeral.onLetter b = .more next) :
    IsNumeralOctet b := by
  unfold Numeral.onLetter at h
  split at h
  · rename_i hLetter
    simp only [Bool.or_eq_true, decide_eq_true_eq] at hLetter
    simp [IsNumeralOctet, hLetter]
  · simp at h

theorem isNumeralOctet_of_onPoint {next : Numeral.Part} (h : Numeral.onPoint b = .more next) :
    IsNumeralOctet b := by
  unfold Numeral.onPoint at h
  split at h
  · rename_i hPoint
    simp [IsNumeralOctet, hPoint]
  · exact isNumeralOctet_of_onLetter h

theorem isNumeralOctet_of_step {part next : Numeral.Part} (h : Numeral.step part b = .more next) :
    IsNumeralOctet b := by
  cases part with
  | sign =>
    change (if b = octet '0' then _ else _) = _ at h
    split at h
    · rename_i hZero
      exact Or.inl (by rw [hZero]; decide)
    · exact isNumeralOctet_of_onDigit h (by simp)
  | zero =>
    change (if isDigitOctet b then _ else _) = _ at h
    split at h
    · simp at h
    · exact isNumeralOctet_of_onPoint h
  | whole => exact isNumeralOctet_of_onDigit h isNumeralOctet_of_onPoint
  | point => exact isNumeralOctet_of_onDigit h (by simp)
  | fraction => exact isNumeralOctet_of_onDigit h isNumeralOctet_of_onLetter
  | letter =>
    change (if b = octet '+' || b = octet '-' then _ else _) = _ at h
    split at h
    · rename_i hSign
      simp only [Bool.or_eq_true, decide_eq_true_eq] at hSign
      rcases hSign with hSign | hSign <;> simp [IsNumeralOctet, hSign]
    · exact isNumeralOctet_of_onDigit h (by simp)
  | powerSign => exact isNumeralOctet_of_onDigit h (by simp)
  | power => exact isNumeralOctet_of_onDigit h (by simp)

/-! ## Where a numeral is being read -/

def Mode.InNumeral (mode : Mode) : Prop := ∃ slot part text, mode = .numeral slot part text

theorem mode_of_onScalar {scalar : Scalar} (h : s.onScalar slot scalar = .ok t) :
    t.mode = .after := by
  obtain ⟨context, -, rfl⟩ := onScalar_eq_ok_iff.mp h
  rfl

theorem mode_of_onText (h : s.onText slot text = .ok t) : t.mode = .after := by
  unfold State.onText at h
  split at h
  · obtain rfl := Except.ok.inj h
    rfl
  · split at h
    · exact mode_of_onScalar h
    · simp at h

theorem exists_of_asked {α : Type} {asked : Except Fault α} {next : α → State}
    (h : (do return next (← asked)) = .ok t) : ∃ answer, asked = .ok answer ∧ next answer = t := by
  cases asked with
  | error e => cases h
  | ok answer => exact ⟨answer, rfl, Except.ok.inj h⟩

theorem mode_of_onCloseArray (h : s.onCloseArray = .ok t) : t.mode = .after := by
  unfold State.onCloseArray at h
  split at h
  · obtain rfl := Except.ok.inj h
    rfl
  · simp at h
  · obtain ⟨context, -, rfl⟩ := exists_of_asked h
    rfl

theorem mode_of_onCloseObject (h : s.onCloseObject = .ok t) : t.mode = .after := by
  unfold State.onCloseObject at h
  split at h
  · obtain rfl := Except.ok.inj h
    rfl
  · simp at h
  · obtain ⟨context, -, rfl⟩ := exists_of_asked h
    rfl

inductive Mode.Begins : Mode → Prop
  | value (slot : Slot) (orEnd : Bool) : Begins (.value slot orEnd)
  | key (orEnd : Bool) : Begins (.key orEnd)

theorem begins_of_onComma (h : s.onComma = .ok t) : t.mode.Begins := by
  unfold State.onComma at h
  split at h
  · obtain rfl := Except.ok.inj h
    exact .value _ _
  · obtain rfl := Except.ok.inj h
    exact .key _
  · obtain ⟨mode, hComma, rfl⟩ := exists_of_asked h
    unfold Context.afterComma at hComma
    repeat' split at hComma
    all_goals simp at hComma
    all_goals subst hComma; constructor

theorem begins_of_onOpenArray (h : s.onOpenArray slot = .ok t) : t.mode.Begins := by
  unfold State.onOpenArray at h
  split at h
  · obtain rfl := Except.ok.inj h
    exact .value _ _
  · obtain ⟨opened, hOpen, rfl⟩ := exists_of_asked h
    unfold Context.openArray at hOpen
    split at hOpen
    all_goals simp at hOpen
    all_goals rw [← hOpen]; constructor

theorem begins_of_onOpenObject (h : s.onOpenObject slot = .ok t) : t.mode.Begins := by
  unfold State.onOpenObject at h
  split at h
  · obtain rfl := Except.ok.inj h
    exact .key _
  · obtain ⟨opened, hOpen, rfl⟩ := exists_of_asked h
    unfold Context.openObject at hOpen
    split at hOpen
    all_goals simp at hOpen
    all_goals rw [← hOpen]; constructor

theorem onAfter_cases (h : s.onAfter b = .ok t) : t.mode = .after ∨ t.mode.Begins := by
  unfold State.onAfter at h
  split at h
  · obtain rfl := Except.ok.inj h
    exact Or.inl rfl
  split at h
  · exact Or.inr (begins_of_onComma h)
  split at h
  · exact Or.inl (mode_of_onCloseArray h)
  split at h
  · exact Or.inl (mode_of_onCloseObject h)
  · simp at h

theorem not_inNumeral_after : ¬ Mode.after.InNumeral := by
  rintro ⟨_, _, _, h⟩
  simp at h

theorem Mode.Begins.not_inNumeral {mode : Mode} (h : mode.Begins) : ¬ mode.InNumeral := by
  rintro ⟨_, _, _, rfl⟩
  cases h

theorem not_inNumeral_of_onAfter (h : s.onAfter b = .ok t) : ¬ t.mode.InNumeral := by
  rcases onAfter_cases h with hAfter | hBegins
  · rw [hAfter]
    exact not_inNumeral_after
  · exact hBegins.not_inNumeral

theorem isNumeralOctet_of_onValue (h : s.onValue slot b = .ok t) (hNumeral : t.mode.InNumeral) :
    IsNumeralOctet b := by
  rcases onValue_cases h with ⟨-, hArray⟩ | ⟨-, hObject⟩ | ⟨-, rfl⟩ | ⟨_, _, _, -, rfl⟩ |
    ⟨part, hBegin, -⟩
  · exact absurd hNumeral (begins_of_onOpenArray hArray).not_inNumeral
  · exact absurd hNumeral (begins_of_onOpenObject hObject).not_inNumeral
  · simp [Mode.InNumeral] at hNumeral
  · simp [Mode.InNumeral] at hNumeral
  · exact isNumeralOctet_of_begin hBegin

theorem State.isNumeralOctet_of_step (h : s.step b = .ok t) (hNumeral : t.mode.InNumeral) :
    IsNumeralOctet b := by
  have hAfter : t.mode ≠ .after := by
    intro hMode
    exact not_inNumeral_after (hMode ▸ hNumeral)
  obtain ⟨context, skipping, mode⟩ := s
  cases mode with
  | value slot orEnd =>
    by_cases hb : isSpace b = true
    · rw [skips_value b hb] at h
      obtain rfl := Except.ok.inj h
      simp [Mode.InNumeral] at hNumeral
    · rw [step_value (by simpa using hb)] at h
      split at h
      · exact absurd (mode_of_onCloseArray h) hAfter
      · exact isNumeralOctet_of_onValue h hNumeral
  | literal slot scalar next rest =>
    change (if b = next then _ else _) = _ at h
    split at h
    · cases rest with
      | nil => exact absurd (mode_of_onScalar h) hAfter
      | cons c cs =>
        obtain rfl := Except.ok.inj h
        simp [Mode.InNumeral] at hNumeral
    · simp at h
  | numeral slot part text =>
    unfold State.step at h
    cases hStep : Numeral.step part b with
    | more next => exact Metadata.isNumeralOctet_of_step hStep
    | ended =>
      simp only [hStep] at h
      obtain ⟨ended, -, h⟩ := bind_eq_ok_iff.mp h
      exact absurd hNumeral (not_inNumeral_of_onAfter h)
    | refused => simp [hStep] at h
  | quoted slot position text =>
    unfold State.step at h
    simp only at h
    split at h
    · obtain rfl := Except.ok.inj h
      simp [Mode.InNumeral] at hNumeral
    · exact absurd (mode_of_onText h) hAfter
    · simp at h
  | key orEnd =>
    change (if isSpace b then Except.ok _
      else if orEnd && b = octet '\x7d' then State.onCloseObject _
      else if b = octet '"' then Except.ok _ else _) = _ at h
    split at h
    · obtain rfl := Except.ok.inj h
      simp [Mode.InNumeral] at hNumeral
    split at h
    · exact absurd (mode_of_onCloseObject h) hAfter
    split at h
    · obtain rfl := Except.ok.inj h
      simp [Mode.InNumeral] at hNumeral
    · simp at h
  | quotedKey position text =>
    unfold State.step at h
    simp only at h
    split at h
    · obtain rfl := Except.ok.inj h
      simp [Mode.InNumeral] at hNumeral
    · obtain ⟨slot, rfl⟩ := exists_slot_of_onKey h
      simp [Mode.InNumeral] at hNumeral
    · simp at h
  | colon slot =>
    change (if isSpace b then Except.ok _ else if b = octet ':' then Except.ok _ else _) = _ at h
    split at h
    · obtain rfl := Except.ok.inj h
      simp [Mode.InNumeral] at hNumeral
    split at h
    · obtain rfl := Except.ok.inj h
      simp [Mode.InNumeral] at hNumeral
    · simp at h
  | after => exact absurd hNumeral (not_inNumeral_of_onAfter h)

theorem endsInNumeral_of_run (h : State.initial.run front = .ok t)
    (hNumeral : t.mode.InNumeral) : EndsInNumeral front := by
  rcases List.eq_nil_or_concat front with rfl | ⟨before, b, rfl⟩
  · obtain rfl := Except.ok.inj h
    simp [State.initial, Mode.InNumeral] at hNumeral
  · rw [List.concat_eq_append, State.run_append] at h
    obtain ⟨s, -, h⟩ := bind_eq_ok_iff.mp h
    rw [run_singleton] at h
    exact ⟨b, by simp, State.isNumeralOctet_of_step h hNumeral⟩

/-! ## Images in parts -/

theorem finish_eq_error (h : s.finish = .error fault) (hNumeral : ¬ s.mode.InNumeral) :
    fault = .truncated := by
  unfold State.finish at h
  split at h
  · simp at h
  · rename_i hMode hOpen
    exact absurd ⟨_, _, _, hMode⟩ hNumeral
  · exact (Except.error.inj h).symm

/-- A fault other than the early end is met at an octet, and all that comes later is not read. -/
theorem ofImage_append_of_fault (hWhole : ¬ EndsInNumeral front)
    (h : ofImage front = .error fault) (hFault : fault ≠ .truncated) :
    ofImage (front ++ rest) = .error fault := by
  unfold ofImage at h ⊢
  rw [State.run_append]
  cases hRun : State.initial.run front with
  | error e =>
    rw [hRun] at h
    exact h
  | ok t =>
    rw [hRun] at h
    have hNumeral : ¬ t.mode.InNumeral := fun hNumeral =>
      hWhole (endsInNumeral_of_run hRun hNumeral)
    exact absurd (finish_eq_error h hNumeral) hFault

theorem run_of_ofImage (h : ofImage front = .ok m) :
    State.initial.run front = .ok ⟨.finished m, [], .after⟩ := by
  obtain ⟨w, text, w', rfl, hSpace, hSpace', hModule⟩ := ofImage_eq_ok_iff.mp h
  have hBefore : State.initial.run w = .ok State.initial := run_space skips_value hSpace
  have hValue : State.initial.run text = .ok ⟨.finished m, [], .after⟩ :=
    reads_module.run m text false hModule
  rw [List.append_assoc, run_of_run hBefore, run_of_run hValue, run_space skips_after hSpace']

/-- An image that is complete goes on with white space only. -/
theorem ofImage_append_of_ok (h : ofImage front = .ok m') :
    ofImage (front ++ rest) = .ok m ↔ Space rest ∧ m' = m := by
  change Accepts State.initial (front ++ rest) m ↔ _
  rw [accepts_append (run_of_ofImage h)]
  exact accepts_finished

theorem ofImage_of_append (hWhole : ¬ EndsInNumeral front)
    (h : ofImage (front ++ rest) = .ok m) :
    ofImage front = .error .truncated ∨ Space rest ∧ ofImage front = .ok m := by
  cases hFront : ofImage front with
  | error fault =>
    by_cases hFault : fault = .truncated
    · exact Or.inl (by rw [hFault])
    · rw [ofImage_append_of_fault hWhole hFront hFault] at h
      simp at h
  | ok m' =>
    obtain ⟨hSpace, rfl⟩ := (ofImage_append_of_ok hFront).mp h
    exact Or.inr ⟨hSpace, rfl⟩

end ScriptBuild.Metadata

namespace ScriptBuild.MetadataLoader

open Json (Space)
open Metadata (EndsInNumeral)

variable {fs fs' : FileSystem} {p p' : Path} {front rest contents : Bytes} {m : Metadata}
  {fault : Metadata.Fault}

theorem image_eq_ok_iff (hRead : fs.read p = .ok contents) :
    image fs p = .ok m ↔ Metadata.ofImage contents = .ok m := by
  rw [image_of_read hRead]
  cases Metadata.ofImage contents <;> simp [Except.mapError]

theorem image_eq_error_iff (hRead : fs.read p = .ok contents) :
    image fs p = .error (.invalid fault) ↔ Metadata.ofImage contents = .error fault := by
  rw [image_of_read hRead]
  cases Metadata.ofImage contents <;> simp [Except.mapError]

/-- A faulty image stays faulty in the same way whatever comes behind it, and an image that can be
loaded is found to end too early if more than white space is cut off, unless it is cut within a
numeral. Wherever it is cut, no part of it is indexed as another module. -/
theorem image_of_cut (hRead : fs.read p = .ok front)
    (hRead' : fs'.read p' = .ok (front ++ rest)) :
    (¬ EndsInNumeral front →
      (∀ fault, fault = .malformed ∨ fault = .mismatched →
        image fs p = .error (.invalid fault) → image fs' p' = .error (.invalid fault)) ∧
      ∀ m, image fs' p' = .ok m →
        image fs p = .error (.invalid .truncated) ∨ Space rest ∧ image fs p = .ok m) ∧
    ∀ extension extension' root root' index index',
      ModuleIndex.build fs image extension root = .ok index →
      ModuleIndex.build fs' image extension' root' = .ok index' →
      ∀ m ∈ index.modules, ∀ m' ∈ index'.modules, m.location = p → m'.location = p' →
        m.metadata = m'.metadata := by
  constructor
  · intro hWhole
    constructor
    · intro fault hFault
      rw [image_eq_error_iff hRead, image_eq_error_iff hRead']
      intro h
      refine Metadata.ofImage_append_of_fault hWhole h ?_
      rcases hFault with rfl | rfl <;> simp
    · intro m
      rw [image_eq_ok_iff hRead', image_eq_error_iff hRead, image_eq_ok_iff hRead]
      exact Metadata.ofImage_of_append hWhole
  · rintro extension extension' root root' index index' hBuild hBuild' m hm m' hm' rfl rfl
    have hFront := (image_eq_ok_iff hRead).mp (ModuleIndex.load_of_mem_modules hBuild hm)
    have hAll := (image_eq_ok_iff hRead').mp (ModuleIndex.load_of_mem_modules hBuild' hm')
    exact ((Metadata.ofImage_append_of_ok hFront).mp hAll).2

/-- An image of which the last octets are missing ends too early, here within a member. -/
theorem image_of_lost_end :
    let front := Text.utf8 "[\"Lib\", [\x7b\"name\": \"Socket\", \"size\": 12, "
    let rest := Text.utf8 "\"namespace\": null\x7d]]"
    let fs := (FileSystem.empty.put ["lost.dll"] (.file front false)).put ["m.dll"]
      (.file (front ++ rest) false)
    image fs ⟨"/m.dll"⟩ = .ok ⟨some "Lib", [⟨"Socket", none⟩]⟩ ∧
      image fs ⟨"/lost.dll"⟩ = .error (.invalid .truncated) := by
  intro front rest fs
  have hRead : fs.read ⟨"/lost.dll"⟩ = .ok front := by decide +kernel
  have hRead' : fs.read ⟨"/m.dll"⟩ = .ok (front ++ rest) := by decide +kernel
  have hLast : front.getLast? = some (Metadata.octet ' ') := by decide +kernel
  have hWhole : ¬ EndsInNumeral front := by
    rintro ⟨b, hb, hOctet⟩
    obtain rfl := Option.some.inj (hLast.symm.trans hb)
    revert hOctet
    unfold Metadata.IsNumeralOctet
    decide
  have hImage : image fs ⟨"/m.dll"⟩ = .ok ⟨some "Lib", [⟨"Socket", none⟩]⟩ := by decide +kernel
  have hQuote : Metadata.octet '"' ∈ rest := by decide +kernel
  refine ⟨hImage, ?_⟩
  rcases ((image_of_cut hRead hRead').1 hWhole).2 _ hImage with hCut | ⟨hBlank, -⟩
  · exact hCut
  · exact absurd (hBlank _ hQuote) (by decide)

end ScriptBuild.MetadataLoader
