import ScriptBuild.Proofs.Build.Launch
import ScriptBuild.Proofs.File.Chain

/-!
# The directory of the output

The directory of the output is made with the directories on the way to it, each at a start of its
path. Nothing that is there is touched. If it can be made it is there afterwards, and making it
again changes nothing; if it cannot, and no `..` leads back out of what has been made, then nothing
has been made at all.
-/

namespace ScriptBuild.Compiler

set_option autoImplicit false

open FileSystem ExternalCompiler

variable {fs after : FileSystem} {output directory : Path} {result : Except BuildError Unit}

theorem makeOutputDirectory_eq_chain (hParent : output.parent? = some directory)
    (hText : directory.text ≠ "") (h : makeOutputDirectory fs output = (result, after)) :
    ∃ made, fs.makeChain directory.chain = (made, after) ∧
      result = made.mapError (.outputDirectory directory) := by
  rw [makeOutputDirectory, hParent] at h
  rcases hMade : fs.makeDirectories directory with ⟨made, after'⟩
  simp only [hMade, Prod.mk.injEq] at h
  obtain ⟨rfl, rfl⟩ := h
  rw [makeDirectories, if_neg hText] at hMade
  exact ⟨made, hMade, rfl⟩

/-- What is new is named by a start of the path of the directory. -/
theorem new_of_makeOutputDirectory (h : makeOutputDirectory fs output = (result, after))
    (location : Location) :
    after.node? location = fs.node? location ∨
      fs.node? location = none ∧ after.node? location = some .directory ∧
        ∃ directory p, output.parent? = some directory ∧
          p.text.toList <+: directory.text.toList ∧ p.segments <+: directory.segments ∧
          after.Names p location := by
  have hMade : fs.Made (outputChain output) after := by
    simpa [h] using made_of_makeOutputDirectory fs output
  rcases hMade.new location with hSame | ⟨hNone, hNew, p, hp, hNames⟩
  · exact Or.inl hSame
  · refine Or.inr ⟨hNone, hNew, ?_⟩
    unfold outputChain at hp
    cases hParent : output.parent? with
    | none => simp [hParent] at hp
    | some directory =>
      rw [hParent] at hp
      obtain ⟨hText, hSegments⟩ := prefix_of_mem_chain hp
      exact ⟨directory, p, rfl, hText, hSegments, hNames⟩

theorem isDirectory_of_makeOutputDirectory (hTree : fs.IsTree)
    (h : makeOutputDirectory fs output = (.ok (), after))
    (hParent : output.parent? = some directory) (hText : directory.text ≠ "") :
    after.isDirectory directory = true ∧ makeOutputDirectory after output = (.ok (), after) := by
  have hDrop : directory.dropSlashes = directory :=
    Path.dropSlashes_of_trimmed (Path.trimmed_of_parent? hParent hText)
  obtain ⟨made, hMade, hOk⟩ := makeOutputDirectory_eq_chain hParent hText h
  cases made with
  | error e => simp [Except.mapError] at hOk
  | ok done =>
    have hDirectory : after.isDirectory directory = true :=
      isDirectory_of_makeChain hTree hDrop hMade
    refine ⟨hDirectory, makeOutputDirectory_of_made hParent ?_⟩
    rw [makeDirectories, if_neg hText]
    exact makeChain_of_isDirectory hDrop hDirectory

theorem unchanged_of_makeOutputDirectory_error {e : BuildError} (hTree : fs.IsTree)
    (h : makeOutputDirectory fs output = (.error e, after)) (hUp : Segment.up ∉ output.segments) :
    after = fs := by
  cases hParent : output.parent? with
  | none => simp [makeOutputDirectory, hParent] at h
  | some directory =>
    by_cases hText : directory.text = ""
    · simp [makeOutputDirectory, hParent, makeDirectories, hText, Except.mapError] at h
    · obtain ⟨made, hMade, hError⟩ := makeOutputDirectory_eq_chain hParent hText h
      rcases fresh_of_makeChain hTree (Path.trimmed_of_parent? hParent hText) hText
        (not_up_of_parent hParent hUp) hMade with hSame | ⟨rfl, -⟩
      · exact hSame
      · simp [Except.mapError] at hError

/-- The directory is there already, or one of those on the way to it can be made. -/
theorem makeOutputDirectory_eq_ok_iff (hTree : fs.IsTree)
    (h : makeOutputDirectory fs output = (result, after)) (hUp : Segment.up ∉ output.segments)
    (hParent : output.parent? = some directory) (hText : directory.text ≠ "") :
    result = .ok () ↔ fs.isDirectory directory = true ∨
      ∃ p ∈ directory.chain, ∃ made, fs.makeDirectory p = .ok made := by
  have hTrimmed := Path.trimmed_of_parent? hParent hText
  obtain ⟨made, hMade, rfl⟩ := makeOutputDirectory_eq_chain hParent hText h
  constructor
  · intro hOk
    cases made with
    | error e => simp [Except.mapError] at hOk
    | ok done =>
      rcases exists_makeDirectory_of_makeChain hMade with rfl | hFirst
      · exact Or.inl (isDirectory_of_makeChain hTree (Path.dropSlashes_of_trimmed hTrimmed) hMade)
      · exact Or.inr hFirst
  · rintro (hThere | ⟨p, hp, first, hFirst⟩)
    · rw [Path.chain, makeChain_of_isDirectory (Path.dropSlashes_of_trimmed hTrimmed) hThere,
        Prod.mk.injEq] at hMade
      rw [← hMade.1]
      rfl
    · obtain ⟨-, rfl⟩ := makeChain_of_makeDirectory hTree hTrimmed hText
        (not_up_of_parent hParent hUp) hp hFirst hMade
      rfl

/-- The making of the directory of an output adds directories at starts of its path and changes
nothing else. It succeeds only if the directory is there then, which makes a second time
superfluous. Without a `..` in the path it succeeds where the directory is there already or one on
the way to it can be made, and fails only with the files as they were. -/
theorem makeOutputDirectory_effect (fs : FileTree)
    (hMade : makeOutputDirectory fs output = (result, after)) :
    fs.GrowsTo after ∧
    (∀ location, after.node? location = fs.node? location ∨
      fs.node? location = none ∧ after.node? location = some .directory ∧
        ∃ directory p, output.parent? = some directory ∧
          p.text.toList <+: directory.text.toList ∧ p.segments <+: directory.segments ∧
          after.Names p location) ∧
    (result = .ok () → ∀ directory, output.parent? = some directory → directory.text ≠ "" →
      after.isDirectory directory = true ∧ makeOutputDirectory after output = (.ok (), after)) ∧
    (Segment.up ∉ output.segments →
      (∀ e, result = .error e → after = fs) ∧
      ∀ directory, output.parent? = some directory → directory.text ≠ "" →
        (result = .ok () ↔ fs.isDirectory directory = true ∨
          ∃ p ∈ directory.chain, ∃ made, fs.makeDirectory p = .ok made)) := by
  refine ⟨?_, new_of_makeOutputDirectory hMade, ?_, ?_⟩
  · have hGrows := (made_of_makeOutputDirectory fs output).grows
    rwa [hMade] at hGrows
  · rintro rfl directory hParent hText
    exact isDirectory_of_makeOutputDirectory fs.isTree hMade hParent hText
  · intro hUp
    refine ⟨?_, fun directory hParent hText =>
      makeOutputDirectory_eq_ok_iff fs.isTree hMade hUp hParent hText⟩
    rintro e rfl
    exact unchanged_of_makeOutputDirectory_error fs.isTree hMade hUp

/-- Two directories are made behind a link; one that would have to be made in a file is not. -/
theorem directories_behind_link :
    let fs := ((FileSystem.empty.put ["d"] .directory).put ["l"] (.link ⟨"d"⟩)).put ["f"]
      (.file [1] false)
    let made := makeOutputDirectory fs ⟨"/l/x//y/b.dll"⟩
    let refused := makeOutputDirectory fs ⟨"/f/x/b.dll"⟩
    (∃ tree : FileTree, tree.toFileSystem = fs) ∧ made.1 = .ok () ∧ made.2.node? ["d", "x", "y"] = some .directory ∧
      made.2.node? ["l"] = some (.link ⟨"d"⟩) ∧ made.2.isDirectory ⟨"/l/x//y"⟩ = true ∧
      refused.1 = .error (.outputDirectory ⟨"/f/x"⟩ .notADirectory) ∧ refused.2 = fs := by
  intro fs made refused
  let tree : FileTree := ⟨fs, by decide +kernel, by decide +kernel⟩
  have hLink : fs.node? ["l"] = some (.link ⟨"d"⟩) := by
    decide +kernel +revert
  have hNew : made.2.node? ["d", "x", "y"] = some .directory := by
    decide +kernel +revert
  have hOk : made.1 = .ok () := by
    decide +kernel +revert
  have hRefused : refused.1 = .error (.outputDirectory ⟨"/f/x"⟩ .notADirectory) := by
    decide +kernel +revert
  have hRun : makeOutputDirectory fs ⟨"/l/x//y/b.dll"⟩ = (made.1, made.2) := rfl
  have hRun' : makeOutputDirectory fs ⟨"/f/x/b.dll"⟩ = (refused.1, refused.2) := rfl
  have hMade := makeOutputDirectory_effect tree hRun
  have hKept := makeOutputDirectory_effect tree hRun'
  refine ⟨⟨tree, rfl⟩, hOk, hNew, hMade.1.kept _ _ hLink, ?_, hRefused, ?_⟩
  · exact (hMade.2.2.1 hOk ⟨"/l/x//y"⟩ (by decide) (by decide)).1
  · exact (hKept.2.2.2 (by decide)).1 _ hRefused

-- a directory that `..` leads back out of is left behind when the rest cannot be made
example :
    let fs := FileSystem.empty.put ["f"] (.file [1] false)
    let refused := makeOutputDirectory fs ⟨"/d/../f/x/b.dll"⟩
    refused.1 ≠ .ok () ∧ refused.2.node? ["d"] = some .directory ∧ fs.node? ["d"] = none := by
  decide +kernel

end ScriptBuild.Compiler
