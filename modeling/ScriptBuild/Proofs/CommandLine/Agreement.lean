import ScriptBuild.CommandLine.Run
import ScriptBuild.Proofs.Build.Log
import ScriptBuild.Proofs.Build.Product
import ScriptBuild.Proofs.CommandLine.Request
import ScriptBuild.Proofs.Index.Build

/-!
# The command line and the library

A command line that is accepted as a request does what the library does with the values given. Where
there is no index, nothing else of the request matters: the program ends before it has a look at a
script or starts a compiler. Otherwise it ends as the build ends, and the status, the two texts and
the files tell how; the text on standard error comes after the log, and the log tells of the index,
of an environment that is not understood, and of the build. All this holds under either profile and
for every logger.
-/

namespace ScriptBuild

set_option autoImplicit false

open Text

theorem ExternalCompiler.location_of_ok {compiler : Compiler} {external : ExternalCompiler}
    {tools : Toolchain} {output : Path} {sources : List Path} {fs : FileSystem} {m : CompiledModule}
    (h : (compiler.compile (external.backend tools) output sources fs ()).answer = .ok m) :
    m.location = if compiler.options.mode = .debug then some output else none := by
  obtain ⟨_, _, written, location, _, exit, -, -, hStarted⟩ := exists_started h
  obtain ⟨-, -, hLocation⟩ := image_of_started hStarted h
  obtain ⟨-, resolution, ready, cleared, -, hDestination, -⟩ := hStarted
  rw [hLocation]
  generalize compiler.options.mode = mode at hDestination
  cases hDestination with
  | disk => rfl
  | memory => rfl

namespace CommandLine

/-- The mode of a build: the one given, or else the one that the environment names, or else the
one of the profile. -/
inductive ChosenMode (profile : Profile) (values : List String) (environment : Option String) :
    BuildMode → Prop
  | given {text : String} {mode : BuildMode} (hGiven : values = [text])
      (hSpells : Spells mode.word text) : ChosenMode profile values environment mode
  | inherited {text : String} {mode : BuildMode} (hNone : values = [])
      (hSet : environment = some text) (hSpells : Spells mode.word text) :
      ChosenMode profile values environment mode
  | fallback (hNone : values = [])
      (hUnnamed : ∀ text mode, environment = some text → ¬ Spells (BuildMode.word mode) text) :
      ChosenMode profile values environment (.ofProfile profile)

/-- What is logged of the environment: a warning if it is set and names no mode. -/
inductive Warned (profile : Profile) (environment : Option String) : List Event → Prop
  | ignored {text : String} (hSet : environment = some text)
      (hUnnamed : ∀ mode, ¬ Spells (BuildMode.word mode) text) :
      Warned profile environment [.modeIgnored (.unknownMode (plainWord text)) (.ofProfile profile)]
  | nothing (hNamed : ∀ text, environment = some text → ∃ mode, Spells (BuildMode.word mode) text) :
      Warned profile environment []

def compiledLine (mode : BuildMode) (output : Path) (length : Nat) : String :=
  let place :=
    match mode with
    | .debug => output.text
    | .release => "in memory"
  "Compiled " ++ place ++ " (" ++ toString length ++ " bytes)\n"

def messages (message : String) (cause? : Option FileError) : List String :=
  message :: (cause?.map FileError.message).toList

def errorLine (messages : List String) : String := "Error: " ++ ": ".intercalate messages ++ "\n"

def Refuses (e : BuildError) : Prop := ∃ diagnostics, e = .compilation diagnostics

/-- The events of note of a run that has an index: the modules set aside, the index, a warning
about the environment, and the build. -/
def Tells (log : List Event) (profile : Profile) (environment : Option String)
    (index : ModuleIndex) (request : Request) (mode : BuildMode)
    (answer : Except BuildError CompiledModule) : Prop :=
  ∃ warning, Warned profile environment warning ∧
    notable log = index.skipped.map .moduleSkipped ++
      .indexed index.modules.length request.indexRoot index.skipped.length :: (warning ++
        .compiling request.sources.length request.output mode :: Compiler.ending answer)

/-- The program has ended as a build in some mode has, with the log before its text on standard
error. -/
structure Reports (exit : Exit) (log : Bytes) (mode : BuildMode) (output : Path)
    (built : Outcome Unit BuildError CompiledModule) : Prop where
  files : exit.files = built.files
  zero_iff : exit.status = 0 ↔ ∃ m, built.answer = .ok m
  one_iff : exit.status = 1 ↔ ∃ e, built.answer = .error e ∧ Refuses e
  two_iff : exit.status = 2 ↔ ∃ e, built.answer = .error e ∧ ¬ Refuses e
  compiled : ∀ m, built.answer = .ok m →
    exit.stdout = utf8 (compiledLine mode output m.image.length) ∧ exit.stderr = log
  refused : ∀ diagnostics, built.answer = .error (.compilation diagnostics) →
    exit.stdout = [] ∧ exit.stderr = log ++ utf8 (Diagnostic.report diagnostics ++ "\n")
  failed : ∀ e, built.answer = .error e → ¬ Refuses e →
    exit.stdout = [] ∧ exit.stderr = log ++ utf8 (errorLine (messages e.message e.cause?))

variable {args : List String} {environment : Option String} {text : String} {mode : BuildMode}
  {items : List Item} {request : Request} {e : BuildError} {tools : Toolchain} {fs : FileSystem}
  {m : CompiledModule} {output : Path} {built : Outcome Unit BuildError CompiledModule}
  {profile : Profile} {logger : Logger} {log : Bytes} {index : ModuleIndex}

/-! ## The mode -/

theorem eq_of_spells {mode' : BuildMode} (h : Spells mode.word text) (h' : Spells mode'.word text) :
    mode = mode' := by
  rw [← BuildMode.ofWord_eq_ok_iff] at h h'
  rw [h] at h'
  exact Except.ok.inj h'

theorem ofEnvironment_of_spells (h : Spells mode.word text) :
    BuildMode.ofEnvironment (some text) profile = mode := by
  rw [BuildMode.ofEnvironment, BuildMode.ofWord_eq_ok_iff.mpr h]

theorem ofEnvironment_of_unnamed
    (h : ∀ text mode, environment = some text → ¬ Spells (BuildMode.word mode) text) :
    BuildMode.ofEnvironment environment profile = .ofProfile profile := by
  cases environment with
  | none => rfl
  | some text =>
    rw [BuildMode.ofEnvironment, BuildMode.ofWord_eq_error fun mode => h text mode rfl]

theorem chosenMode_ofEnvironment (profile : Profile) (environment : Option String) :
    ChosenMode profile [] environment (BuildMode.ofEnvironment environment profile) := by
  by_cases hNamed : ∃ text mode, environment = some text ∧ Spells (BuildMode.word mode) text
  · obtain ⟨text, mode, rfl, hSpells⟩ := hNamed
    rw [ofEnvironment_of_spells hSpells]
    exact .inherited rfl rfl hSpells
  · have hUnnamed : ∀ text mode, environment = some text → ¬ Spells (BuildMode.word mode) text := by
      intro text mode hSet hSpells
      exact hNamed ⟨text, mode, hSet, hSpells⟩
    rw [ofEnvironment_of_unnamed hUnnamed]
    exact .fallback rfl hUnnamed

theorem chosenMode_iff (h : request.Holds items) :
    ChosenMode profile (given .mode items) environment mode ↔
      mode = request.mode.getD (BuildMode.ofEnvironment environment profile) := by
  have hMode := h.mode
  revert hMode
  generalize given .mode items = values
  generalize request.mode = chosen
  intro hMode
  cases hMode with
  | @given text _ hMeans =>
    obtain ⟨m, rfl, hm⟩ := hMeans
    constructor
    · intro hChosen
      cases hChosen with
      | given hGiven hSpells =>
        obtain rfl := List.singleton_inj.mp hGiven
        exact eq_of_spells hSpells hm
      | inherited hNone => cases hNone
      | fallback hNone => cases hNone
    · intro hSame
      rw [hSame]
      exact .given rfl hm
  | absent =>
    constructor
    · intro hChosen
      cases hChosen with
      | given hGiven => cases hGiven
      | inherited _ hSet hSpells => rw [hSet, Option.getD_none, ofEnvironment_of_spells hSpells]
      | fallback _ hUnnamed => rw [Option.getD_none, ofEnvironment_of_unnamed hUnnamed]
    · intro hSame
      rw [hSame]
      exact chosenMode_ofEnvironment profile environment

theorem warned_log (profile : Profile) (environment : Option String) :
    Warned profile environment (BuildMode.log profile environment) := by
  cases environment with
  | none =>
    refine .nothing ?_
    intro text hSet
    cases hSet
  | some text =>
    by_cases hNamed : ∃ mode, Spells (BuildMode.word mode) text
    · obtain ⟨mode, hSpells⟩ := hNamed
      rw [BuildMode.log, BuildMode.ofWord_eq_ok_iff.mpr hSpells]
      refine .nothing ?_
      intro text' hSet
      obtain rfl := Option.some.inj hSet
      exact ⟨mode, hSpells⟩
    · have hUnnamed : ∀ mode, ¬ Spells (BuildMode.word mode) text := not_exists.mp hNamed
      rw [BuildMode.log, BuildMode.ofWord_eq_error hUnnamed]
      exact .ignored rfl hUnnamed

theorem Warned.notable {warning : List Event} (h : Warned profile environment warning) :
    notable warning = warning := by
  cases h with
  | ignored => rfl
  | nothing => rfl

/-! ## The end of a build -/

theorem errorText_eq (message : String) (cause? : Option FileError) :
    errorText message cause? = errorLine (messages message cause?) := by
  cases cause? with
  | none => simp [errorText, errorLine, messages]
  | some cause => simp [errorText, errorLine, messages, String.append_assoc]

theorem failureText_eq (e : BuildError) : failureText e = errorLine (messages e.message e.cause?) :=
  errorText_eq ..

theorem indexFailureText_eq (e : IndexError) : indexFailureText e =
    errorLine ("failed to build module index" :: messages e.message e.cause?) := by
  rw [indexFailureText, errorText_eq, errorLine, errorLine, messages, messages]
  cases e.cause? with
  | none => simp [String.append_assoc]
  | some cause => simp [String.append_assoc]

theorem verdict_of_not_refuses (h : ¬ Refuses e) : verdict (.error e) = (2, "", failureText e) := by
  cases e with
  | compilation diagnostics => exact absurd ⟨diagnostics, rfl⟩ h
  | _ => rfl

theorem successText_eq (hLocation : m.location = if mode = .debug then some output else none) :
    successText m = compiledLine mode output m.image.length := by
  rw [successText, hLocation]
  cases mode <;> rfl

theorem utf8_empty : utf8 "" = [] := rfl

/-- The status, the texts and the files at the end report the build. -/
theorem reports_verdict (hLocation : ∀ m, built.answer = .ok m →
      m.location = if mode = .debug then some output else none) (log : Bytes) :
    Reports ⟨(verdict built.answer).1, utf8 (verdict built.answer).2.1,
      log ++ utf8 (verdict built.answer).2.2, built.files⟩ log mode output built := by
  cases hAnswer : built.answer with
  | ok m =>
    have hEnd : verdict (.ok m) = (0, compiledLine mode output m.image.length, "") := by
      rw [verdict, successText_eq (hLocation m hAnswer)]
    rw [hEnd]
    constructor
    · rfl
    · simp [hAnswer]
    · simp [hAnswer]
    · simp [hAnswer]
    · intro m' hBuilt
      obtain rfl := Except.ok.inj (hAnswer.symm.trans hBuilt)
      exact ⟨rfl, by rw [utf8_empty, List.append_nil]⟩
    · simp [hAnswer]
    · simp [hAnswer]
  | error e =>
    by_cases hRefuses : Refuses e
    · obtain ⟨diagnostics, rfl⟩ := hRefuses
      have hEnd : verdict (.error (.compilation diagnostics)) =
          (1, "", Diagnostic.report diagnostics ++ "\n") := rfl
      rw [hEnd]
      constructor
      · rfl
      · simp [hAnswer]
      · simp [hAnswer, Refuses]
      · simp [hAnswer, Refuses]
      · simp [hAnswer]
      · intro ds hBuilt
        have hSame := Except.error.inj (hAnswer.symm.trans hBuilt)
        obtain rfl := BuildError.compilation.inj hSame
        exact ⟨utf8_empty, rfl⟩
      · intro e hBuilt hNot
        obtain rfl := Except.error.inj (hAnswer.symm.trans hBuilt)
        exact absurd ⟨diagnostics, rfl⟩ hNot
    · rw [verdict_of_not_refuses hRefuses]
      constructor
      · rfl
      · simp [hAnswer]
      · simp [hAnswer, hRefuses]
      · simp [hAnswer, hRefuses]
      · simp [hAnswer]
      · intro ds hBuilt
        obtain rfl := Except.error.inj (hAnswer.symm.trans hBuilt)
        exact absurd ⟨ds, rfl⟩ hRefuses
      · intro e' hBuilt _
        obtain rfl := Except.error.inj (hAnswer.symm.trans hBuilt)
        exact ⟨utf8_empty, by rw [failureText_eq]⟩

/-- The events of note come from the index, from the environment and from the build. -/
theorem tells_log (hGiven : request.sources ≠ []) (index : ModuleIndex) (tools : Toolchain)
    (environment : Option String) (fs : FileSystem) (profile : Profile) :
    Tells (request.log index tools environment fs profile) profile environment index request
      (request.mode.getD (.ofEnvironment environment profile))
      ((request.compilerWith index environment profile).compile
        (ExternalCompiler.backend ⟨request.compiler, []⟩ tools) request.output request.sources fs
        ()).answer := by
  have hWarned := warned_log profile environment
  refine ⟨_, hWarned, ?_⟩
  rw [Request.log, notable_append, notable_append, ModuleIndex.notable_log, hWarned.notable,
    Compiler.notable_log hGiven, ModuleIndex.log, List.append_assoc, List.append_assoc,
    List.singleton_append]
  rfl

theorem run_of_error {e : IndexError} (h : Request.ofArguments args = .ok request)
    (hIndex : ModuleIndex.build fs .image request.extension request.indexRoot = .error e) :
    run tools environment args fs profile logger =
      ⟨2, [], utf8 (errorLine ("failed to build module index" :: messages e.message e.cause?)),
        fs⟩ := by
  rw [run, h]
  simp only [Request.run, hIndex, indexFailureText_eq]

/-- Without an index the request does not matter, and nothing is logged; otherwise the program
reports, after its log, the build that the values given ask for. -/
theorem run_agrees (h : Request.ofArguments args = .ok request) (fs : FileSystem) :
    request.Holds (itemsOf args) ∧
    (∀ e, ModuleIndex.build fs .image request.extension request.indexRoot = .error e →
      ∀ args' request', Request.ofArguments args' = .ok request' →
        request'.extension = request.extension → request'.indexRoot = request.indexRoot →
          ∀ tools environment profile logger, run tools environment args' fs profile logger =
            ⟨2, [],
              utf8 (errorLine ("failed to build module index" :: messages e.message e.cause?)),
              fs⟩) ∧
    ∀ index, ModuleIndex.build fs .image request.extension request.indexRoot = .ok index →
      ∀ tools environment profile, ∃ mode log,
        (∀ m, ChosenMode profile (given .mode (itemsOf args)) environment m ↔ m = mode) ∧
        Logger.off.write log = [] ∧
        let built := Compiler.compile ⟨index, request.loaded, ⟨mode, request.policy⟩⟩
          (ExternalCompiler.backend ⟨request.compiler, []⟩ tools) request.output request.sources
          fs ()
        Tells log profile environment index request mode built.answer ∧
        ∀ logger, Reports (run tools environment args fs profile logger) (logger.write log) mode
          request.output built := by
  have hHolds := Request.holds_of_ofArguments h
  refine ⟨hHolds, ?_, ?_⟩
  · intro e hIndex args' request' hAccepted hExtension hRoot tools environment profile logger
    rw [← hExtension, ← hRoot] at hIndex
    exact run_of_error hAccepted hIndex
  · intro index hIndex tools environment profile
    refine ⟨_, _, fun m => chosenMode_iff hHolds, Logger.write_off _,
      tells_log (Request.sources_of_ofArguments h) index tools environment fs profile, ?_⟩
    intro logger
    rw [run, h]
    simp only [Request.run, hIndex]
    apply reports_verdict
    intro m hBuilt
    exact ExternalCompiler.location_of_ok hBuilt

/-- The mode given on the command line goes before the one of the environment, also where the default
is another. Without the directory of the index nothing is made at all. -/
theorem run_of_given_mode :
    let args := ["--index-root=lib", "-oout.dll", "--mode", " Debug ", "--loaded", "host.dll",
      "a.cs"]
    let request : Request := ⟨[⟨"a.cs"⟩], ⟨"out.dll"⟩, ⟨"lib"⟩, "dll", [⟨"host.dll"⟩], some .debug,
      .loadedAndMatched, "csc"⟩
    let tools : Toolchain := fun fs _ _ =>
      .ok ⟨0, [], [], fs.put ["out.dll"] (.file [1, 2, 3] false)⟩
    let fs := (FileSystem.empty.put ["a.cs"] (.file (utf8 "using N;") false)).put ["lib"] .directory
    Request.ofArguments args = .ok request ∧
      (run tools (some "release") args fs .optimised).status = 0 ∧
      (run tools (some "release") args fs .optimised).stdout =
        utf8 "Compiled out.dll (3 bytes)\n" ∧
      (run tools (some "release") args fs .optimised).stderr = [] ∧
      run tools (some "release") args .empty = ⟨2, [], utf8 (errorLine
        ["failed to build module index", (IndexError.rootNotFound ⟨"lib"⟩).message]), .empty⟩ := by
  intro args request tools fs
  have hRequest : Request.ofArguments args = .ok request := by decide +kernel +revert
  have hGiven : given .mode (itemsOf args) = [" Debug "] := by decide +kernel +revert
  have hSpells : Spells BuildMode.debug.word " Debug " :=
    BuildMode.ofWord_eq_ok_iff.mp (by decide +kernel)
  have hMissing : ModuleIndex.build .empty .image "dll" ⟨"lib"⟩ =
      .error (.rootNotFound ⟨"lib"⟩) :=
    ModuleIndex.build_of_not_directory (by decide +kernel)
  have hAnswer : (Compiler.compile ⟨ModuleIndex.ofFiles fs .image [], [⟨"host.dll"⟩],
      ⟨.debug, .loadedAndMatched⟩⟩ (ExternalCompiler.backend ⟨"csc", []⟩ tools) ⟨"out.dll"⟩
      [⟨"a.cs"⟩] fs ()).answer = .ok ⟨[1, 2, 3], some ⟨"out.dll"⟩⟩ := by
    decide +kernel +revert
  have hIndex : ModuleIndex.build fs .image "dll" ⟨"lib"⟩ =
      .ok (ModuleIndex.ofFiles fs .image []) := by
    have hWalk : fs.walk true ⟨"lib"⟩ = .ok (.entry [] "lib", 40) := by decide +kernel +revert
    have hNode : fs.node? ["lib"] = some .directory := by decide +kernel +revert
    have hChildren : fs.children ["lib"] = [] := by decide +kernel +revert
    have hFiles : fs.filesBelow "dll" 40 ["lib"] ⟨"lib"⟩ = [] := by
      rw [FileSystem.filesBelow_eq, hChildren, List.flatMap_nil]
    have hBuild : ModuleIndex.build fs .image "dll" ⟨"lib"⟩ = _ :=
      ModuleIndex.build_of_walk hWalk hNode
    have hSorted : ModuleIndex.sortPaths [] = [] := List.mergeSort_nil
    rw [hBuild, Place.location, List.nil_append, hFiles, hSorted]
  obtain ⟨-, -, hAgrees⟩ := run_agrees hRequest fs
  obtain ⟨mode, log, hMode, hOff, -, hRuns⟩ := hAgrees _ hIndex tools (some "release") .optimised
  obtain rfl : BuildMode.debug = mode := (hMode .debug).mp (.given hGiven hSpells)
  have hReports := hRuns .off
  obtain ⟨hOut, hErr⟩ := hReports.compiled _ hAnswer
  refine ⟨hRequest, hReports.zero_iff.mpr ⟨_, hAnswer⟩, ?_, ?_, ?_⟩
  · rw [hOut]
    rfl
  · rw [hErr, hOff]
  · exact (run_agrees hRequest .empty).2.1 _ hMissing args request hRequest rfl rfl tools _ _ _

end CommandLine

end ScriptBuild
