import ScriptBuild.Proofs.File.Operation
import ScriptBuild.Shell.Host

/-!
# What scripts do to files

Whatever script is run as a compiler, it leaves a file tree a file tree and the working directory
where it is, ends with the status of a process, and only adds to what it has written. A command can
do no more to the files than its redirections and the utilities do, and each of those only carries
out operations on files.
-/

namespace ScriptBuild

set_option autoImplicit false

open FileSystem

/-- Programs that leave a file tree behind and end with the status of a process. -/
structure Toolchain.Orderly (tools : Toolchain) : Prop where
  files : ∀ fs program args exit, tools fs program args = .ok exit → fs.EvolvesTo exit.files
  status : ∀ fs program args exit, tools fs program args = .ok exit → exit.status < 256

namespace Shell

variable {fs : FileSystem} {s after : Session} {name : String} {args : List String}
  {input : Bytes} {effect : Effect}

/-! ## Utilities -/

structure Effect.Follows (effect : Effect) (fs : FileSystem) : Prop where
  files : fs.EvolvesTo effect.files
  status : effect.status ≤ 1

theorem Effect.follows_unchanged (fs : FileSystem) (out : Bytes) :
    Effect.Follows { files := fs, out } fs := ⟨.refl fs, Nat.zero_le 1⟩

theorem Effect.follows_changed {changed : FileSystem} (h : fs.EvolvesTo changed) :
    Effect.Follows { files := changed } fs := ⟨h, Nat.zero_le 1⟩

theorem Effect.Follows.andAlso {first second : Effect} (h : first.Follows fs)
    (h' : second.Follows first.files) : (first.andAlso second).Follows fs := by
  refine ⟨h.files.trans h'.files, ?_⟩
  unfold Effect.andAlso
  split
  · exact h.status
  · exact h'.status

theorem follows_onEach {action : FileSystem → String → Effect}
    (h : ∀ fs arg, (action fs arg).Follows fs) (fs : FileSystem) (args : List String) :
    (Effect.onEach action fs args).Follows fs := by
  have hRun : ∀ done : Effect, done.Follows fs →
      (args.foldl (fun done arg => done.andAlso (action done.files arg)) done).Follows fs := by
    induction args with
    | nil => exact fun done hDone => hDone
    | cons arg rest ih => exact fun done hDone => ih _ (hDone.andAlso (h done.files arg))
  exact hRun _ (Effect.follows_unchanged fs [])

theorem follows_failure (fs : FileSystem) (complaint : String) :
    (Effect.failure fs complaint).Follows fs := ⟨.refl fs, Nat.le_refl 1⟩

theorem follows_ofResult {complaint : String} {result : Except FileError FileSystem}
    (h : ∀ changed, result = .ok changed → fs.EvolvesTo changed) :
    (Effect.ofResult fs complaint result).Follows fs := by
  cases result with
  | ok changed => exact Effect.follows_changed (h changed rfl)
  | error e => exact follows_failure fs _

theorem follows_showFiles (fs : FileSystem) (input : Bytes) (args : List String) :
    (showFiles fs input args).Follows fs := by
  unfold showFiles
  split
  · exact Effect.follows_unchanged fs _
  · apply follows_onEach
    intro fs arg
    split
    · exact Effect.follows_unchanged fs _
    · split
      · exact Effect.follows_unchanged fs _
      · exact follows_failure fs _

theorem follows_removeFiles (fs : FileSystem) (args : List String) :
    (removeFiles fs args).Follows fs := by
  unfold removeFiles
  rcases splitOptions args with ⟨options, names⟩
  apply follows_onEach
  intro fs name
  split
  · rename_i hRemoved
    exact Effect.follows_changed (evolvesTo_removeFile hRemoved)
  · split
    · exact Effect.follows_unchanged fs _
    · exact follows_failure fs _
  · split
    · exact Effect.follows_changed (evolvesTo_eraseBelow fs _)
    · exact follows_failure fs _
  · exact follows_failure fs _

theorem follows_makeDirectories (fs : FileSystem) (args : List String) :
    (makeDirectories fs args).Follows fs := by
  unfold makeDirectories
  rcases splitOptions args with ⟨options, names⟩
  apply follows_onEach
  intro fs name
  have hMade := evolvesTo_makeDirectories fs ⟨name⟩
  simp only
  split
  · split
    · rename_i hDone
      rw [hDone] at hMade
      exact Effect.follows_changed hMade
    · rename_i hPart
      rw [hPart] at hMade
      exact ⟨hMade, Nat.le_refl 1⟩
  · exact follows_ofResult fun _ => evolvesTo_makeDirectory

theorem follows_copyFile (fs : FileSystem) (source target : String) :
    (copyFile fs source target).Follows fs := by
  unfold copyFile
  split
  · exact follows_failure fs _
  · exact follows_ofResult fun _ => evolvesTo_write

theorem follows_touchFile (fs : FileSystem) (name : String) : (touchFile fs name).Follows fs := by
  apply follows_ofResult
  intro changed hTouched
  split at hTouched
  · obtain rfl := Except.ok.inj hTouched
    exact .refl fs
  · obtain ⟨opened, hOpened, rfl⟩ := map_eq_ok_iff.mp hTouched
    exact evolvesTo_openForWriting hOpened

theorem follows_of_some {made : Effect} (hMade : made.Follows fs) (h : some made = some effect) :
    effect.Follows fs := by
  obtain rfl := Option.some.inj h
  exact hMade

theorem follows_runUtility? (h : runUtility? name args input fs = some effect) :
    effect.Follows fs := by
  unfold runUtility? at h
  split at h
  · exact follows_of_some (Effect.follows_unchanged fs []) h
  · exact follows_of_some ⟨.refl fs, Nat.le_refl 1⟩ h
  · exact follows_of_some (Effect.follows_unchanged fs _) h
  · exact follows_of_some (Effect.follows_unchanged fs _) h
  · exact follows_of_some (follows_showFiles fs input args) h
  · exact follows_of_some (follows_removeFiles fs args) h
  · exact follows_of_some (follows_makeDirectories fs args) h
  · exact follows_of_some (follows_onEach follows_touchFile fs args) h
  · split at h
    · exact follows_of_some (follows_copyFile fs _ _) h
    · exact follows_of_some (follows_failure fs _) h
  · split at h
    · exact follows_of_some (follows_ofResult fun _ => evolvesTo_makeLink) h
    · exact follows_of_some (follows_failure fs _) h
  · cases h

/-! ## Commands -/

/-- What a command may do to a session. -/
structure Session.LeadsTo (s after : Session) : Prop where
  files : s.files.EvolvesTo after.files
  status : s.status < 256 → after.status < 256
  stdout : s.stdout <+: after.stdout
  stderr : s.stderr <+: after.stderr

namespace Session

theorem LeadsTo.refl (s : Session) : s.LeadsTo s := ⟨.refl _, id, List.prefix_rfl, List.prefix_rfl⟩

theorem LeadsTo.trans {mid : Session} (h : s.LeadsTo mid) (h' : mid.LeadsTo after) :
    s.LeadsTo after :=
  ⟨h.files.trans h'.files, fun hStatus => h'.status (h.status hStatus), h.stdout.trans h'.stdout,
    h.stderr.trans h'.stderr⟩

theorem leadsTo_status (s : Session) {status : Nat} (h : status < 256) :
    s.LeadsTo { s with status := status } :=
  ⟨.refl _, fun _ => h, List.prefix_rfl, List.prefix_rfl⟩

theorem leadsTo_emit (s : Session) (sink : Sink) (bytes : Bytes) : s.LeadsTo (s.emit sink bytes) := by
  cases sink with
  | stdout => exact ⟨.refl _, id, List.prefix_append _ _, List.prefix_rfl⟩
  | stderr => exact ⟨.refl _, id, List.prefix_rfl, List.prefix_append _ _⟩
  | file place => exact ⟨evolvesTo_appendAt _ _ _, id, List.prefix_rfl, List.prefix_rfl⟩

theorem leadsTo_complain (s : Session) (streams : Streams) (text : String) :
    s.LeadsTo (s.complain streams text) := leadsTo_emit ..

theorem leadsTo_assign (s : Session) (name value : String) : s.LeadsTo (s.assign name value) :=
  ⟨.refl _, id, List.prefix_rfl, List.prefix_rfl⟩

theorem leadsTo_assignAll (s : Session) (assignments : List (String × Word)) :
    s.LeadsTo (s.assignAll assignments) := by
  unfold assignAll
  induction assignments generalizing s with
  | nil => exact .refl s
  | cons assignment rest ih => exact (leadsTo_assign s _ _).trans (ih _)

theorem leadsTo_exit (s : Session) (status : Nat) : s.LeadsTo (s.exit status) :=
  ⟨.refl _, fun _ => Nat.mod_lt status (by omega), List.prefix_rfl, List.prefix_rfl⟩

def redirected : Except Session (Session × Streams) → Session
  | .ok (s, _) => s
  | .error s => s

theorem leadsTo_redirect (s : Session) (streams : Streams) (redirections : List Redirection) :
    s.LeadsTo (redirected (s.redirect streams redirections)) := by
  induction redirections generalizing s streams with
  | nil => exact .refl s
  | cons redirection rest ih =>
    cases redirection with
    | toFile stream append target =>
      rw [redirect]
      split
      · exact leadsTo_complain ..
      · rename_i place opened hOpened
        have hFiles : s.LeadsTo { s with files := opened } :=
          ⟨evolvesTo_openForWriting hOpened, id, List.prefix_rfl, List.prefix_rfl⟩
        cases stream with
        | out => exact hFiles.trans (ih _ _)
        | err => exact hFiles.trans (ih _ _)
    | toStream stream other =>
      cases stream with
      | out => exact ih s _
      | err => exact ih s _
    | fromFile source =>
      rw [redirect]
      split
      · exact leadsTo_complain ..
      · exact ih s _
    | fromText text => exact ih s _

theorem leadsTo_of_refused {streams : Streams} {redirections : List Redirection}
    (h : s.redirect streams redirections = .error after) : s.LeadsTo after := by
  have hRedirected := leadsTo_redirect s streams redirections
  rwa [h] at hRedirected

theorem leadsTo_of_redirected {streams inner : Streams} {redirections : List Redirection}
    (h : s.redirect streams redirections = .ok (after, inner)) : s.LeadsTo after := by
  have hRedirected := leadsTo_redirect s streams redirections
  rwa [h] at hRedirected

theorem leadsTo_runWords (s : Session) (streams : Streams) (words : List String) :
    s.LeadsTo (s.runWords streams words) := by
  unfold runWords
  split
  · exact leadsTo_status s (by omega)
  · split
    · exact leadsTo_status s (by omega)
    · split
      · exact leadsTo_exit s _
      · split
        · exact leadsTo_exit s _
        · exact (leadsTo_complain s streams _).trans (leadsTo_exit _ _)
    · split
      · rename_i effect hEffect
        have hFollows := follows_runUtility? hEffect
        have hDone : s.LeadsTo { s with files := effect.files, status := effect.status } :=
          ⟨hFollows.files, fun _ => Nat.lt_of_le_of_lt hFollows.status (by omega),
            List.prefix_rfl, List.prefix_rfl⟩
        exact (hDone.trans (leadsTo_emit _ _ _)).trans (leadsTo_emit _ _ _)
      · exact (leadsTo_complain s streams _).trans (leadsTo_status _ (by omega))

theorem leadsTo_runSimple (s : Session) (streams : Streams) (line : Nat)
    (assignments : List (String × Word)) (words : List Word) (redirections : List Redirection) :
    s.LeadsTo (s.runSimple streams line assignments words redirections) := by
  have hLine : s.LeadsTo { s with line := line } :=
    ⟨.refl _, id, List.prefix_rfl, List.prefix_rfl⟩
  unfold runSimple
  simp only
  split
  · rename_i refused hRefused
    have hStopped := hLine.trans (leadsTo_of_refused hRefused)
    split
    · exact hStopped.trans (leadsTo_exit _ _)
    · exact hStopped.trans (leadsTo_status _ (by omega))
  · rename_i ready inner hReady
    have hSet := hLine.trans (leadsTo_of_redirected hReady)
    exact (hSet.trans (leadsTo_assignAll _ _)).trans (leadsTo_runWords _ _ _)

end Session

open Session

mutual

/-- One case for each form of command; a loop is an induction over its words. -/
theorem leadsTo_runCommand (streams : Streams) (s : Session) :
    ∀ c : Command, s.LeadsTo (runCommand streams s c)
  | .simple line assignments words redirections => by
    rw [runCommand]
    exact leadsTo_runSimple ..
  | .loop name items body redirections => by
    rw [runCommand]
    split
    · rename_i refused hRefused
      exact (leadsTo_of_refused hRefused).trans (leadsTo_status _ (by omega))
    · rename_i ready inner hReady
      have hBody := fun s item =>
        (leadsTo_assign s name item).trans (leadsTo_runCommands inner (s.assign name item) body)
      have hLoop : ∀ (words : List String) (start : Session), start.LeadsTo
          (words.foldl (fun s item =>
            if s.finished then s else runCommands inner (s.assign name item) body) start) := by
        intro words
        induction words with
        | nil => exact fun start => .refl start
        | cons word rest ih =>
          intro start
          rw [List.foldl_cons]
          split
          · exact ih start
          · exact (hBody start word).trans (ih _)
      exact ((leadsTo_of_redirected hReady).trans (leadsTo_status _ (by omega))).trans (hLoop _ _)
  | .choice subject branches redirections => by
    rw [runCommand]
    split
    · rename_i refused hRefused
      exact (leadsTo_of_refused hRefused).trans (leadsTo_status _ (by omega))
    · rename_i ready inner hReady
      exact ((leadsTo_of_redirected hReady).trans (leadsTo_status _ (by omega))).trans
        (leadsTo_runBranches inner _ _ branches)
  | .andThen first onSuccess second => by
    have hFirst := leadsTo_runCommand streams s first
    rw [runCommand]
    split
    · exact hFirst
    · exact hFirst.trans (leadsTo_runCommand streams _ second)

theorem leadsTo_runCommands (streams : Streams) (s : Session) :
    ∀ commands : List Command, s.LeadsTo (runCommands streams s commands)
  | [] => by
    rw [runCommands]
    exact .refl s
  | c :: rest => by
    have hFirst := leadsTo_runCommand streams s c
    rw [runCommands]
    split
    · exact hFirst
    · exact hFirst.trans (leadsTo_runCommands streams _ rest)

theorem leadsTo_runBranches (streams : Streams) (s : Session) (subject : List Char) :
    ∀ branches : List (List Word × List Command),
      s.LeadsTo (runBranches streams s subject branches)
  | [] => by
    rw [runBranches]
    exact .refl s
  | (patterns, body) :: rest => by
    rw [runBranches]
    split
    · exact leadsTo_runCommands streams s body
    · exact leadsTo_runBranches streams s subject rest

end

/-! ## Programs -/

structure EndsFrom (exit : Exit) (fs : FileSystem) : Prop where
  files : fs.EvolvesTo exit.files
  status : exit.status < 256

theorem endsFrom_refuse (fs : FileSystem) (reason : String) : EndsFrom (refuse fs reason) fs :=
  ⟨.refl fs, show 2 < 256 by omega⟩

theorem endsFrom_runScript (fs : FileSystem) (name : String) (arguments : List String)
    (contents : Bytes) : EndsFrom (runScript fs name arguments contents) fs := by
  unfold runScript
  split
  · exact ⟨.refl fs, show 2 < 256 by omega⟩
  · rename_i script _
    have hRun := leadsTo_runCommands {} { name, arguments, files := fs } script
    exact ⟨hRun.files, hRun.status (show 0 < 256 by omega)⟩

theorem endsFrom_runShell (fs : FileSystem) (arguments : List String) :
    EndsFrom (runShell fs arguments) fs := by
  unfold runShell
  split
  · exact ⟨.refl fs, show 0 < 256 by omega⟩
  · exact endsFrom_refuse fs _
  · exact endsFrom_runScript ..
  · split
    · exact endsFrom_refuse fs _
    · split
      · exact endsFrom_runScript ..
      · exact endsFrom_refuse fs _

theorem endsFrom_runInstalled? {exit : Exit} (h : runInstalled? fs name args = some exit) :
    EndsFrom exit fs := by
  unfold runInstalled? at h
  split at h
  · obtain rfl := Option.some.inj h
    exact endsFrom_runShell fs args
  · obtain ⟨effect, hEffect, rfl⟩ := Option.map_eq_some_iff.mp h
    have hFollows := follows_runUtility? hEffect
    exact ⟨hFollows.files, Nat.lt_of_le_of_lt hFollows.status (by omega)⟩

theorem endsFrom_startFile {program : Path} {exit : Exit}
    (h : startFile fs program args = .ok exit) : EndsFrom exit fs := by
  unfold startFile at h
  obtain ⟨node, -, h⟩ := bind_eq_ok_iff.mp h
  split at h
  · split at h
    · cases h
    · split at h
      · rename_i ended hEnded
        obtain rfl := pure_eq_ok_iff.mp h
        obtain ⟨called, -, hRun⟩ := Option.bind_eq_some_iff.mp hEnded
        exact endsFrom_runInstalled? hRun
      · cases h
  · cases h

theorem endsFrom_host {program : String} {exit : Exit} (h : host fs program args = .ok exit) :
    EndsFrom exit fs := by
  unfold host at h
  simp only at h
  split at h
  · rename_i ended hEnded
    obtain rfl := Except.ok.inj h
    obtain ⟨called, -, hRun⟩ := Option.bind_eq_some_iff.mp hEnded
    exact endsFrom_runInstalled? hRun
  · split at h
    · exact endsFrom_startFile h
    · cases h

theorem orderly_host : Toolchain.Orderly host where
  files _ _ _ _ h := (endsFrom_host h).files
  status _ _ _ _ h := (endsFrom_host h).status

end Shell

end ScriptBuild
