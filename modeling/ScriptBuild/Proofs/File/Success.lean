import ScriptBuild.File.Access
import ScriptBuild.Proofs.Result

/-!
# What operations on files have done

For each operation that has not failed, where the path has led to, what stood there, and what the
files are now. All that is known of an operation beyond this follows from it.
-/

namespace ScriptBuild.FileSystem

set_option autoImplicit false

variable {fs after : FileSystem} {follow truncate : Bool} {p target path : Path}
  {location : Location} {place : Place} {names : List String} {bytes : Bytes}

theorem locate_eq_ok_iff :
    fs.locate follow p = .ok place ↔ ∃ left, fs.walk follow p = .ok (place, left) := by
  unfold locate
  cases fs.walk follow p with
  | error e => simp [Except.map]
  | ok reached => simp [Except.map, Prod.ext_iff]

/-- Operations on the entry that a path leads to. -/
theorem entry_of_ok {α : Type} {e : FileError} {act : Location → String → Except FileError α}
    {result : α}
    (h : (do
      match ← fs.locate follow p with
      | .inside _ => throw e
      | .entry directory name => act directory name) = .ok result) :
    ∃ directory name left, fs.walk follow p = .ok (.entry directory name, left) ∧
      act directory name = .ok result := by
  obtain ⟨place, hLocate, h⟩ := bind_eq_ok_iff.mp h
  obtain ⟨left, hWalk⟩ := locate_eq_ok_iff.mp hLocate
  cases place with
  | inside directory => exact absurd h throw_ne_ok
  | entry directory name => exact ⟨directory, name, left, hWalk, h⟩

theorem lookUp_eq_ok_iff {node : Node} : fs.lookUp p = .ok node ↔
    ∃ place left, fs.walk true p = .ok (place, left) ∧ fs.node? place.location = some node := by
  constructor
  · intro h
    obtain ⟨place, hLocate, h⟩ := bind_eq_ok_iff.mp h
    obtain ⟨left, hWalk⟩ := locate_eq_ok_iff.mp hLocate
    refine ⟨place, left, hWalk, ?_⟩
    split at h
    · rename_i hNode
      rw [hNode, pure_eq_ok_iff.mp h]
    · exact absurd h throw_ne_ok
  · intro ⟨place, left, hWalk, hNode⟩
    refine bind_eq_ok_iff.mpr ⟨place, locate_eq_ok_iff.mpr ⟨left, hWalk⟩, ?_⟩
    rw [hNode]
    rfl

theorem lookUp_of_read {contents : Bytes} (h : fs.read p = .ok contents) :
    ∃ executable, fs.lookUp p = .ok (.file contents executable) := by
  obtain ⟨node, hNode, h⟩ := bind_eq_ok_iff.mp h
  split at h
  · rename_i executable
    rw [hNode, pure_eq_ok_iff.mp h]
    exact ⟨executable, rfl⟩
  · exact absurd h throw_ne_ok

theorem list_eq_ok (h : fs.list p = .ok names) : ∃ place left,
    fs.walk true p = .ok (place, left) ∧ fs.node? place.location = some .directory ∧
      names = fs.children place.location := by
  obtain ⟨place, hLocate, h⟩ := bind_eq_ok_iff.mp h
  obtain ⟨left, hWalk⟩ := locate_eq_ok_iff.mp hLocate
  refine ⟨place, left, hWalk, ?_⟩
  split at h
  · rename_i hNode
    exact ⟨hNode, (pure_eq_ok_iff.mp h).symm⟩
  · exact absurd h throw_ne_ok
  · exact absurd h throw_ne_ok

theorem makeDirectory_eq_ok (h : fs.makeDirectory p = .ok after) :
    ∃ directory name left, fs.walk false p.dropSlashes = .ok (.entry directory name, left) ∧
      fs.node? (directory ++ [name]) = none ∧
      after = fs.put (directory ++ [name]) .directory := by
  obtain ⟨directory, name, left, hWalk, h⟩ := entry_of_ok h
  refine ⟨directory, name, left, hWalk, ?_⟩
  split at h
  · exact absurd h throw_ne_ok
  · rename_i hNone
    exact ⟨hNone, (pure_eq_ok_iff.mp h).symm⟩

theorem removeFile_eq_ok (h : fs.removeFile p = .ok after) :
    p.dropSlashes = p ∧ ∃ directory name left, fs.walk false p = .ok (.entry directory name, left) ∧
      fs.node? (directory ++ [name]) ≠ none ∧ fs.node? (directory ++ [name]) ≠ some .directory ∧
      after = fs.erase (directory ++ [name]) := by
  obtain ⟨directory, name, left, hWalk, h⟩ := entry_of_ok h
  split at h
  · exact absurd h throw_ne_ok
  · exact absurd h throw_ne_ok
  · rename_i node hNot hNode
    split at h
    · exact absurd h throw_ne_ok
    · rename_i hSlash
      have hSame : p.dropSlashes = p := by simp [Path.dropSlashes, hSlash]
      rw [hSame] at hWalk
      refine ⟨hSame, directory, name, left, hWalk, by simp [hNode], ?_,
        (pure_eq_ok_iff.mp h).symm⟩
      rw [hNode]
      intro hDirectory
      exact hNot (Option.some.inj hDirectory)

theorem openForWriting_eq_ok (h : fs.openForWriting p truncate = .ok (location, after)) :
    p.endsWithSlash = false ∧ ∃ directory name left,
      fs.walk true p = .ok (.entry directory name, left) ∧ location = directory ++ [name] ∧
      (fs.node? location = none ∧ after = fs.put location (.file [] false) ∨
        ∃ contents executable, fs.node? location = some (.file contents executable) ∧
          after = if truncate then fs.put location (.file [] executable) else fs) := by
  unfold openForWriting at h
  cases hSlash : p.endsWithSlash with
  | true =>
    rw [hSlash] at h
    obtain ⟨_, -, h⟩ := bind_eq_ok_iff.mp h
    exact absurd h nofun
  | false =>
    rw [hSlash] at h
    obtain ⟨directory, name, left, hWalk, h⟩ := entry_of_ok h
    refine ⟨rfl, directory, name, left, hWalk, ?_⟩
    simp only at h
    split at h
    · rename_i hNone
      obtain ⟨rfl, rfl⟩ := Prod.mk.inj (pure_eq_ok_iff.mp h)
      exact ⟨rfl, Or.inl ⟨hNone, rfl⟩⟩
    · rename_i contents executable hNode
      obtain ⟨rfl, rfl⟩ := Prod.mk.inj (pure_eq_ok_iff.mp h)
      exact ⟨rfl, Or.inr ⟨contents, executable, hNode, rfl⟩⟩
    · exact absurd h throw_ne_ok

theorem write_eq_ok (h : fs.write p bytes = .ok after) :
    ∃ location opened, fs.openForWriting p true = .ok (location, opened) ∧
      after = opened.appendAt location bytes := by
  obtain ⟨⟨location, opened⟩, hOpened, h⟩ := bind_eq_ok_iff.mp h
  exact ⟨location, opened, hOpened, (pure_eq_ok_iff.mp h).symm⟩

theorem makeLink_eq_ok (h : fs.makeLink p target = .ok after) :
    ∃ directory name left, fs.walk false p = .ok (.entry directory name, left) ∧
      fs.node? (directory ++ [name]) = none ∧
      after = fs.put (directory ++ [name]) (.link target) := by
  unfold makeLink at h
  split at h
  · exact absurd h nofun
  · obtain ⟨directory, name, left, hWalk, h⟩ := entry_of_ok h
    refine ⟨directory, name, left, hWalk, ?_⟩
    split at h
    · exact absurd h throw_ne_ok
    · rename_i hNone
      exact ⟨hNone, (pure_eq_ok_iff.mp h).symm⟩

theorem makeScratch_eq_ok (h : fs.makeScratch = .ok (path, location, after)) :
    ∃ names place left, fs.list scratchRoot = .ok names ∧
      path = scratchRoot.join ⟨freshName names⟩ ∧ fs.makeDirectory path = .ok after ∧
      after.walk true path = .ok (place, left) ∧ location = place.location := by
  obtain ⟨names, hNames, h⟩ := bind_eq_ok_iff.mp h
  obtain ⟨made, hMade, h⟩ := bind_eq_ok_iff.mp h
  obtain ⟨place, hLocate, h⟩ := bind_eq_ok_iff.mp h
  obtain ⟨left, hWalk⟩ := locate_eq_ok_iff.mp hLocate
  cases h
  exact ⟨names, place, left, hNames, rfl, hMade, hWalk, rfl⟩

end ScriptBuild.FileSystem
