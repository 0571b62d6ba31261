import ScriptBuild.File.System
import ScriptBuild.Path.Parts

/-!
# Looking up paths

A path is walked name by name from the root or from the working directory. A symbolic link on the
way is replaced by its target, and a link at the end is too if it is to be followed. The number of
links replaced in one walk is limited, so that walks along cycles of links end with an error. What
is left of the limit after a walk is part of the answer: a walk that goes on from there has no more
than that.
-/

namespace ScriptBuild

set_option autoImplicit false

inductive Step
  /-- Stay in the directory reached; a slash at the end of a path asks for as much. -/
  | stay
  | up
  | enter (name : String)
  deriving DecidableEq, Repr

namespace Path

def stepOfPiece : List Char → Step
  | [] => .stay
  | ['.'] => .stay
  | ['.', '.'] => .up
  | piece => .enter (String.ofList piece)

def isAbsolute (p : Path) : Bool := p.text.toList.head? == some '/'

def steps (p : Path) : List Step :=
  match p.text.toList with
  | '/' :: rest => (Text.pieces '/' rest).map stepOfPiece
  | cs => (Text.pieces '/' cs).map stepOfPiece

end Path

/-- Where a walk ends: at an entry of a directory, present or not, or in a directory that the last
step did not name. -/
inductive Place
  | entry (directory : Location) (name : String)
  | inside (directory : Location)
  deriving DecidableEq, Repr

def Place.location : Place → Location
  | .entry directory name => directory ++ [name]
  | .inside directory => directory

/-- Where a walk comes to a halt: at its end, or before a link that has to be replaced. -/
inductive Halt
  | arrived (place : Place)
  | atLink (directory : Location) (target : Path) (rest : List Step)
  deriving DecidableEq, Repr

namespace FileSystem

def advance (fs : FileSystem) (followLast : Bool) (current : Location) :
    List Step → Except FileError Halt
  | [] => .ok (.arrived (.inside current))
  | step :: rest =>
    match fs.node? current with
    | none => .error .notFound
    | some .directory =>
      match step with
      | .stay => advance fs followLast current rest
      | .up => advance fs followLast current.dropLast rest
      | .enter name =>
        match fs.node? (current ++ [name]) with
        | some (.link target) =>
          if followLast || !rest.isEmpty then .ok (.atLink current target rest)
          else .ok (.arrived (.entry current name))
        | some _ =>
          if rest.isEmpty then .ok (.arrived (.entry current name))
          else advance fs followLast (current ++ [name]) rest
        | none =>
          if rest.isEmpty then .ok (.arrived (.entry current name)) else .error .notFound
    | some _ => .error .notADirectory

/-- Walks to the end, replacing at most the given number of links; also tells how many more might
have been replaced. -/
def pursue (fs : FileSystem) (followLast : Bool) (limit : Nat) (current : Location)
    (steps : List Step) : Except FileError (Place × Nat) :=
  match fs.advance followLast current steps with
  | .error e => .error e
  | .ok (.arrived place) => .ok (place, limit)
  | .ok (.atLink directory target rest) =>
    match limit with
    | 0 => .error .tooManyLinks
    | left + 1 =>
      fs.pursue followLast left (if target.isAbsolute then [] else directory) (target.steps ++ rest)

def linkLimit : Nat := 40

def start (fs : FileSystem) (p : Path) : Location :=
  if p.isAbsolute then [] else fs.workingDirectory

/-- Walks a path. The empty path leads nowhere. -/
def walk (fs : FileSystem) (followLast : Bool) (p : Path) : Except FileError (Place × Nat) :=
  if p.text = "" then .error .notFound
  else fs.pursue followLast linkLimit (fs.start p) p.steps

def locate (fs : FileSystem) (followLast : Bool) (p : Path) : Except FileError Place :=
  (fs.walk followLast p).map Prod.fst

def lookUp (fs : FileSystem) (p : Path) : Except FileError Node := do
  let place ← fs.locate true p
  match fs.node? place.location with
  | some node => return node
  | none => throw .notFound

def isDirectory (fs : FileSystem) (p : Path) : Bool :=
  match fs.lookUp p with
  | .ok .directory => true
  | _ => false

theorem pursue_limit_le {fs : FileSystem} {followLast : Bool} {limit left : Nat}
    {current : Location} {steps : List Step} {place : Place}
    (h : fs.pursue followLast limit current steps = .ok (place, left)) : left ≤ limit := by
  induction limit generalizing current steps with
  | zero =>
    rw [pursue] at h
    split at h <;> simp_all
  | succ n ih =>
    rw [pursue] at h
    split at h
    · simp at h
    · simp only [Except.ok.injEq, Prod.mk.injEq] at h
      omega
    · have := ih h
      omega

end FileSystem

end ScriptBuild
