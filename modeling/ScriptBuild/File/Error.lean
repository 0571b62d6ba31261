/-!
# File errors

The reasons for which an operation on files fails, and their texts with the error numbers of the
operating system.
-/

namespace ScriptBuild

set_option autoImplicit false

inductive FileError
  | notFound
  | notExecutableFormat
  | permissionDenied
  | alreadyExists
  | notADirectory
  | isADirectory
  | directoryNotEmpty
  | tooManyLinks
  /-- A failure that is known by its text only. -/
  | other (text : String)
  deriving DecidableEq, Repr

namespace FileError

def description : FileError → String
  | notFound => "No such file or directory"
  | notExecutableFormat => "Exec format error"
  | permissionDenied => "Permission denied"
  | alreadyExists => "File exists"
  | notADirectory => "Not a directory"
  | isADirectory => "Is a directory"
  | directoryNotEmpty => "Directory not empty"
  | tooManyLinks => "Too many levels of symbolic links"
  | other text => text

def number? : FileError → Option Nat
  | notFound => some 2
  | notExecutableFormat => some 8
  | permissionDenied => some 13
  | alreadyExists => some 17
  | notADirectory => some 20
  | isADirectory => some 21
  | directoryNotEmpty => some 39
  | tooManyLinks => some 40
  | other _ => none

def message (e : FileError) : String :=
  match e.number? with
  | some number => e.description ++ " (os error " ++ toString number ++ ")"
  | none => e.description

end FileError

end ScriptBuild
