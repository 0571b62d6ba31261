import ScriptBuild.Shell.Word

/-!
# Shell scripts

The commands of a shell script: simple commands with assignments and redirections, loops over words,
choices among patterns, and commands that depend on the success of the one before.
-/

namespace ScriptBuild.Shell

set_option autoImplicit false

inductive Stream
  | out
  | err
  deriving DecidableEq, Repr

inductive Redirection
  | toFile (stream : Stream) (append : Bool) (target : Word)
  /-- Writes of the first stream go where those of the second go. -/
  | toStream (stream other : Stream)
  | fromFile (source : Word)
  | fromText (text : List Char)
  deriving DecidableEq, Repr

inductive Command
  | simple (line : Nat) (assignments : List (String × Word)) (words : List Word)
      (redirections : List Redirection)
  | loop (variableName : String) (items : List Word) (body : List Command)
      (redirections : List Redirection)
  | choice (subject : Word) (branches : List (List Word × List Command))
      (redirections : List Redirection)
  /-- The second command runs only if the first one succeeds, or only if it fails. -/
  | andThen (first : Command) (onSuccess : Bool) (second : Command)

abbrev Script := List Command

end ScriptBuild.Shell
