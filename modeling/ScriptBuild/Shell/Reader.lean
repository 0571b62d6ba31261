import ScriptBuild.Shell.Script
import ScriptBuild.Shell.Token

/-!
# Reading shell scripts

The tokens of a script are put together to commands one by one. The loops and choices that reading
is within are kept as a list of blocks, the innermost first, so no token is looked at twice.
-/

namespace ScriptBuild.Shell

set_option autoImplicit false

inductive BlockKind
  | script
  | loop (variableName : String) (items : List Word)
  | branch (subject : Word) (finished : List (List Word × List Command)) (patterns : List Word)

/-- A block that is being read. Commands are listed from the last back. -/
structure Block where
  kind : BlockKind
  commands : List Command := []
  /-- A command whose success the next one depends on. -/
  link : Option (Command × Bool) := none

def Block.add (block : Block) (c : Command) : Block :=
  match block.link with
  | none => { block with commands := c :: block.commands }
  | some (first, onSuccess) =>
    { block with commands := .andThen first onSuccess c :: block.commands, link := none }

/-- What is read next. Items, patterns and branches are listed from the last back. -/
inductive Awaited
  | commandStart
  | commandRest (c : Command)
  | target (c : Command) (a : Arrow) (stream : Option Nat)
  | loopName
  | loopIn (variableName : String)
  | loopItems (variableName : String) (items : List Word)
  | loopDo (variableName : String) (items : List Word)
  | choiceSubject
  | choiceIn (subject : Word)
  | pattern (subject : Word) (finished : List (List Word × List Command)) (patterns : List Word)
  | patternEnd (subject : Word) (finished : List (List Word × List Command))
      (patterns : List Word)

structure Reader where
  block : Block
  outer : List Block
  awaited : Awaited
  line : Nat

namespace Reader

def redirect (r : Redirection) : Command → Command
  | .simple line assignments words redirections =>
    .simple line assignments words (redirections ++ [r])
  | .loop name items body redirections => .loop name items body (redirections ++ [r])
  | .choice subject branches redirections => .choice subject branches (redirections ++ [r])
  | .andThen first onSuccess second => .andThen first onSuccess second

def redirection? (a : Arrow) (stream : Option Nat) (target : Word) : Option Redirection :=
  let written : Option Stream :=
    match stream with
    | none => some .out
    | some 1 => some .out
    | some 2 => some .err
    | some _ => none
  match a with
  | .read => some (.fromFile target)
  | .write => written.map fun s => .toFile s false target
  | .append => written.map fun s => .toFile s true target
  | .writeStream =>
    match target.plain? with
    | some "1" => written.map fun s => .toStream s .out
    | some "2" => written.map fun s => .toStream s .err
    | _ => none

def assignment? (w : Word) : Option (String × Word) :=
  match w with
  | .literal text false :: rest =>
    let name := text.takeWhile Lexer.isNameChar
    match text.dropWhile Lexer.isNameChar with
    | '=' :: value =>
      if name.head?.any fun c => !c.isDigit then
        some (String.ofList name, if value = [] then rest else .literal value false :: rest)
      else none
    | _ => none
  | _ => none

def addWord (w : Word) : Command → Option Command
  | .simple line assignments words redirections =>
    match assignment? w, words with
    | some assignment, [] => some (.simple line (assignments ++ [assignment]) [] redirections)
    | _, _ => some (.simple line assignments (words ++ [w]) redirections)
  | _ => none

def ready (r : Reader) : Reader := { r with awaited := .commandStart }

def finishCommand (r : Reader) (c : Command) : Reader := ({ r with block := r.block.add c }).ready

def link? (r : Reader) (onSuccess : Bool) : Option Reader :=
  match r.block.commands with
  | [] => none
  | c :: earlier =>
    some ({ r with block := { r.block with commands := earlier, link := some (c, onSuccess) } }).ready

def openBlock (r : Reader) (kind : BlockKind) : Reader :=
  ({ r with block := { kind }, outer := r.block :: r.outer }).ready

def closeLoop? (r : Reader) : Option Reader :=
  match r.block.kind, r.outer with
  | .loop name items, parent :: outer =>
    some { r with
      block := parent
      outer := outer
      awaited := .commandRest (.loop name items r.block.commands.reverse []) }
  | _, _ => none

def closeBranch? (r : Reader) : Option Reader :=
  match r.block.kind, r.outer with
  | .branch subject finished patterns, parent :: outer =>
    some { r with
      block := parent
      outer := outer
      awaited :=
        .pattern subject ((patterns.reverse, r.block.commands.reverse) :: finished) [] }
  | _, _ => none

def closeChoice? (r : Reader) : Option Reader :=
  match r.awaited with
  | .pattern subject finished [] =>
    some { r with awaited := .commandRest (.choice subject finished.reverse []) }
  | _ => none

def unsupported : List String := ["if", "then", "else", "elif", "fi", "while", "until", "do", "!", "\x7b", "\x7d"]

def emptyCommand (r : Reader) : Command := .simple r.line [] [] []

def onFirstWord (r : Reader) (w : Word) : Option Reader :=
  match w.plain? with
  | some "for" => some { r with awaited := .loopName }
  | some "case" => some { r with awaited := .choiceSubject }
  | some "done" => r.closeLoop?
  | some "esac" => r.closeBranch?.bind closeChoice?
  | plain =>
    if plain.any unsupported.contains then none
    else (addWord w r.emptyCommand).map fun c => { r with awaited := .commandRest c }

def onOperator (r : Reader) : Operator → Option Reader
  | .semicolon => some r
  | .background => some r
  | .both => r.link? true
  | .either => r.link? false
  | .doubleSemicolon => r.closeBranch?
  | _ => none

def onToken (r : Reader) (t : Token) : Option Reader :=
  match r.awaited, t with
  | .commandStart, .word w => r.onFirstWord w
  | .commandStart, .arrow a stream => some { r with awaited := .target r.emptyCommand a stream }
  | .commandStart, .text body =>
    some { r with awaited := .commandRest (redirect (.fromText (body.getD [])) r.emptyCommand) }
  | .commandStart, .newline => some r
  | .commandStart, .operator .doubleSemicolon => r.closeBranch?
  | .commandStart, .operator _ => none
  | .commandRest c, .word w => (addWord w c).map fun c => { r with awaited := .commandRest c }
  | .commandRest c, .arrow a stream => some { r with awaited := .target c a stream }
  | .commandRest c, .text body =>
    some { r with awaited := .commandRest (redirect (.fromText (body.getD [])) c) }
  | .commandRest c, .newline => some (r.finishCommand c)
  | .commandRest c, .operator o => (r.finishCommand c).onOperator o
  | .target c a stream, .word w =>
    (redirection? a stream w).map fun red => { r with awaited := .commandRest (redirect red c) }
  | .target _ _ _, _ => none
  | .loopName, .word w => w.plain?.map fun name => { r with awaited := .loopIn name }
  | .loopName, _ => none
  | .loopIn name, .word w =>
    match w.plain? with
    | some "in" => some { r with awaited := .loopItems name [] }
    | some "do" => some (r.openBlock (.loop name [[.arguments]]))
    | _ => none
  | .loopIn name, .operator .semicolon => some { r with awaited := .loopDo name [[.arguments]] }
  | .loopIn _, .newline => some r
  | .loopIn _, _ => none
  | .loopItems name items, .word w => some { r with awaited := .loopItems name (w :: items) }
  | .loopItems name items, .newline => some { r with awaited := .loopDo name items.reverse }
  | .loopItems name items, .operator .semicolon =>
    some { r with awaited := .loopDo name items.reverse }
  | .loopItems _ _, _ => none
  | .loopDo name items, .word w =>
    if w.plain? = some "do" then some (r.openBlock (.loop name items)) else none
  | .loopDo _ _, .newline => some r
  | .loopDo _ _, _ => none
  | .choiceSubject, .word w => some { r with awaited := .choiceIn w }
  | .choiceSubject, _ => none
  | .choiceIn subject, .word w =>
    if w.plain? = some "in" then some { r with awaited := .pattern subject [] [] } else none
  | .choiceIn _, .newline => some r
  | .choiceIn _, _ => none
  | .pattern subject finished patterns, .word w =>
    if patterns.isEmpty && w.plain? = some "esac" then r.closeChoice?
    else some { r with awaited := .patternEnd subject finished (w :: patterns) }
  | .pattern _ _ [], .newline => some r
  | .pattern _ _ [], .operator .openParenthesis => some r
  | .pattern _ _ _, _ => none
  | .patternEnd subject finished patterns, .operator .bar =>
    some { r with awaited := .pattern subject finished patterns }
  | .patternEnd subject finished patterns, .operator .closeParenthesis =>
    some (r.openBlock (.branch subject finished patterns))
  | .patternEnd _ _ _, _ => none

def lineCount : Token → Nat
  | .newline => 1
  | .text (some body) => body.count '\n' + 1
  | _ => 0

def step (r : Reader) (t : Token) : Option Reader :=
  (r.onToken t).map fun after => { after with line := r.line + lineCount t }

def initial : Reader := ⟨{ kind := .script }, [], .commandStart, 1⟩

def finish? (r : Reader) : Option Script :=
  match r.block.kind, r.awaited, r.block.link with
  | .script, .commandStart, none => some r.block.commands.reverse
  | _, _, _ => none

end Reader

def Script.ofText? (cs : List Char) : Option Script := do
  let tokens ← tokens? cs
  let reader ← tokens.foldlM Reader.step Reader.initial
  reader.finish?

end ScriptBuild.Shell
