import ScriptBuild.Shell.Word

/-!
# Shell tokens

A script is cut into tokens character by character: words, operators and line ends. The lines after
an operator for a text in the script belong to that operator, up to the line that repeats its
delimiter. Variables in such a text are not replaced.
-/

namespace ScriptBuild.Shell

set_option autoImplicit false

inductive Operator
  | semicolon
  | doubleSemicolon
  | both
  | either
  | bar
  | closeParenthesis
  | openParenthesis
  | background
  deriving DecidableEq, Repr

inductive Arrow
  | write
  | append
  | writeStream
  | read
  deriving DecidableEq, Repr

inductive Token
  | word (w : Word)
  | operator (o : Operator)
  /-- A redirection; the number of the stream may stand before it. -/
  | arrow (a : Arrow) (stream : Option Nat)
  /-- A text in the script, once it has been read. -/
  | text (body : Option (List Char))
  | newline
  deriving DecidableEq, Repr

inductive Quote
  | bare
  | double
  deriving DecidableEq, Repr

/-- What is being read. The characters read so far are listed from the last back. -/
inductive Reading
  | between
  | comment
  | operator (first : Char) (stream : Option Nat)
  | word (quote : Quote)
  | single
  | escape (quote : Quote)
  | dollar (quote : Quote)
  | name (quote : Quote) (text : List Char)
  | brace (quote : Quote) (text : List Char)
  | body (line text : List Char)
  deriving DecidableEq, Repr

/-- How far cutting has come. Parts and tokens are listed from the last back. -/
structure Lexer where
  reading : Reading := .between
  parts : List Part := []
  tokens : List Token := []
  /-- Whether the next word is the delimiter of a text. -/
  atDelimiter : Bool := false
  /-- The delimiters of the texts that begin after this line. -/
  pending : List (List Char) := []

namespace Lexer

def isNameChar (c : Char) : Bool := c.isAlphanum || c == '_'

def pushChar (c : Char) (quoted : Bool) (parts : List Part) : List Part :=
  match parts with
  | .literal text q :: rest =>
    if q = quoted then .literal (text ++ [c]) q :: rest else .literal [c] quoted :: parts
  | _ => .literal [c] quoted :: parts

/-- Begins a quoted part, so that even an empty one makes a word. -/
def pushQuote (parts : List Part) : List Part := .literal [] true :: parts

def valuePart (quote : Quote) (name : List Char) (cut : Cut) : Part :=
  if name = ['@'] then .arguments
  else .value (String.ofList name) cut (quote == .double)

def bracePart (quote : Quote) (text : List Char) : Part :=
  let name := text.takeWhile isNameChar
  let pattern (cs : List Char) : List Glob := cs.map Glob.ofUnquoted
  match text.dropWhile isNameChar with
  | '#' :: '#' :: p => valuePart quote name (.start true (pattern p))
  | '#' :: p => valuePart quote name (.start false (pattern p))
  | '%' :: '%' :: p => valuePart quote name (.finish true (pattern p))
  | '%' :: p => valuePart quote name (.finish false (pattern p))
  | rest => if name = [] then valuePart quote rest .whole else valuePart quote name .whole

def endWord (l : Lexer) : Lexer :=
  let w := l.parts.reverse
  if l.atDelimiter then
    { l with
      reading := .between
      parts := []
      atDelimiter := false
      tokens := .text none :: l.tokens
      pending := l.pending ++ [(Word.literal? w).getD []] }
  else { l with reading := .between, parts := [], tokens := .word w :: l.tokens }

def push (l : Lexer) (t : Token) : Lexer := { l with reading := .between, tokens := t :: l.tokens }

def endLine (l : Lexer) : Lexer :=
  if l.pending.isEmpty then l.push .newline
  else { l with reading := .body [] [], tokens := .newline :: l.tokens }

def fillText (body : List Char) : List Token → Option (List Token)
  | [] => none
  | t :: earlier =>
    match fillText body earlier with
    | some filled => some (t :: filled)
    | none => if t = .text none then some (.text (some body) :: earlier) else none

def endBody (l : Lexer) (body : List Char) : Lexer :=
  let pending := l.pending.tail
  { l with
    reading := if pending.isEmpty then .between else .body [] []
    tokens := (fillText body.reverse l.tokens).getD l.tokens
    pending := pending }

def single? : Char → Option Token
  | ';' => some (.operator .semicolon)
  | '&' => some (.operator .background)
  | '|' => some (.operator .bar)
  | _ => none

def shortToken (first : Char) (stream : Option Nat) : Token :=
  if first = '>' then .arrow .write stream
  else if first = '<' then .arrow .read stream
  else (single? first).getD .newline

def onBetween (l : Lexer) (c : Char) : Lexer :=
  if c = ' ' || c = '\t' || c = '\r' then { l with reading := .between }
  else if c = '\n' then l.endLine
  else if c = '#' then { l with reading := .comment }
  else if c = '(' then l.push (.operator .openParenthesis)
  else if c = ')' then l.push (.operator .closeParenthesis)
  else if c = ';' || c = '&' || c = '|' || c = '>' || c = '<' then
    { l with reading := .operator c none }
  else if c = '\'' then { l with reading := .single, parts := pushQuote l.parts }
  else if c = '"' then { l with reading := .word .double, parts := pushQuote l.parts }
  else if c = '\\' then { l with reading := .escape .bare }
  else if c = '$' then { l with reading := .dollar .bare }
  else { l with reading := .word .bare, parts := pushChar c false l.parts }

def streamNumber? (parts : List Part) : Option Nat :=
  match parts with
  | [.literal [c] false] => if c.isDigit then some (c.toNat - '0'.toNat) else none
  | _ => none

def onWord (l : Lexer) (quote : Quote) (c : Char) : Lexer :=
  match quote with
  | .double =>
    if c = '"' then { l with reading := .word .bare }
    else if c = '\\' then { l with reading := .escape .double }
    else if c = '$' then { l with reading := .dollar .double }
    else { l with reading := .word .double, parts := pushChar c true l.parts }
  | .bare =>
    if c = '>' || c = '<' then
      match streamNumber? l.parts with
      | some n => { l with reading := .operator c (some n), parts := [] }
      | none => { l.endWord with reading := .operator c none }
    else if [' ', '\t', '\r', '\n', ';', '&', '|', '(', ')'].contains c then l.endWord.onBetween c
    else if c = '\'' then { l with reading := .single, parts := pushQuote l.parts }
    else if c = '"' then { l with reading := .word .double, parts := pushQuote l.parts }
    else if c = '\\' then { l with reading := .escape .bare }
    else if c = '$' then { l with reading := .dollar .bare }
    else { l with reading := .word .bare, parts := pushChar c false l.parts }

def onOperator (l : Lexer) (first : Char) (stream : Option Nat) (c : Char) : Lexer :=
  if first = ';' && c = ';' then l.push (.operator .doubleSemicolon)
  else if first = '&' && c = '&' then l.push (.operator .both)
  else if first = '|' && c = '|' then l.push (.operator .either)
  else if first = '>' && c = '>' then l.push (.arrow .append stream)
  else if first = '>' && c = '&' then l.push (.arrow .writeStream stream)
  else if first = '<' && c = '<' then { l with reading := .between, atDelimiter := true }
  else (l.push (shortToken first stream)).onBetween c

/-- Reads a character after a backslash. Within quotes only some characters are escaped. -/
def onEscape (l : Lexer) (quote : Quote) (c : Char) : Lexer :=
  let l' := { l with reading := .word quote }
  if c = '\n' then l'
  else
    match quote with
    | .bare => { l' with parts := pushChar c true l.parts }
    | .double =>
      if ['$', '\x60', '"', '\\'].contains c then { l' with parts := pushChar c true l.parts }
      else { l' with parts := pushChar c true (pushChar '\\' true l.parts) }

def onDollar (l : Lexer) (quote : Quote) (c : Char) : Lexer :=
  if c = '\x7b' then { l with reading := .brace quote [] }
  else if c.isAlpha || c = '_' then { l with reading := .name quote [c] }
  else if c.isDigit || ['@', '*', '#', '?', '$'].contains c then
    { l with reading := .word quote, parts := valuePart quote [c] .whole :: l.parts }
  else
    onWord { l with parts := pushChar '$' (quote == .double) l.parts } quote c

def step (l : Lexer) (c : Char) : Lexer :=
  match l.reading with
  | .between => l.onBetween c
  | .comment => if c = '\n' then l.endLine else l
  | .operator first stream => l.onOperator first stream c
  | .word quote => l.onWord quote c
  | .single =>
    if c = '\'' then { l with reading := .word .bare }
    else { l with parts := pushChar c true l.parts }
  | .escape quote => l.onEscape quote c
  | .dollar quote => l.onDollar quote c
  | .name quote text =>
    if isNameChar c then { l with reading := .name quote (c :: text) }
    else
      onWord { l with parts := valuePart quote text.reverse .whole :: l.parts } quote c
  | .brace quote text =>
    if c = '\x7d' then
      { l with reading := .word quote, parts := bracePart quote text.reverse :: l.parts }
    else { l with reading := .brace quote (c :: text) }
  | .body line text =>
    if c = '\n' then
      if l.pending.head? = some line.reverse then l.endBody text
      else { l with reading := .body [] ('\n' :: line ++ text) }
    else { l with reading := .body (c :: line) text }

/-- Ends a script whose last line has a line end; `none` within quotes or braces. -/
def finish? (l : Lexer) : Option (List Token) :=
  match l.reading with
  | .between | .comment => some l.tokens.reverse
  | .body line text => some (l.endBody (line ++ text)).tokens.reverse
  | _ => none

end Lexer

def tokens? (cs : List Char) : Option (List Token) :=
  ((cs ++ ['\n']).foldl Lexer.step {}).finish?

end ScriptBuild.Shell
