import ScriptBuild.Path.Basic

/-!
# Command line arguments

The parameters and flags of the command line, and how its arguments are told apart. A parameter is
given by its long name or its letter, with the value attached or as the next argument. After `--`
every argument is a source. A value that is an argument of its own must not look like a parameter.
-/

namespace ScriptBuild.CommandLine

set_option autoImplicit false

inductive Parameter
  | output
  | indexRoot
  | extension
  | loaded
  | mode
  | policy
  | compiler
  deriving DecidableEq, Repr

namespace Parameter

def all : List Parameter := [output, indexRoot, extension, loaded, mode, policy, compiler]

def long : Parameter → String
  | output => "output"
  | indexRoot => "index-root"
  | extension => "extension"
  | loaded => "loaded"
  | mode => "mode"
  | policy => "policy"
  | compiler => "compiler"

def letter? : Parameter → Option Char
  | output => some 'o'
  | _ => none

def valueName : Parameter → String
  | output => "PATH"
  | indexRoot => "DIR"
  | extension => "EXTENSION"
  | loaded => "PATH"
  | mode => "MODE"
  | policy => "POLICY"
  | compiler => "COMPILER"

def written (p : Parameter) : String := "--" ++ p.long ++ " <" ++ p.valueName ++ ">"

end Parameter

inductive Flag
  | help
  | version
  deriving DecidableEq, Repr

namespace Flag

def all : List Flag := [help, version]

def long : Flag → String
  | help => "help"
  | version => "version"

def letter : Flag → Char
  | help => 'h'
  | version => 'V'

end Flag

inductive UsageError
  | unknownArgument (text : String)
  | missingValue (p : Parameter)
  | unexpectedValue (f : Flag) (value : String)
  | repeated (p : Parameter)
  | emptyValue (written : String)
  | invalidValue (p : Parameter) (value reason : String)
  | missingArguments (written : List String)
  deriving DecidableEq, Repr

namespace UsageError

def message : UsageError → String
  | unknownArgument text => "unexpected argument '" ++ text ++ "' found"
  | missingValue p => "a value is required for '" ++ p.written ++ "' but none was supplied"
  | unexpectedValue f value =>
    "unexpected value '" ++ value ++ "' for '--" ++ f.long ++ "' found; no more were expected"
  | repeated p => "the argument '" ++ p.written ++ "' cannot be used multiple times"
  | emptyValue written => "a value is required for '" ++ written ++ "' but none was supplied"
  | invalidValue p value reason =>
    "invalid value '" ++ value ++ "' for '" ++ p.written ++ "': " ++ reason
  | missingArguments written =>
    "the following required arguments were not provided:" ++
      String.join (written.map ("\n  " ++ ·))

end UsageError

/-- What an argument, or two of them, stand for. -/
inductive Item
  | source (text : String)
  | setting (p : Parameter) (value : String)
  | flag (f : Flag)
  | fault (e : UsageError)
  deriving DecidableEq, Repr

/-- What an argument by itself is. -/
inductive Shape
  | separator
  | complete (items : List Item)
  | awaiting (items : List Item) (p : Parameter)
  deriving DecidableEq, Repr

namespace Shape

def ofLong (text : String) (cs : List Char) : Shape :=
  let name := String.ofList (cs.takeWhile (· ≠ '='))
  let value : Option String :=
    match cs.dropWhile (· ≠ '=') with
    | '=' :: value => some (String.ofList value)
    | _ => none
  match Parameter.all.find? (·.long = name), Flag.all.find? (·.long = name), value with
  | some p, _, some value => complete [.setting p value]
  | some p, _, none => awaiting [] p
  | none, some f, none => complete [.flag f]
  | none, some f, some value => complete [.fault (.unexpectedValue f value)]
  | none, none, _ => complete [.fault (.unknownArgument text)]

/-- The value attached to a letter; an equals sign may stand before it. -/
def attached : List Char → List Char
  | '=' :: value => value
  | value => value

/-- An argument that begins with one dash: letters, of which the first that stands for a parameter
takes the rest as its value. -/
def ofLetters (items : List Item) : List Char → Shape
  | [] => complete items
  | c :: rest =>
    match Parameter.all.find? (·.letter? = some c), Flag.all.find? (·.letter = c) with
    | some p, _ =>
      if rest.isEmpty then awaiting items p
      else complete (items ++ [.setting p (String.ofList (attached rest))])
    | none, some f => ofLetters (items ++ [.flag f]) rest
    | none, none => complete (items ++ [.fault (.unknownArgument (String.ofList ['-', c]))])

/-- The shape of an argument. A dash alone is a source. -/
def of (text : String) : Shape :=
  match text.toList with
  | ['-', '-'] => separator
  | '-' :: '-' :: cs => ofLong text cs
  | '-' :: c :: cs => ofLetters [] (c :: cs)
  | _ => complete [.source text]

end Shape

/-- Whether an argument can be the value of the parameter before it. -/
def isValue (text : String) : Bool :=
  match text.toList with
  | '-' :: _ :: _ => false
  | _ => true

def itemsOf : List String → List Item
  | [] => []
  | text :: rest =>
    match Shape.of text with
    | .separator => rest.map .source
    | .complete items => items ++ itemsOf rest
    | .awaiting items p =>
      match rest with
      | [] => items ++ [.fault (.missingValue p)]
      | value :: after =>
        if isValue value then items ++ .setting p value :: itemsOf after
        else items ++ .fault (.missingValue p) :: itemsOf (value :: after)

end ScriptBuild.CommandLine
