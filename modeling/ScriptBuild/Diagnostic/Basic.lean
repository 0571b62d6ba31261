import ScriptBuild.Path.Basic

/-!
# Diagnostics

What a compiler reports about a source, how one report is written on a line, and the text of a
whole failure report. An entry whose message holds the related-symbol marker only points at
another place of the error before it, and is set in under that error.
-/

namespace ScriptBuild

set_option autoImplicit false

inductive Severity
  | error
  | warning
  deriving DecidableEq, Repr

def Severity.word : Severity → String
  | .error => "error"
  | .warning => "warning"

/-- One issue that a compiler reports. An issue without a place has the empty file, line 0 and
column 0. -/
structure Diagnostic where
  file : Path
  line : UInt32
  column : UInt32
  severity : Severity
  code : String
  message : String
  deriving DecidableEq, Repr

namespace Diagnostic

def relatedMarker : String := "(Location of the symbol related to previous error)"

def occursIn (part : List Char) : List Char → Bool
  | [] => part.isEmpty
  | c :: rest => part.isPrefixOf (c :: rest) || occursIn part rest

def marksRelated (message : String) : Bool := occursIn relatedMarker.toList message.toList

/-- Whether the entry only points at a place related to the error before it. -/
def isRelated (d : Diagnostic) : Bool := marksRelated d.message

def isError (d : Diagnostic) : Bool := d.severity == .error

def placeText (line column : UInt32) : List Char :=
  '(' :: Nat.toDigits 10 line.toNat ++ ',' :: Nat.toDigits 10 column.toNat ++ [')']

def text (d : Diagnostic) : String :=
  String.ofList (d.file.text.toList ++ placeText d.line d.column ++ ": ".toList ++
    d.severity.word.toList ++ ' ' :: d.code.toList ++ ": ".toList ++ d.message.toList)

def reportLine (d : Diagnostic) : String :=
  if d.isRelated then String.ofList ("    ".toList ++ d.message.toList) else d.text

def errorCount (ds : List Diagnostic) : Nat := ds.countP isError

/-- The report of a failed compilation: how many entries there are, then a line for each. -/
def report (ds : List Diagnostic) : String :=
  String.ofList ("Compilation failed; ".toList ++ Nat.toDigits 10 ds.length ++
    " errors: ".toList ++ ds.flatMap fun d => '\n' :: d.reportLine.toList)

end Diagnostic

end ScriptBuild
