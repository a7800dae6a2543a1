import SvServer.Path
import SvServer.Text.Position

/-!
Diagnostics: what is reported about a place in a file. Their order within a file is by position,
then by name, then by message.
-/

namespace SvServer

/-- How grave a diagnostic is. -/
inductive Severity where
  | error
  | warning
  | information
  | hint
deriving DecidableEq, Repr, Inhabited

/-- The number of a severity in messages to the editor. -/
def Severity.code : Severity → Nat
  | error => 1
  | warning => 2
  | information => 3
  | hint => 4

/-- Stable names of diagnostics, which projects use to suppress them. They compare in this order. -/
inductive DiagnosticName where
  | unknownDirective
  | unbalancedConditional
  | includeNotFound
  | recursiveInclude
  | expectedMacroName
  | expectedIncludeFileName
  | macroRedefined
  | unterminatedBlock
  | unexpectedBlockEnd
  | unbalancedDelimiter
  | unterminatedComment
  | unterminatedString
  | redefinition
  | unknownModule
deriving DecidableEq, Repr, Inhabited

namespace DiagnosticName

/-- All names, in order. -/
def all : List DiagnosticName :=
  [unknownDirective, unbalancedConditional, includeNotFound, recursiveInclude, expectedMacroName,
   expectedIncludeFileName, macroRedefined, unterminatedBlock, unexpectedBlockEnd,
   unbalancedDelimiter, unterminatedComment, unterminatedString, redefinition, unknownModule]

/-- The spelling of a name. -/
def text : DiagnosticName → String
  | unknownDirective => "UnknownDirective"
  | unbalancedConditional => "UnbalancedConditional"
  | includeNotFound => "IncludeNotFound"
  | recursiveInclude => "RecursiveInclude"
  | expectedMacroName => "ExpectedMacroName"
  | expectedIncludeFileName => "ExpectedIncludeFileName"
  | macroRedefined => "MacroRedefined"
  | unterminatedBlock => "UnterminatedBlock"
  | unexpectedBlockEnd => "UnexpectedBlockEnd"
  | unbalancedDelimiter => "UnbalancedDelimiter"
  | unterminatedComment => "UnterminatedComment"
  | unterminatedString => "UnterminatedString"
  | redefinition => "Redefinition"
  | unknownModule => "UnknownModule"

/-- The name that a text spells. -/
def ofText? (name : String) : Option DiagnosticName := all.find? fun known => known.text = name

/-- The place of a name in the order. -/
def rank (name : DiagnosticName) : Nat := name.ctorIdx

/-- Diagnostics that need the whole project, and with it a valid license. -/
def isCrossFile : DiagnosticName → Bool
  | redefinition | unknownModule => true
  | _ => false

end DiagnosticName

/-- A diagnostic at a place in a file. -/
structure Diagnostic where
  path : Path
  range : Range
  severity : Severity
  name : DiagnosticName
  message : String
deriving BEq, Repr, Inhabited

namespace Diagnostic

/-- Position, then name, then message. -/
def order : Diagnostic → Diagnostic → Ordering :=
  compareLex (compareOn fun d => d.range.start.line)
    (compareLex (compareOn fun d => d.range.start.character)
      (compareLex (compareOn fun d => d.name.rank) (compareOn fun d => d.message)))

/-- Diagnostics in order; those that compare equal keep the order they came in. -/
def sort (diagnostics : List Diagnostic) : List Diagnostic :=
  diagnostics.mergeSort fun a b => (order a b).isLE

end Diagnostic

/-- Drops every element that its predecessor in the list makes redundant. -/
def dropRepeats {α : Type} (same : α → α → Bool) : List α → List α
  | [] => []
  | x :: rest => x :: go x rest
where
  /-- `kept` is the last element that stays. -/
  go (kept : α) : List α → List α
    | [] => []
    | y :: rest => if same y kept then go kept rest else y :: go y rest

end SvServer
