import SvServer.Diagnostic
import SvServer.Hdl.Keyword
import SvServer.Hdl.Lexeme

/-!
What the compiler finds. A finding is a cause; its name and its wording follow from it.
-/

namespace SvServer

open Hdl

/-- What can be wrong with a source text. -/
inductive Finding where
  | unterminatedComment
  | unterminatedString
  | unknownDirective (name : String)
  /-- A use inside the body of the definition `within` -/
  | unknownUseWithin (name within : String)
  | missingEndif
  | endifAlone
  | elseAlone
  | repeatedElse
  | elsifAlone
  | elsifAfterElse
  | expectedMacroName (directive : String)
  | redefined (name : String)
  | expectedIncludeName
  | includeNotFound (name : String)
  | includeUnreadable (name : String)
  | includesItself (name : String)
  | includesTooDeep (limit : Nat)
  | unterminatedBlock (opener closer : String)
  | unexpectedBlockEnd (closer : String)
  | mismatchedDelimiter (expected found : Delimiter)
  | unexpectedDelimiter (found : Delimiter)
  | unclosedDelimiter (opened : Delimiter)
  /-- A design element that the file `other` declares too -/
  | redeclared (kind : DesignElement) (name other : String)
  | unknownModule (target : String)
deriving DecidableEq, Repr

namespace Finding

/-- The name under which a finding is reported. -/
def name : Finding → DiagnosticName
  | unterminatedComment => .unterminatedComment
  | unterminatedString => .unterminatedString
  | unknownDirective _ | unknownUseWithin _ _ => .unknownDirective
  | missingEndif | endifAlone | elseAlone | repeatedElse | elsifAlone | elsifAfterElse =>
    .unbalancedConditional
  | expectedMacroName _ => .expectedMacroName
  | redefined _ => .macroRedefined
  | expectedIncludeName => .expectedIncludeFileName
  | includeNotFound _ | includeUnreadable _ => .includeNotFound
  | includesItself _ | includesTooDeep _ => .recursiveInclude
  | unterminatedBlock _ _ => .unterminatedBlock
  | unexpectedBlockEnd _ => .unexpectedBlockEnd
  | mismatchedDelimiter _ _ | unexpectedDelimiter _ | unclosedDelimiter _ => .unbalancedDelimiter
  | redeclared _ _ _ => .redefinition
  | unknownModule _ => .unknownModule

/-- A word between single quotes. -/
def quoted (word : String) : String := "'" ++ word ++ "'"

/-- The wording of a finding. -/
def message : Finding → String
  | unterminatedComment => "unterminated block comment"
  | unterminatedString => "unterminated string literal"
  | unknownDirective name => "unknown macro or compiler directive " ++ quoted ("`" ++ name)
  | unknownUseWithin name within =>
    "unknown macro " ++ quoted ("`" ++ name) ++ " in the expansion of " ++ quoted ("`" ++ within)
  | missingEndif => "missing `endif"
  | endifAlone => "`endif without matching `ifdef"
  | elseAlone => "`else without matching `ifdef"
  | repeatedElse => "duplicate `else"
  | elsifAlone => "`elsif without matching `ifdef"
  | elsifAfterElse => "`elsif after `else"
  | expectedMacroName directive => "expected macro name after `" ++ directive
  | redefined name => "macro " ++ quoted name ++ " redefined"
  | expectedIncludeName => "expected include file name"
  | includeNotFound name => "could not find include file " ++ quoted name
  | includeUnreadable name => "could not read include file " ++ quoted name
  | includesItself name => quoted name ++ " includes itself"
  | includesTooDeep limit => "include depth exceeds " ++ toString limit
  | unterminatedBlock opener closer => "missing " ++ quoted closer ++ " for " ++ quoted opener
  | unexpectedBlockEnd closer => quoted closer ++ " without a matching block"
  | mismatchedDelimiter expected found =>
    "expected " ++ quoted expected.closeText ++ " but found " ++ quoted found.closeText
  | unexpectedDelimiter found => "unexpected " ++ quoted found.closeText
  | unclosedDelimiter opened => "unclosed " ++ quoted opened.openText
  | redeclared kind name other =>
    kind.text ++ " " ++ quoted name ++ " is already declared in " ++ other
  | unknownModule target => "unknown module " ++ quoted target

/-- A finding at a place, as an error. -/
def located (finding : Finding) (path : Path) (range : Range) : Diagnostic :=
  ⟨path, range, .error, finding.name, finding.message⟩

end Finding

end SvServer
