import SvServer.Finding
import SvServer.MacroTable
import SvServer.Unit.Basic
import SvServer.Hdl.Token

/-!
The state of a unit compile: definitions in force, blocks and delimiters that are open, and the
result so far. Includes share it, so a block may be opened in one file and closed in another.
-/

namespace SvServer.Unit

open Hdl

/-- A macro definition in force. Only object-like definitions are ever expanded. -/
structure Definition where
  body : String
  functionLike : Bool
  /-- Whether it comes with the project rather than from a file -/
  fromProject : Bool
deriving DecidableEq, Repr

/-- Definitions by name. -/
abbrev Definitions := Std.ExtTreeMap String Definition compare

/-- A block that is open. -/
structure PendingBlock where
  opener : String
  closers : List String
  designElement : Option DesignElement
  path : Path
  range : Range
deriving BEq, Repr

/-- The finding for a block that is never closed. -/
def PendingBlock.unterminated (block : PendingBlock) : Finding :=
  .unterminatedBlock block.opener (block.closers.headD "")

/-- A delimiter that is open. -/
structure PendingDelimiter where
  delimiter : Delimiter
  path : Path
  range : Range
deriving BEq, Repr

/-- What a unit compile carries from token to token. -/
structure State where
  definitions : Definitions
  /-- Open blocks, innermost first -/
  blocks : List PendingBlock
  /-- Open delimiters, innermost first -/
  delimiters : List PendingDelimiter
  result : UnitReport

/-- A file that is being read. -/
structure SourceFile where
  path : Path
  text : List Char

/-- The range of a stretch of bytes of the file. -/
def SourceFile.range (file : SourceFile) (start stop : Nat) : Range :=
  ⟨Text.position file.text start, Text.position file.text stop⟩

/-- The range of a token of the file. -/
def SourceFile.tokenRange (file : SourceFile) (token : Token) : Range :=
  file.range token.start token.stop

/-- The definitions that a project gives to every file. -/
def Definitions.ofProject (macros : MacroTable) : Definitions :=
  macros.entries.foldl (fun known (name, value) => known.insert name ⟨value, false, true⟩) ∅

namespace State

/-- The state in which a unit begins. -/
def initial (root : Path) (macros : MacroTable) : State :=
  ⟨Definitions.ofProject macros, [], [], UnitReport.empty root⟩

/-- Adds a diagnostic. -/
def report (state : State) (diagnostic : Diagnostic) : State :=
  { state with result :=
      { state.result with diagnostics := state.result.diagnostics ++ [diagnostic] } }

/-- Adds a finding as an error. -/
def find (state : State) (path : Path) (range : Range) (finding : Finding) : State :=
  state.report (finding.located path range)

/-- Adds a finding, if there is one. -/
def find? (state : State) (path : Path) (range : Range) (finding : Option Finding) : State :=
  match finding with
  | some finding => state.find path range finding
  | none => state

/-- Notes that a file was read. -/
def addFile (state : State) (path : Path) (revision : Option Nat) : State :=
  { state with result :=
      { state.result with
        filesRead := state.result.filesRead.insert path
        revisions := state.result.revisions.put path revision } }

/-- Notes an include name that led to no readable file. -/
def addMissing (state : State) (name : String) : State :=
  { state with result :=
      { state.result with missingIncludes := state.result.missingIncludes.insert name } }

/-- Whether a use of the name is expanded: it is defined, takes no arguments and is no directive. -/
def isObjectLike (state : State) (name : String) : Bool :=
  !isDirectiveName name &&
    match state.definitions[name]? with
    | some definition => !definition.functionLike
    | none => false

/-- Reports what is still open when the unit ends, outermost first. -/
def finish (state : State) : State :=
  let blocks := state.blocks.reverse.map fun block =>
    block.unterminated.located block.path block.range
  let delimiters := state.delimiters.reverse.map fun opened =>
    (Finding.unclosedDelimiter opened.delimiter).located opened.path opened.range
  { state with
    blocks := []
    delimiters := []
    result :=
      { state.result with diagnostics := state.result.diagnostics ++ blocks ++ delimiters } }

end State

end SvServer.Unit
