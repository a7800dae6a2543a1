import SvServer.Diagnostic
import SvServer.Hdl.Keyword

/-!
What compiling one unit yields. A unit is a root file with everything it pulls in through include
directives.
-/

namespace SvServer

/-- A parameter of a design element; the default is empty when there is none. -/
structure Parameter where
  name : String
  default : String
deriving DecidableEq, Repr

/-- A design element declared by name. -/
structure Declaration where
  name : String
  kind : Hdl.DesignElement
  path : Path
  range : Range
  /-- Parameters of the header, in order -/
  parameters : List Parameter
  /-- Port names of the header, in order -/
  ports : List String
deriving BEq, Repr

/-- An instance of a design element, known by the name of its target. -/
structure Instantiation where
  target : String
  path : Path
  range : Range
deriving BEq, Repr

/-- A finite set of texts, in their order. -/
abbrev TextSet := Std.ExtTreeSet String compare

/-- What one unit compile produced. Lists are in the order of discovery. -/
structure UnitReport where
  root : Path
  diagnostics : List Diagnostic
  /-- The root and every file it includes -/
  filesRead : PathSet
  /-- Include names that led to no readable file -/
  missingIncludes : TextSet
  declarations : List Declaration
  instantiations : List Instantiation
  /-- For every file read, the revision of the open buffer it came from; `none` for disk content -/
  revisions : PathMap (Option Nat)

/-- The result of a unit of which nothing was read. -/
def UnitReport.empty (root : Path) : UnitReport :=
  ⟨root, [], ∅, ∅, [], [], ∅⟩

/-- Access to texts and include resolution for one pass. -/
structure Sources where
  /-- Current text of a file: the open buffer, or else what is on disk -/
  text : Path → Option String
  /-- The file that an include name stands for, in a file of the given directory -/
  resolve : (name : String) → (directory : Path) → Option Path
  /-- Revision of the open buffer behind a file, if there is one -/
  revision : Path → Option Nat

end SvServer
