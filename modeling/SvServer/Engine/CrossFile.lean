import SvServer.Finding
import SvServer.Unit.Basic

/-!
Checks over the units of a whole project: names declared in more than one place, and instances of
names that nothing declares.
-/

namespace SvServer.CrossFile

/-- Path, then line, then column of a declared name. -/
def locationOrder : Declaration → Declaration → Ordering :=
  compareLex (compareOn fun d => d.path)
    (compareLex (compareOn fun d => d.range.start.line)
      (compareOn fun d => d.range.start.character))

/-- Whether two declarations stand at the same place. A header inlined into several units declares
at one place. -/
def samePlace (a b : Declaration) : Bool := a.path == b.path && a.range == b.range

/-- Declarations in order, one for each place. -/
def distinctPlaces (declarations : List Declaration) : List Declaration :=
  dropRepeats samePlace (declarations.mergeSort fun a b => (locationOrder a b).isLE)

/-- The distinct names that are declared, in order. -/
def declaredNames (declarations : List Declaration) : List String :=
  (Std.ExtTreeSet.ofList (declarations.map Declaration.name) compare).toList

/-- The diagnostics for a name that is declared at these places: each one names the file of the
first other place. -/
def redefinitions (places : List Declaration) : List Diagnostic :=
  if places.length < 2 then []
  else places.map fun place =>
    let other := (places.find? fun other => !samePlace other place).map fun other =>
      other.path.shortName
    (Finding.redeclared place.kind place.name (other.getD "")).located place.path place.range

/-- Adds a diagnostic to those of its file. -/
def add (table : PathMap (List Diagnostic)) (diagnostic : Diagnostic) : PathMap (List Diagnostic) :=
  table.put diagnostic.path ((table[diagnostic.path]?).getD [] ++ [diagnostic])

/-- Adds a diagnostic to those of its file, unless it is there already. -/
def addNew (table : PathMap (List Diagnostic)) (diagnostic : Diagnostic) :
    PathMap (List Diagnostic) :=
  if ((table[diagnostic.path]?).getD []).contains diagnostic then table else add table diagnostic

/-- The places of every declared name, in the order of the names. -/
def declaredPlaces (declarations : List Declaration) : List (String × List Declaration) :=
  (declaredNames declarations).map fun name =>
    (name, distinctPlaces (declarations.filter fun d => d.name == name))

/-- The names that an instance may have as its target. -/
def instantiableNames (places : List (String × List Declaration)) : List String :=
  (places.filter fun (_, declared) => declared.any fun d => d.kind.isInstantiable).map (·.1)

/-- The diagnostics of all units of a project together, by file and in order. -/
def diagnostics (units : List UnitReport) : PathMap (List Diagnostic) :=
  let places := declaredPlaces (units.flatMap UnitReport.declarations)
  let known := instantiableNames places
  let repeated := places.flatMap fun (_, declared) => redefinitions declared
  let unknown := (units.flatMap UnitReport.instantiations).filter fun i => !known.contains i.target
  let table := repeated.foldl add ∅
  let table := unknown.foldl (fun table i =>
    addNew table ((Finding.unknownModule i.target).located i.path i.range)) table
  table.map fun _ found => Diagnostic.sort found

end SvServer.CrossFile
