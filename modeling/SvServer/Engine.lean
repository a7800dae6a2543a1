import SvServer.Engine.CrossFile
import SvServer.Include.Graph
import SvServer.Include.Names
import SvServer.Include.ReadIndex
import SvServer.Path.Kind
import SvServer.Unit.Compile

/-!
The compile engine. It keeps the last result of every unit, and indexes that lead from a changed
file to the units it affects. A pass takes the set of changed files, works out which files start
units, compiles the units affected and reports which files have new diagnostics.
-/

namespace SvServer

/-- What one pass works on: a consistent view of the project. -/
structure PassSetup where
  /-- Every file that the pass may compile or include -/
  eligible : PathSet
  sources : Sources
  macros : MacroTable
  redefinedSeverity : Severity
  dirty : PathSet
  /-- Compile files that the engine sees for the first time. Otherwise they are only indexed, so
  that later passes find what depends on them. -/
  compileAdded : Bool
  /-- Run the checks over the whole project -/
  crossFile : Bool

/-- What one pass did. -/
structure PassReport where
  /-- Files whose diagnostics are to be published anew -/
  touched : PathSet
  compiled : PathSet

/-- What the engine knows after its last pass. -/
structure Engine where
  eligible : PathSet
  /-- Include names as written, for every eligible file -/
  includes : PathMap (List String)
  graph : Include.Graph
  /-- Files that start units -/
  roots : PathSet
  units : PathMap UnitReport
  index : Include.ReadIndex
  /-- Diagnostics that need the whole project -/
  cross : PathMap (List Diagnostic)

namespace Engine

/-- An engine that has seen nothing. -/
def empty : Engine := ⟨∅, ∅, .empty, ∅, ∅, .empty, ∅⟩

instance : Inhabited Engine := ⟨empty⟩

/-- The settings of the unit compiles of a pass. -/
def settings (input : PassSetup) : Unit.Settings :=
  ⟨input.sources, input.macros, input.redefinedSeverity⟩

/-- The include names written in a file; none when it cannot be read. -/
def namesIn (sources : Sources) (path : Path) : List String :=
  match sources.text path with
  | some text => Include.names text
  | none => []

/-- The include edges among the eligible files. -/
def buildGraph (eligible : PathSet) (sources : Sources) (includes : PathMap (List String)) :
    Include.Graph :=
  includes.toList.foldl (fun graph (path, names) =>
    graph.setOutgoing path (names.filterMap fun name =>
      match sources.resolve name path.directory with
      | some target => if eligible.contains target then some ⟨path, target, name⟩ else none
      | none => none)) .empty

/-- The files that start units: source files that no other file includes. -/
def rootsOf (eligible : PathSet) (graph : Include.Graph) : PathSet :=
  eligible.filter fun path => path.isSource && !graph.hasOtherIncluder path

/-- Roots whose results a file can change: the file itself, the roots that read it, those that wait
for it, and those that include it. -/
def rootsAffectedBy (engine : Engine) (path : Path) : List Path :=
  let waiting :=
    if engine.eligible.contains path then (engine.index.waitersFor path).toList else []
  let including := engine.graph.includersWithin path Unit.openFileLimit
  (path :: (engine.index.readersOf path).toList ++ waiting ++ including).filter
    engine.roots.contains

/-- Roots whose results a set of files can change. -/
def rootsToCompile (engine : Engine) (dirty : PathSet) : PathSet :=
  .extend ∅ (dirty.toList.flatMap engine.rootsAffectedBy)

/-- Forgets a root and its unit. -/
def dropRoot (engine : Engine) (root : Path) : Engine :=
  { engine with
    index := engine.index.forget root
    units := engine.units.erase root }

/-- Keeps the result of a unit in place of its last one. -/
def keepUnit (engine : Engine) (result : UnitReport) : Engine :=
  { engine with
    index := engine.index.record result.root result.filesRead result.missingIncludes
    units := engine.units.put result.root result }

/-- The unit of a root. -/
def unit? (engine : Engine) (root : Path) : Option UnitReport := engine.units[root]?

/-- The units of the roots, in the order of the roots. -/
def rootUnits (engine : Engine) : List UnitReport :=
  engine.roots.toList.filterMap engine.unit?

/-! ## A pass, step by step -/

/-- A pass in progress. -/
structure Pass where
  engine : Engine
  dirty : PathSet
  touched : PathSet

/-- What enters and what leaves the eligible files with a pass. -/
def added (engine : Engine) (input : PassSetup) : PathSet := input.eligible \ engine.eligible

@[inherit_doc added]
def removed (engine : Engine) (input : PassSetup) : PathSet := engine.eligible \ input.eligible

/-- The files a pass starts from: those given, those that left, and those that entered if they are
to be compiled. -/
def startingDirty (engine : Engine) (input : PassSetup) : PathSet :=
  let dirty := if input.compileAdded then input.dirty.join (engine.added input) else input.dirty
  dirty.join (engine.removed input)

/-- The include names of the changed files and then of the new ones, as they are now. -/
def namesNow (engine : Engine) (input : PassSetup) : List (Path × List String) :=
  ((input.dirty.toList ++ (engine.added input).toList).filter input.eligible.contains).map
    fun path => (path, namesIn input.sources path)

/-- The include names after the changed and new files were read again. -/
def includesAfter (engine : Engine) (input : PassSetup) : PathMap (List String) :=
  (engine.namesNow input).foldl (fun includes (path, names) => includes.put path names)
    (engine.includes.filter fun path _ => input.eligible.contains path)

/-- Whether files came or went. -/
def movesFiles (engine : Engine) (input : PassSetup) : Bool :=
  !(engine.added input).isEmpty || !(engine.removed input).isEmpty

/-- The eligible files of the engine during a pass. Where none came or went they stay as they
are. -/
def eligibleAfter (engine : Engine) (input : PassSetup) : PathSet :=
  if engine.movesFiles input then input.eligible else engine.eligible

/-- Whether the include graph has to be built again. -/
def needsGraph (engine : Engine) (input : PassSetup) : Bool :=
  engine.movesFiles input ||
    (engine.namesNow input).any fun (path, names) => engine.includes[path]? != some names

/-- First step: eligible files, include names and, where something changed, the graph and the roots.
Files that are roots no more lose their units; files that became roots are dirty. -/
def restructure (engine : Engine) (input : PassSetup) : Pass :=
  let dirty := engine.startingDirty input
  if engine.needsGraph input then
    let eligible := engine.eligibleAfter input
    let includes := engine.includesAfter input
    let graph := buildGraph eligible input.sources includes
    let roots := rootsOf eligible graph
    let lost := (engine.roots \ roots).toList
    let gained := (roots \ engine.roots).filter fun root =>
      input.compileAdded || !(engine.added input).contains root
    let touched := lost.foldl (fun touched root =>
      (touched.join (engine.index.filesOf root)).insert root) ∅
    let cleared := lost.foldl dropRoot engine
    { engine := { cleared with
        eligible := eligible, includes := includes, graph := graph, roots := roots }
      dirty := dirty.join gained
      touched := touched }
  else ⟨engine, dirty, ∅⟩

/-- Second step: the affected units are compiled. Files that they read now or read before are
touched. -/
def recompile (pass : Pass) (input : PassSetup) (batch : PathSet) : Pass :=
  batch.toList.foldl (fun pass root =>
    let result := compileUnit (settings input) root
    { pass with
      engine := pass.engine.keepUnit result
      touched :=
        ((pass.touched.join (pass.engine.index.filesOf root)).join result.filesRead).insert root })
    pass

/-- Files whose entries differ between two tables. -/
def differing (before after : PathMap (List Diagnostic)) : List Path :=
  (before.keys ++ after.keys).filter fun path => before[path]? != after[path]?

/-- Third step: the checks over the whole project. -/
def crossCheck (pass : Pass) (input : PassSetup) : Pass :=
  let cross := if input.crossFile then CrossFile.diagnostics pass.engine.rootUnits else ∅
  { pass with
    engine := { pass.engine with cross := cross }
    touched := pass.touched.extend (differing pass.engine.cross cross) }

/-- Runs one pass. Every dirty file is touched, also when no unit reads it. -/
def run (engine : Engine) (input : PassSetup) : Engine × PassReport :=
  let begun := engine.restructure input
  let batch := begun.engine.rootsToCompile begun.dirty
  let done := crossCheck (recompile begun input batch) input
  (done.engine, ⟨done.touched.join begun.dirty, batch⟩)

/-! ## Results -/

/-- The diagnostics of a file, in order and without repetitions. -/
def diagnosticsOf (engine : Engine) (path : Path) : List Diagnostic :=
  let units := (engine.index.readersOf path).toList.filterMap engine.unit?
  let found := units.flatMap fun unit => unit.diagnostics.filter fun d => d.path == path
  dropRepeats (· == ·) (Diagnostic.sort (found ++ (engine.cross[path]?).getD []))

/-- Name, then place. -/
def declarationOrder : Declaration → Declaration → Ordering :=
  compareLex (compareOn fun d => d.name) CrossFile.locationOrder

/-- The design elements declared by the roots, ordered by name, one for each place. -/
def declarations (engine : Engine) : List Declaration :=
  let all := engine.rootUnits.flatMap UnitReport.declarations
  dropRepeats CrossFile.samePlace (all.mergeSort fun a b => (declarationOrder a b).isLE)

/-- The buffer revisions of a file that its diagnostics were computed from; `none` for disk
content. -/
def revisionsOf (engine : Engine) (path : Path) : List (Option Nat) :=
  ((engine.index.readersOf path).toList.filterMap engine.unit?).filterMap fun unit =>
    unit.revisions[path]?

end Engine

end SvServer
