import Mathlib.Data.List.Basic
import SvServer.Engine
import SvServer.Proofs.Diagnostic
import SvServer.Proofs.Include.ReadIndex
import SvServer.Proofs.Unit.Reads

/-!
# Every change of a diagnostic is reported

A pass reports the files whose diagnostics are to be published anew. The diagnostics of a file come
from the units that read it and from the checks over the whole project. Whatever a pass does to a
unit, it touches all files that the unit read before and all that it reads now; and it touches
every file whose entry in the project checks changed. A file that stays untouched therefore keeps
its readers, their units and its diagnostics.

The argument rests on the read index being inverse to itself: a root that a pass drops or compiles
could only matter to an untouched file if the file had that root among its readers, and then the
root read the file.
-/

namespace SvServer

namespace Engine

/-- The engine after a sequence of passes, from an engine that has seen nothing. -/
def afterPasses (inputs : List PassSetup) : Engine :=
  inputs.foldl (fun engine input => (engine.run input).1) empty

/-! ## The units behind the diagnostics of a file -/

/-- The units that read a file, in the order of their roots. -/
def unitsReading (engine : Engine) (path : Path) : List UnitReport :=
  (engine.index.readersOf path).toList.filterMap engine.unit?

/-- The same readers with the same units. -/
theorem unitsReading_congr {before after : Engine} {path : Path}
    (readers : after.index.readersOf path = before.index.readersOf path)
    (units : ∀ root, (before.index.readersOf path).contains root = true →
      after.unit? root = before.unit? root) :
    after.unitsReading path = before.unitsReading path := by
  rw [unitsReading, unitsReading, readers]
  apply List.filterMap_congr
  intro root member
  exact units root (PathSet.contains_of_mem_toList member)

theorem unit?_dropRoot (engine : Engine) (root other : Path) :
    (engine.dropRoot root).unit? other = if root == other then none else engine.unit? other :=
  PathMap.getElem?_erase ..

theorem unit?_keepUnit (engine : Engine) (result : UnitReport) (other : Path) :
    (engine.keepUnit result).unit? other =
      if result.root == other then some result else engine.unit? other :=
  PathMap.getElem?_put ..

/-- A root that did not read a file is not among its readers, in any spelling. -/
theorem beq_eq_false_of_reads {engine : Engine} (inverse : engine.index.Inverse)
    {root path reader : Path} (unread : (engine.index.filesOf root).contains path = false)
    (reads : (engine.index.readersOf path).contains reader = true) : (root == reader) = false := by
  cases same : (root == reader) with
  | false => rfl
  | true =>
      rw [inverse path reader, ← Include.ReadIndex.filesOf_congr _ same, unread] at reads
      exact absurd reads Bool.false_ne_true

/-- **Dropping a root changes nothing for a file that the root did not read.** -/
theorem unitsReading_dropRoot {engine : Engine} (inverse : engine.index.Inverse)
    {root path : Path} (unread : (engine.index.filesOf root).contains path = false) :
    (engine.dropRoot root).unitsReading path = engine.unitsReading path := by
  apply unitsReading_congr
  · exact Include.ReadIndex.readersOf_forget_of_not_read _ unread
  · intro reader reads
    rw [unit?_dropRoot, beq_eq_false_of_reads inverse unread reads]
    rfl

/-- **A new unit changes nothing for a file that it does not read and its last one did not.** -/
theorem unitsReading_keepUnit {engine : Engine} (inverse : engine.index.Inverse)
    {result : UnitReport} {path : Path}
    (before : (engine.index.filesOf result.root).contains path = false)
    (now : result.filesRead.contains path = false) :
    (engine.keepUnit result).unitsReading path = engine.unitsReading path := by
  apply unitsReading_congr
  · exact Include.ReadIndex.readersOf_record_of_not_read _ before now
  · intro reader reads
    rw [unit?_keepUnit, beq_eq_false_of_reads inverse before reads]
    rfl

/-! ## What the parts of a pass account for -/

/-- What holds of an engine that grew out of another one, touching certain files: its index leads
both ways, and a file that was not touched has the units behind it that it had. -/
structure GrownFrom (before : Engine) (touched : PathSet) (after : Engine) : Prop where
  inverse : after.index.Inverse
  kept : ∀ path, touched.contains path = false →
    after.unitsReading path = before.unitsReading path

theorem GrownFrom.refl {engine : Engine} (h : engine.index.Inverse) (touched : PathSet) :
    GrownFrom engine touched engine :=
  ⟨h, fun _ _ => rfl⟩

/-- One root goes, and the files that it read are touched. -/
theorem GrownFrom.dropRoot {before after : Engine} {touched : PathSet}
    (h : GrownFrom before touched after) {root : Path}
    (covers : ∀ path, touched.contains path = false →
      (after.index.filesOf root).contains path = false) :
    GrownFrom before touched (after.dropRoot root) where
  inverse := h.inverse.forget root
  kept path untouched := by
    rw [unitsReading_dropRoot h.inverse (covers path untouched), h.kept path untouched]

/-- One unit is compiled, and the files that it reads or read before are touched. -/
theorem GrownFrom.keepUnit {before after : Engine} {touched touched' : PathSet}
    (h : GrownFrom before touched after) {result : UnitReport}
    (grows : ∀ path, touched'.contains path = false → touched.contains path = false)
    (covers : ∀ path, touched'.contains path = false →
      (after.index.filesOf result.root).contains path = false ∧
        result.filesRead.contains path = false) :
    GrownFrom before touched' (after.keepUnit result) where
  inverse := h.inverse.record _ _ _
  kept path untouched := by
    obtain ⟨before, now⟩ := covers path untouched
    rw [unitsReading_keepUnit h.inverse before now, h.kept path (grows path untouched)]

/-- Dropping roots forgets readings and adds none. -/
theorem filesOf_dropRoot (engine : Engine) {root other path : Path}
    (h : (engine.index.filesOf other).contains path = false) :
    ((engine.dropRoot root).index.filesOf other).contains path = false := by
  show ((engine.index.forget root).filesOf other).contains path = false
  rw [Include.ReadIndex.filesOf_forget]
  split
  · exact Std.ExtTreeSet.contains_empty
  · exact h

/-- Many roots go, and the files that they read are touched. -/
theorem GrownFrom.dropRoots {before after : Engine} {touched : PathSet} (roots : List Path)
    (h : GrownFrom before touched after)
    (covers : ∀ root ∈ roots, ∀ path, touched.contains path = false →
      (after.index.filesOf root).contains path = false) :
    GrownFrom before touched (roots.foldl Engine.dropRoot after) := by
  induction roots generalizing after with
  | nil => exact h
  | cons root rest ih =>
      apply ih (h.dropRoot (covers root List.mem_cons_self))
      intro other member path untouched
      exact filesOf_dropRoot _ (covers other (List.mem_cons_of_mem _ member) path untouched)

/-! ## The parts of a pass -/

/-- The touched files of the first step hold all that the lost roots read. -/
theorem contains_foldl_touched (index : Include.ReadIndex) (lost : List Path) (start : PathSet)
    {path : Path}
    (h : (lost.foldl (fun touched root => (touched.join (index.filesOf root)).insert root)
      start).contains path = false) :
    start.contains path = false ∧
      ∀ root ∈ lost, (index.filesOf root).contains path = false := by
  induction lost generalizing start with
  | nil => exact ⟨h, fun _ member => absurd member List.not_mem_nil⟩
  | cons root rest ih =>
      obtain ⟨grown, others⟩ := ih _ h
      rw [PathSet.contains_insert, PathSet.contains_join, Bool.or_eq_false_iff,
        Bool.or_eq_false_iff] at grown
      refine ⟨grown.2.1, ?_⟩
      intro other member
      rcases List.mem_cons.1 member with rfl | member
      · exact grown.2.2
      · exact others other member

/-- **First step.** Lost roots take the files they read with them. -/
theorem grownFrom_restructure {engine : Engine} (inverse : engine.index.Inverse)
    (input : PassSetup) :
    GrownFrom engine (engine.restructure input).touched (engine.restructure input).engine := by
  rw [restructure]
  split
  · -- The graph is new: the index and the units change only by the lost roots.
    let lost := (engine.roots \ rootsOf (engine.eligibleAfter input)
      (buildGraph (engine.eligibleAfter input) input.sources (engine.includesAfter input))).toList
    let touched := lost.foldl (fun (touched : PathSet) root =>
      (touched.join (engine.index.filesOf root)).insert root) ∅
    have cleared : GrownFrom engine touched (lost.foldl Engine.dropRoot engine) := by
      apply GrownFrom.dropRoots lost (GrownFrom.refl inverse touched)
      intro root member path untouched
      exact (contains_foldl_touched engine.index lost ∅ untouched).2 root member
    exact ⟨cleared.inverse, cleared.kept⟩
  · exact GrownFrom.refl inverse ∅

/-- **Second step.** Each compiled unit takes along what it reads and what it read before. -/
theorem grownFrom_recompile {before : Engine} {pass : Pass} (input : PassSetup) (batch : PathSet)
    (h : GrownFrom before pass.touched pass.engine) :
    GrownFrom before (recompile pass input batch).touched (recompile pass input batch).engine := by
  rw [recompile]
  generalize batch.toList = roots
  induction roots generalizing pass with
  | nil => exact h
  | cons root rest ih =>
      apply ih
      -- What this root reads now, and what it read before, is touched.
      apply h.keepUnit
      · intro path untouched
        simp only [PathSet.contains_insert, PathSet.contains_join, Bool.or_eq_false_iff]
          at untouched
        exact untouched.2.1.1
      · intro path untouched
        simp only [PathSet.contains_insert, PathSet.contains_join, Bool.or_eq_false_iff]
          at untouched
        rw [root_compileUnit]
        exact ⟨untouched.2.1.2, untouched.2.2⟩

/-- **Third step.** A file whose entry in the project checks changed is touched, and all files that
were touched before still are. -/
theorem touched_crossCheck {pass : Pass} {input : PassSetup} {path : Path}
    (h : (crossCheck pass input).touched.contains path = false) :
    pass.touched.contains path = false ∧
      (pass.engine.cross[path]? == (crossCheck pass input).engine.cross[path]?) = true := by
  let cross := if input.crossFile then CrossFile.diagnostics pass.engine.rootUnits else ∅
  have unlisted : pass.touched.contains path = false ∧
      (differing pass.engine.cross cross).contains path = false := by
    rw [← Bool.or_eq_false_iff, ← PathSet.contains_extend]
    exact h
  refine ⟨unlisted.1, ?_⟩
  show (pass.engine.cross[path]? == cross[path]?) = true
  by_contra differs
  -- An entry that differs stands in one of the two tables, so its key is listed as differing.
  have differs : (pass.engine.cross[path]? != cross[path]?) = true := by simpa [bne] using differs
  have keyed : (pass.engine.cross.keys ++ cross.keys).contains path = true := by
    rw [List.contains_append, Std.ExtTreeMap.contains_keys, Std.ExtTreeMap.contains_keys]
    by_contra absent
    simp only [Bool.not_eq_true, Bool.or_eq_false_iff] at absent
    rw [Std.ExtTreeMap.getElem?_eq_none_of_contains_eq_false absent.1,
      Std.ExtTreeMap.getElem?_eq_none_of_contains_eq_false absent.2] at differs
    exact absurd differs (by decide)
  obtain ⟨key, member, same⟩ := List.contains_iff_exists_mem_beq.1 keyed
  have listed : key ∈ differing pass.engine.cross cross := by
    rw [differing, List.mem_filter]
    refine ⟨member, ?_⟩
    rwa [← PathMap.getElem?_congr _ same, ← PathMap.getElem?_congr _ same]
  rw [List.contains_iff_exists_mem_beq.2 ⟨key, listed, same⟩] at unlisted
  exact absurd unlisted.2 (by decide)

/-- The third step leaves the index alone. -/
theorem index_crossCheck (pass : Pass) (input : PassSetup) :
    (crossCheck pass input).engine.index = pass.engine.index := rfl

/-- The third step leaves the units alone. -/
theorem unitsReading_crossCheck (pass : Pass) (input : PassSetup) (path : Path) :
    (crossCheck pass input).engine.unitsReading path = pass.engine.unitsReading path := rfl

theorem cross_recompile (pass : Pass) (input : PassSetup) (batch : PathSet) :
    (recompile pass input batch).engine.cross = pass.engine.cross := by
  rw [recompile]
  generalize batch.toList = roots
  induction roots generalizing pass with
  | nil => rfl
  | cons root rest ih => rw [List.foldl_cons, ih]; rfl

theorem cross_foldl_dropRoot (roots : List Path) (engine : Engine) :
    (roots.foldl Engine.dropRoot engine).cross = engine.cross := by
  induction roots generalizing engine with
  | nil => rfl
  | cons root rest ih => rw [List.foldl_cons, ih]; rfl

theorem cross_restructure (engine : Engine) (input : PassSetup) :
    (engine.restructure input).engine.cross = engine.cross := by
  rw [restructure]
  split
  · exact cross_foldl_dropRoot _ engine
  · rfl

/-! ## A whole pass -/

/-- The end of the second step. -/
def recompiled (engine : Engine) (input : PassSetup) : Pass :=
  recompile (engine.restructure input) input
    ((engine.restructure input).engine.rootsToCompile (engine.restructure input).dirty)

theorem run_fst (engine : Engine) (input : PassSetup) :
    (engine.run input).1 = (crossCheck (engine.recompiled input) input).engine := by
  rw [run, recompiled]

theorem touched_run (engine : Engine) (input : PassSetup) :
    (engine.run input).2.touched =
      (crossCheck (engine.recompiled input) input).touched.join
        (engine.restructure input).dirty := by
  rw [run, recompiled]

theorem cross_recompiled (engine : Engine) (input : PassSetup) :
    (engine.recompiled input).engine.cross = engine.cross := by
  rw [recompiled, cross_recompile, cross_restructure]

/-- What the whole pass does not touch, its third step does not. -/
theorem untouched_crossCheck {engine : Engine} {input : PassSetup} {path : Path}
    (untouched : (engine.run input).2.touched.contains path = false) :
    (crossCheck (engine.recompiled input) input).touched.contains path = false := by
  rw [touched_run, PathSet.contains_join, Bool.or_eq_false_iff] at untouched
  exact untouched.1

/-- The engine that a pass leaves grew out of the one it found, touching what it reports. -/
theorem grownFrom_run {engine : Engine} (inverse : engine.index.Inverse) (input : PassSetup) :
    GrownFrom engine (engine.run input).2.touched (engine.run input).1 := by
  have compiled : GrownFrom engine (engine.recompiled input).touched
      (engine.recompiled input).engine :=
    grownFrom_recompile input _ (grownFrom_restructure inverse input)
  constructor
  · rw [run_fst, index_crossCheck]
    exact compiled.inverse
  · intro path untouched
    rw [run_fst, unitsReading_crossCheck]
    exact compiled.kept path (touched_crossCheck (untouched_crossCheck untouched)).1

/-- The entry of an untouched file in the project checks says what it said before. -/
theorem cross_run_of_untouched {engine : Engine} {input : PassSetup} {path : Path}
    (untouched : (engine.run input).2.touched.contains path = false) :
    ((engine.run input).1.cross[path]?.getD []).map Diagnostic.content =
      (engine.cross[path]?.getD []).map Diagnostic.content := by
  have same := (touched_crossCheck (untouched_crossCheck untouched)).2
  rw [cross_recompiled, ← run_fst] at same
  -- Equal entries are both there or both absent.
  cases before : engine.cross[path]? with
  | none =>
      cases after : (engine.run input).1.cross[path]? with
      | none => rfl
      | some found =>
          rw [before, after] at same
          exact absurd same Bool.false_ne_true
  | some old =>
      cases after : (engine.run input).1.cross[path]? with
      | none =>
          rw [before, after] at same
          exact absurd same Bool.false_ne_true
      | some found =>
          rw [before, after] at same
          exact (Diagnostic.list_beq_iff.1 same).symm

theorem diagnosticsOf_eq (engine : Engine) (path : Path) :
    engine.diagnosticsOf path = dropRepeats (· == ·) (Diagnostic.sort
      (((engine.unitsReading path).flatMap fun unit =>
        unit.diagnostics.filter fun d => d.path == path) ++ engine.cross[path]?.getD [])) := rfl

/-- **One pass.** What the diagnostics of an untouched file say is what they said before. -/
theorem diagnosticsOf_run_of_untouched {engine : Engine} (inverse : engine.index.Inverse)
    {input : PassSetup} {path : Path}
    (untouched : (engine.run input).2.touched.contains path = false) :
    ((engine.run input).1.diagnosticsOf path == engine.diagnosticsOf path) = true := by
  rw [diagnosticsOf_eq, diagnosticsOf_eq, (grownFrom_run inverse input).kept path untouched]
  apply Diagnostic.dropRepeats_sort_congr
  rw [List.map_append, List.map_append, cross_run_of_untouched untouched]

/-- What holds of an engine that has seen nothing, and is kept by every pass, holds after every
sequence of passes. -/
theorem invariant_afterPasses (holds : Engine → Prop) (start : holds empty)
    (run : ∀ engine input, holds engine → holds (engine.run input).1) (inputs : List PassSetup) :
    holds (afterPasses inputs) :=
  List.foldlRecOn (motive := holds) inputs _ start fun engine h input _ => run engine input h

/-- **Every sequence of passes leaves an index that leads both ways.** -/
theorem inverse_afterPasses (inputs : List PassSetup) : (afterPasses inputs).index.Inverse :=
  invariant_afterPasses (fun engine => engine.index.Inverse) Include.ReadIndex.Inverse.empty
    (fun _ input inverse => (grownFrom_run inverse input).inverse) inputs

/-- **Every change is reported.** After any sequence of passes, a further pass touches every file
whose diagnostics it changes. -/
theorem touched_of_diagnosticsOf_changed (inputs : List PassSetup) (input : PassSetup)
    (path : Path)
    (changed : (((afterPasses inputs).run input).1.diagnosticsOf path !=
      (afterPasses inputs).diagnosticsOf path) = true) :
    ((afterPasses inputs).run input).2.touched.contains path = true := by
  by_contra untouched
  rw [Bool.not_eq_true] at untouched
  rw [bne, diagnosticsOf_run_of_untouched (inverse_afterPasses inputs) untouched] at changed
  exact absurd changed (by decide)

/-- A pass over a project of one file, which was just given a new text. -/
def passOverText (text : String) : PassSetup :=
  let path := Path.ofString "/p/top.sv"
  { eligible := .collect [path]
    sources := ⟨fun other => if other == path then some text else none, fun _ _ => none,
      fun _ => none⟩
    macros := ⟨[]⟩
    redefinedSeverity := .warning
    dirty := .collect [path]
    compileAdded := true
    crossFile := true }

/-- The file is empty at first; then it uses a macro that nothing defines. -/
theorem touched_of_unknown_use :
    (((afterPasses [passOverText ""]).run (passOverText "`DEPTH")).1.diagnosticsOf
        (.ofString "/p/top.sv") !=
      (afterPasses [passOverText ""]).diagnosticsOf
        (.ofString "/p/top.sv")) = true ∧
    ((afterPasses [passOverText ""]).run
      (passOverText "`DEPTH")).2.touched.contains (.ofString "/p/top.sv") = true :=
  ⟨by decide +kernel,
    touched_of_diagnosticsOf_changed [passOverText ""] (passOverText "`DEPTH")
      (.ofString "/p/top.sv") (by decide +kernel)⟩

end Engine

end SvServer
