import SvServer.Proofs.Engine.Agreement

/-!
# What passes see of revisions

The revisions of buffers are noted in units and looked at nowhere else. Two passes whose inputs
differ in revisions only, over engines that differ in noted revisions only, leave such engines
again, and touch and compile the same files. Engines like these report the same.
-/

namespace SvServer

/-- The same input with other revisions of buffers. -/
def PassSetup.withRevision (input : PassSetup) (revision : Path → Option Nat) : PassSetup :=
  { input with sources := { input.sources with revision := revision } }

namespace Engine

/-- **Units do not depend on revisions**, apart from noting them. -/
theorem compileUnit_withRevision (input : PassSetup) (revision : Path → Option Nat) (root : Path) :
    (compileUnit (settings input) root).Alike
      (compileUnit (settings (input.withRevision revision)) root) := by
  have text : (input.withRevision revision).sources.text = input.sources.text := rfl
  cases read : input.sources.text root with
  | none =>
      -- Nothing is read of a root without text.
      refine ⟨(UnitReport.empty root).revisions, ?_⟩
      rw [compileUnit, compileUnit, settings, settings, text, read]
  | some _ =>
      have same : Unit.SameReading (settings input) (settings (input.withRevision revision))
          (compileUnit (settings input) root).filesRead fun _ => True :=
        ⟨rfl, fun _ _ _ => rfl, fun _ _ _ _ _ _ _ _ => rfl,
          fun _ _ _ _ _ _ _ _ _ none => none, fun _ _ _ _ _ _ _ _ _ _ _ _ => trivial⟩
      refine compileUnit_alike same rfl trivial ?_ fun _ member => member
      rw [settings, read]
      exact Option.some_ne_none _

/-- The same engine with other units. -/
def withUnits (engine : Engine) (units : PathMap UnitReport) : Engine :=
  { engine with units := units }

/-- Engines that differ at most in the revisions that their units note. -/
def Alike (a b : Engine) : Prop :=
  ∃ units, b = a.withUnits units ∧
    ∀ root, (b.unit? root).map UnitReport.content = (a.unit? root).map UnitReport.content

theorem Alike.refl (engine : Engine) : Alike engine engine := ⟨engine.units, rfl, fun _ => rfl⟩

variable {a b : Engine}

/-! ## What engines that are alike report -/

theorem Alike.filterMap_unit? (h : a.Alike b) (roots : List Path) :
    (roots.filterMap b.unit?).map UnitReport.content =
      (roots.filterMap a.unit?).map UnitReport.content := by
  obtain ⟨units, -, same⟩ := h
  rw [List.map_filterMap, List.map_filterMap]
  exact List.filterMap_congr fun root _ => same root

theorem Alike.rootUnits (h : a.Alike b) :
    b.rootUnits.map UnitReport.content = a.rootUnits.map UnitReport.content := by
  have roots : b.roots = a.roots := by
    obtain ⟨units, rfl, -⟩ := h
    rfl
  rw [Engine.rootUnits, Engine.rootUnits, roots]
  exact h.filterMap_unit? _

theorem Alike.declarations_eq (h : a.Alike b) : b.declarations = a.declarations :=
  declarations_congr h.rootUnits

theorem Alike.diagnosticsOf_eq (h : a.Alike b) (path : Path) :
    b.diagnosticsOf path = a.diagnosticsOf path := by
  have same : b.index = a.index ∧ b.cross = a.cross := by
    obtain ⟨units, rfl, -⟩ := h
    exact ⟨rfl, rfl⟩
  apply diagnosticsOf_congr_units _ same.2
  rw [unitsReading, unitsReading, same.1]
  exact h.filterMap_unit? _

/-! ## The steps of a pass -/

theorem Alike.dropRoot (h : a.Alike b) (root : Path) :
    (a.dropRoot root).Alike (b.dropRoot root) := by
  obtain ⟨units, rfl, same⟩ := h
  refine ⟨units.erase root, rfl, fun other => ?_⟩
  rw [unit?_dropRoot, unit?_dropRoot, apply_ite (Option.map UnitReport.content),
    apply_ite (Option.map UnitReport.content), same]

theorem Alike.foldl_dropRoot (h : a.Alike b) (roots : List Path) :
    (roots.foldl Engine.dropRoot a).Alike (roots.foldl Engine.dropRoot b) := by
  induction roots generalizing a b with
  | nil => exact h
  | cons first rest ih => exact ih (h.dropRoot first)

theorem Alike.keepUnit (h : a.Alike b) {result result' : UnitReport}
    (results : result.Alike result') : (a.keepUnit result).Alike (b.keepUnit result') := by
  obtain ⟨units, rfl, same⟩ := h
  have content := results.content_eq
  obtain ⟨revisions, rfl⟩ := results
  refine ⟨_, rfl, fun other => ?_⟩
  rw [unit?_keepUnit, unit?_keepUnit, apply_ite (Option.map UnitReport.content),
    apply_ite (Option.map UnitReport.content), same, Option.map_some, content]
  rfl

/-- Passes in progress that differ at most in the revisions that units note. -/
structure Pass.Alike (a b : Pass) : Prop where
  engine : a.engine.Alike b.engine
  dirty : b.dirty = a.dirty
  touched : b.touched = a.touched

variable (input : PassSetup) (revision : Path → Option Nat)

theorem Alike.restructure (h : a.Alike b) :
    (a.restructure input).Alike (b.restructure (input.withRevision revision)) := by
  have dropped := h.foldl_dropRoot
  obtain ⟨units, rfl, same⟩ := h
  -- What is looked at here is the same on both sides, without looking at units.
  by_cases needed : a.needsGraph input = true
  · let graph := buildGraph (a.eligibleAfter input) input.sources (a.includesAfter input)
    let roots := rootsOf (a.eligibleAfter input) graph
    obtain ⟨units', kept, same'⟩ := dropped (a.roots \ roots).toList
    rw [Engine.restructure, if_pos needed, Engine.restructure]
    refine Eq.mpr (congrArg _ (if_pos needed)) ⟨⟨units', ?_, same'⟩, rfl, rfl⟩
    exact congrArg (fun engine : Engine => { engine with
      eligible := a.eligibleAfter input
      includes := a.includesAfter input
      graph := graph
      roots := roots }) kept
  · rw [Engine.restructure, if_neg needed, Engine.restructure]
    exact Eq.mpr (congrArg _ (if_neg needed)) ⟨⟨units, rfl, same⟩, rfl, rfl⟩

theorem Pass.Alike.compileRoot {a b : Pass} (h : a.Alike b) (root : Path) :
    (compileRoot input a root).Alike (compileRoot (input.withRevision revision) b root) := by
  have results := compileUnit_withRevision input revision root
  have index : b.engine.index = a.engine.index := by
    obtain ⟨units, same, -⟩ := h.engine
    rw [same]
    rfl
  refine ⟨h.engine.keepUnit results, h.dirty, ?_⟩
  rw [Engine.compileRoot, Engine.compileRoot]
  dsimp only
  rw [h.touched, index, results.filesRead_eq]

theorem Pass.Alike.foldl_compileRoot {a b : Pass} (h : a.Alike b) (batch : List Path) :
    (batch.foldl (Engine.compileRoot input) a).Alike
      (batch.foldl (Engine.compileRoot (input.withRevision revision)) b) := by
  induction batch generalizing a b with
  | nil => exact h
  | cons first rest ih => exact ih (h.compileRoot input revision first)

theorem Pass.Alike.crossCheck {a b : Pass} (h : a.Alike b) :
    (crossCheck a input).Alike (crossCheck b (input.withRevision revision)) := by
  have checked : (if input.crossFile then CrossFile.diagnostics b.engine.rootUnits else ∅) =
      if input.crossFile then CrossFile.diagnostics a.engine.rootUnits else ∅ := by
    rw [CrossFile.diagnostics_congr h.engine.rootUnits]
  obtain ⟨⟨units, engine, same⟩, dirty, touched⟩ := h
  have cross : b.engine.cross = a.engine.cross := by
    rw [engine]
    rfl
  refine ⟨⟨units, ?_, same⟩, dirty, ?_⟩
  · refine (congrArg (fun cross => { b.engine with cross := cross }) checked).trans ?_
    rw [engine]
    rfl
  · refine (congrArg (fun cross => b.touched.extend (differing b.engine.cross cross)) checked).trans
      ?_
    rw [touched, cross]
    rfl

/-- **A pass does not depend on revisions**, apart from noting them: it leaves engines that are
alike, and it touches and compiles the same files. -/
theorem Alike.run (h : a.Alike b) :
    (a.run input).1.Alike (b.run (input.withRevision revision)).1 ∧
      (b.run (input.withRevision revision)).2 = (a.run input).2 := by
  have begun := h.restructure input revision
  have batch : (b.restructure (input.withRevision revision)).engine.rootsToCompile
        (b.restructure (input.withRevision revision)).dirty =
      (a.restructure input).engine.rootsToCompile (a.restructure input).dirty := by
    obtain ⟨units, engine, -⟩ := begun.engine
    rw [begun.dirty, engine]
    rfl
  have done : (Engine.crossCheck (a.recompiled input) input).Alike (Engine.crossCheck
      (b.recompiled (input.withRevision revision)) (input.withRevision revision)) := by
    rw [recompiled_eq, recompiled_eq, batch]
    exact (begun.foldl_compileRoot input revision _).crossCheck input revision
  constructor
  · rw [run_fst, run_fst]
    exact done.engine
  · have touched := done.touched
    rw [recompiled, recompiled, batch] at touched
    rw [Engine.run, Engine.run]
    dsimp only
    rw [batch, touched, begun.dirty]

end Engine

end SvServer
