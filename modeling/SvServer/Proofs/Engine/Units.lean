import SvServer.Proofs.Engine.Roots
import SvServer.Proofs.Engine.Touched

/-!
# The units that a pass keeps and those that it compiles

The first step drops the units of roots that are roots no more, the second compiles a batch of
roots. This module says what each of them leaves in the engine, root by root, and which roots are in
the batch: every root that is dirty, that read a dirty file, or that includes one, directly or
through others.
-/

namespace SvServer.Engine

open Include (ReadIndex)

/-! ## Dropping and compiling, root by root -/

theorem unit?_foldl_dropRoot (roots : List Path) (engine : Engine) (root : Path) :
    (roots.foldl dropRoot engine).unit? root =
      if roots.contains root then none else engine.unit? root := by
  rw [← List.any_beq']
  exact read_foldl unit? (· == ·) unit?_dropRoot (fun _ _ _ => rfl) engine

theorem filesOf_foldl_dropRoot (roots : List Path) (engine : Engine) (root : Path) :
    (roots.foldl dropRoot engine).index.filesOf root =
      if roots.contains root then ∅ else engine.index.filesOf root := by
  have writes : ∀ (engine : Engine) (root other : Path),
      (engine.dropRoot root).index.filesOf other =
        if root == other then ∅ else engine.index.filesOf other :=
    fun engine => ReadIndex.filesOf_forget engine.index
  rw [← List.any_beq']
  exact read_foldl (fun (engine : Engine) root => engine.index.filesOf root) (· == ·) writes
    (fun _ _ _ => rfl) engine

theorem plainRoots_foldl_dropRoot (roots : List Path) {engine : Engine}
    (h : engine.index.PlainRoots) : (roots.foldl dropRoot engine).index.PlainRoots := by
  induction roots generalizing engine with
  | nil => exact h
  | cons first rest ih => exact ih (h.forget first)

/-- One root of a batch is compiled. -/
def compileRoot (input : PassSetup) (pass : Pass) (root : Path) : Pass :=
  let result := compileUnit (settings input) root
  { pass with
    engine := pass.engine.keepUnit result
    touched :=
      ((pass.touched.join (pass.engine.index.filesOf root)).join result.filesRead).insert root }

theorem recompile_eq (pass : Pass) (input : PassSetup) (batch : PathSet) :
    recompile pass input batch = batch.toList.foldl (compileRoot input) pass := rfl

theorem unit?_compileRoot (input : PassSetup) (pass : Pass) (root other : Path) :
    (compileRoot input pass root).engine.unit? other =
      if root == other then some (compileUnit (settings input) root)
      else pass.engine.unit? other := by
  rw [compileRoot, unit?_keepUnit, root_compileUnit]

theorem filesOf_compileRoot (input : PassSetup) (pass : Pass) (root other : Path) :
    (compileRoot input pass root).engine.index.filesOf other =
      if root == other then (compileUnit (settings input) root).filesRead
      else pass.engine.index.filesOf other := by
  show (pass.engine.index.record _ _ _).filesOf other = _
  rw [ReadIndex.filesOf_record, root_compileUnit]

/-- The unit of a plain root after a batch of plain roots. -/
theorem unit?_foldl_compileRoot (input : PassSetup) {batch : List Path}
    (plain : ∀ root ∈ batch, root.IsPlain) (pass : Pass) {root : Path} (plainRoot : root.IsPlain) :
    (batch.foldl (compileRoot input) pass).engine.unit? root =
      if batch.contains root then some (compileUnit (settings input) root)
      else pass.engine.unit? root := by
  rw [← List.any_beq']
  apply read_foldl (fun (pass : Pass) root => pass.engine.unit? root) (· == ·)
    (unit?_compileRoot input)
  intro other member same
  rw [(plain other member).eq_of_beq plainRoot same]

/-- The reading of a plain root after a batch of plain roots. -/
theorem filesOf_foldl_compileRoot (input : PassSetup) {batch : List Path}
    (plain : ∀ root ∈ batch, root.IsPlain) (pass : Pass) {root : Path} (plainRoot : root.IsPlain) :
    (batch.foldl (compileRoot input) pass).engine.index.filesOf root =
      if batch.contains root then (compileUnit (settings input) root).filesRead
      else pass.engine.index.filesOf root := by
  rw [← List.any_beq']
  apply read_foldl (fun (pass : Pass) root => pass.engine.index.filesOf root) (· == ·)
    (filesOf_compileRoot input)
  intro other member same
  rw [(plain other member).eq_of_beq plainRoot same]

theorem plainRoots_foldl_compileRoot (input : PassSetup) {batch : List Path}
    (plain : ∀ root ∈ batch, root.IsPlain) {pass : Pass} (h : pass.engine.index.PlainRoots) :
    (batch.foldl (compileRoot input) pass).engine.index.PlainRoots := by
  induction batch generalizing pass with
  | nil => exact h
  | cons first rest ih =>
      apply ih fun other member => plain other (List.mem_cons_of_mem _ member)
      apply h.record
      rw [root_compileUnit]
      exact plain first List.mem_cons_self

/-- Compiling changes neither files nor graph nor roots. -/
theorem Maps.foldl_compileRoot {input setup : PassSetup} (batch : List Path) {pass : Pass}
    (h : pass.engine.Maps setup) : (batch.foldl (compileRoot input) pass).engine.Maps setup := by
  induction batch generalizing pass with
  | nil => exact h
  | cons first rest ih =>
      exact ih ⟨h.eligible, h.names, h.keys, h.sources, h.graph, h.plainRoots, h.roots⟩

theorem recompiled_eq (engine : Engine) (input : PassSetup) :
    engine.recompiled input = ((engine.restructure input).engine.rootsToCompile
      (engine.restructure input).dirty).toList.foldl (compileRoot input)
        (engine.restructure input) := by
  rw [recompiled, recompile_eq]

/-- The project checks change neither files nor graph nor roots. -/
theorem Maps.crossCheck {setup : PassSetup} {pass : Pass} (h : pass.engine.Maps setup)
    (input : PassSetup) : (Engine.crossCheck pass input).engine.Maps setup :=
  ⟨h.eligible, h.names, h.keys, h.sources, h.graph, h.plainRoots, h.roots⟩

theorem unit?_crossCheck (pass : Pass) (input : PassSetup) (root : Path) :
    (crossCheck pass input).engine.unit? root = pass.engine.unit? root := rfl

theorem cross_crossCheck (pass : Pass) (input : PassSetup) :
    (crossCheck pass input).engine.cross =
      if input.crossFile then CrossFile.diagnostics (crossCheck pass input).engine.rootUnits
      else ∅ := rfl

/-! ## The batch -/

theorem contains_rootsToCompile {engine : Engine} {dirty : PathSet} {root : Path} :
    (engine.rootsToCompile dirty).contains root = true ↔
      ∃ path ∈ dirty.toList, (engine.rootsAffectedBy path).contains root = true := by
  rw [rootsToCompile, PathSet.contains_extend, Std.ExtTreeSet.contains_empty, Bool.false_or]
  simp only [List.contains_iff_exists_mem_beq, List.mem_flatMap]
  constructor
  · rintro ⟨other, ⟨path, member, affected⟩, same⟩
    exact ⟨path, member, other, affected, same⟩
  · rintro ⟨path, member, other, affected, same⟩
    exact ⟨other, ⟨path, member, affected⟩, same⟩

/-- **The roots that a file affects**: itself, those that read it, those that wait for it if it is
eligible, and those that include it. -/
theorem contains_rootsAffectedBy {engine : Engine} {path root : Path} :
    (engine.rootsAffectedBy path).contains root = true ↔
      engine.roots.contains root = true ∧ ((path == root) = true ∨
        (engine.index.readersOf path).contains root = true ∨
        (engine.eligible.contains path = true ∧
          (engine.index.waitersFor path).contains root = true) ∨
        (engine.graph.includersWithin path Unit.openFileLimit).contains root = true) := by
  have filtered : ∀ list : List Path, (list.filter engine.roots.contains).contains root = true ↔
      engine.roots.contains root = true ∧ list.contains root = true := by
    intro list
    simp only [List.contains_iff_exists_mem_beq, List.mem_filter]
    constructor
    · rintro ⟨other, ⟨member, isRoot⟩, same⟩
      exact ⟨by rw [PathSet.contains_congr _ same, isRoot], other, member, same⟩
    · rintro ⟨isRoot, other, member, same⟩
      exact ⟨other, ⟨member, by rw [← PathSet.contains_congr _ same, isRoot]⟩, same⟩
  rw [rootsAffectedBy, filtered]
  refine and_congr_right fun _ => ?_
  rw [List.contains_append, List.contains_append, List.contains_cons, BEq.comm (a := root)]
  split
  · rename_i here
    simp [here, or_assoc]
  · rename_i elsewhere
    simp [elsewhere, or_assoc]

/-- All roots of a batch are roots, and plain. -/
theorem plain_rootsToCompile {engine : Engine} {dirty : PathSet} (plainDirty : dirty.Plain)
    (index : engine.index.PlainRoots) (sources : engine.graph.PlainSources) :
    (engine.rootsToCompile dirty).Plain := by
  apply PathSet.Plain.extend .empty
  intro root member
  obtain ⟨path, listed, affected⟩ := List.mem_flatMap.1 member
  rw [rootsAffectedBy, List.mem_filter, List.mem_append, List.mem_append, List.mem_cons]
    at affected
  rcases affected.1 with ((rfl | reads) | waits) | includes
  · exact plainDirty root listed
  · exact index.readersOf path root reads
  · split at waits
    · exact index.waitersFor path root waits
    · exact absurd waits List.not_mem_nil
  · exact Include.Graph.plain_includersWithin sources path _ root includes

/-! ## What the first step leaves -/

section Restructure

variable {excluded : List Path} {severity : Severity} {before after : PassSetup} {engine : Engine}

/-- The roots that the first step drops, and what it leaves of units and index. -/
theorem restructure_results (engine : Engine) (input : PassSetup) :
    ∃ lost : List Path,
      (∀ root, lost.contains root = true → engine.roots.contains root = true ∧
        (engine.restructure input).engine.roots.contains root = false) ∧
      (∀ root, engine.roots.contains root = true →
        (engine.restructure input).engine.roots.contains root = false →
        lost.contains root = true) ∧
      (engine.restructure input).engine.units = (lost.foldl dropRoot engine).units ∧
      (engine.restructure input).engine.index = (lost.foldl dropRoot engine).index := by
  rw [restructure]
  split
  · -- With a new graph, the roots that it does not have are lost.
    refine ⟨(engine.roots \ rootsOf (engine.eligibleAfter input) (buildGraph
      (engine.eligibleAfter input) input.sources (engine.includesAfter input))).toList,
      ?_, ?_, rfl, rfl⟩
    · intro root lost
      rw [Std.ExtTreeSet.contains_toList, PathSet.contains_diff, Bool.and_eq_true,
        Bool.not_eq_true'] at lost
      exact lost
    · intro root was gone
      rw [Std.ExtTreeSet.contains_toList, PathSet.contains_diff, was, gone]
      rfl
  · refine ⟨[], ?_, ?_, rfl, rfl⟩
    · intro root lost
      exact absurd lost Bool.false_ne_true
    · intro root was gone
      rw [was] at gone
      exact absurd gone (by decide)

/-- A root that stays keeps its unit and its reading. -/
theorem kept_restructure {input : PassSetup} {root : Path}
    (stays : (engine.restructure input).engine.roots.contains root = true) :
    (engine.restructure input).engine.unit? root = engine.unit? root ∧
      (engine.restructure input).engine.index.filesOf root = engine.index.filesOf root := by
  obtain ⟨lost, gone, -, units, index⟩ := restructure_results engine input
  have kept : lost.contains root = false := by
    by_contra dropped
    rw [Bool.not_eq_false] at dropped
    rw [(gone root dropped).2] at stays
    exact absurd stays (by decide)
  have unit := unit?_foldl_dropRoot lost engine root
  have files := filesOf_foldl_dropRoot lost engine root
  rw [kept] at unit files
  rw [unit?, units, index]
  exact ⟨unit, files⟩

/-- A root that is lost has read nothing. -/
theorem filesOf_restructure_of_lost {input : PassSetup} {root : Path}
    (was : engine.roots.contains root = true)
    (gone : (engine.restructure input).engine.roots.contains root = false) :
    (engine.restructure input).engine.index.filesOf root = ∅ := by
  obtain ⟨lost, -, dropped, -, index⟩ := restructure_results engine input
  rw [index, filesOf_foldl_dropRoot, dropped root was gone]
  rfl

/-- What was not read before the first step is not read after it. -/
theorem filesOf_restructure_of_empty {input : PassSetup} {root : Path}
    (h : engine.index.filesOf root = ∅) :
    (engine.restructure input).engine.index.filesOf root = ∅ := by
  obtain ⟨lost, -, -, -, index⟩ := restructure_results engine input
  rw [index, filesOf_foldl_dropRoot, h, ite_self]

theorem plainRoots_restructure (h : engine.index.PlainRoots) (input : PassSetup) :
    (engine.restructure input).engine.index.PlainRoots := by
  obtain ⟨lost, -, -, -, index⟩ := restructure_results engine input
  rw [index]
  exact plainRoots_foldl_dropRoot lost h

/-! ## What is dirty -/

theorem contains_startingDirty (path : Path) : (engine.startingDirty after).contains path =
    (after.dirty.contains path || (after.compileAdded && (engine.added after).contains path) ||
      (engine.removed after).contains path) := by
  rw [startingDirty, PathSet.contains_join]
  cases after.compileAdded <;> simp

/-- Everything that a pass starts from is dirty. -/
theorem dirty_of_starting {path : Path} (h : (engine.startingDirty after).contains path = true) :
    (engine.restructure after).dirty.contains path = true := by
  rw [restructure]
  split
  · dsimp only
    rw [PathSet.contains_join, h, Bool.true_or]
  · exact h

/-- A new root is dirty, unless it is a new file that is not to be compiled yet. -/
theorem dirty_of_gained {root : Path}
    (comes : after.compileAdded = true ∨ (engine.added after).contains root = false)
    (isRoot : (engine.restructure after).engine.roots.contains root = true)
    (new : engine.roots.contains root = false) :
    (engine.restructure after).dirty.contains root = true := by
  rw [restructure] at isRoot ⊢
  by_cases needed : engine.needsGraph after = true
  · rw [if_pos needed] at isRoot ⊢
    dsimp only at isRoot ⊢
    have spelled : ∀ a b : Path, (a == b) = true →
        (after.compileAdded || !(engine.added after).contains a) =
          (after.compileAdded || !(engine.added after).contains b) :=
      fun a b same => by rw [PathSet.contains_congr _ same]
    rw [PathSet.contains_join, PathSet.contains_filter _ _ spelled, PathSet.contains_diff, isRoot,
      new]
    rcases comes with compiles | known
    · simp [compiles]
    · simp [known]
  · rw [if_neg needed, new] at isRoot
    exact absurd isRoot (by decide)

theorem plain_dirty_restructure (maps : engine.Maps before)
    (was : before.OverProject excluded severity) (now : after.OverProject excluded severity)
    (roots : (engine.restructure after).engine.roots.Plain) :
    (engine.restructure after).dirty.Plain := by
  have starting : (engine.startingDirty after).Plain := by
    rw [startingDirty, now.compiles, if_pos rfl]
    exact (now.plainDirty.join (plain_added now)).join (plain_removed maps was)
  rw [restructure] at roots ⊢
  split at roots
  · rename_i needed
    rw [if_pos needed]
    exact starting.join ((roots.diff _).filter _)
  · rename_i still
    rw [if_neg still]
    exact starting

end Restructure

end SvServer.Engine
