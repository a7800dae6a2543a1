import SvServer.Proofs.Engine.Units

/-!
# What a pass leaves behind, root by root

Whatever the engine knew before and however paths are spelled: a root that the pass compiled has the
unit that compiling it gives, and every other root keeps the unit it had. A dirty root is compiled,
and so is a root that read a dirty file. Only roots read files, and the diagnostics of a file come
from the units of roots that read it and from the checks over the whole project.
-/

namespace SvServer.Engine

open Include (ReadIndex)

/-! ## The batch of a pass -/

theorem compiled_run (engine : Engine) (input : PassSetup) :
    (engine.run input).2.compiled =
      (engine.restructure input).engine.rootsToCompile (engine.restructure input).dirty := by
  rw [run]

/-- **What neither a unit nor the project checks write** is after a pass as the first step left
it. -/
theorem view_run {α : Type} (view : Engine → α)
    (kept : ∀ (engine : Engine) result, view (engine.keepUnit result) = view engine)
    (checked : ∀ (engine : Engine) cross, view { engine with cross := cross } = view engine)
    (engine : Engine) (input : PassSetup) :
    view (engine.run input).1 = view (engine.restructure input).engine := by
  have compiled : ∀ (batch : List Path) (pass : Pass),
      view (batch.foldl (compileRoot input) pass).engine = view pass.engine := by
    intro batch pass
    induction batch generalizing pass with
    | nil => rfl
    | cons first rest ih => rw [List.foldl_cons, ih, compileRoot, kept]
  rw [run_fst, crossCheck, checked, recompiled_eq, compiled]

theorem roots_run (engine : Engine) (input : PassSetup) :
    (engine.run input).1.roots = (engine.restructure input).engine.roots :=
  view_run roots (fun _ _ => rfl) (fun _ _ => rfl) engine input

theorem graph_run (engine : Engine) (input : PassSetup) :
    (engine.run input).1.graph = (engine.restructure input).engine.graph :=
  view_run graph (fun _ _ => rfl) (fun _ _ => rfl) engine input

theorem eligible_run (engine : Engine) (input : PassSetup) :
    (engine.run input).1.eligible = (engine.restructure input).engine.eligible :=
  view_run eligible (fun _ _ => rfl) (fun _ _ => rfl) engine input

/-- Only roots are compiled. -/
theorem isRoot_of_compiled {engine : Engine} {input : PassSetup} {root : Path}
    (compiled : (engine.run input).2.compiled.contains root = true) :
    (engine.run input).1.roots.contains root = true := by
  rw [compiled_run, contains_rootsToCompile] at compiled
  obtain ⟨path, -, affected⟩ := compiled
  obtain ⟨other, member, same⟩ := List.contains_iff_exists_mem_beq.1 affected
  rw [rootsAffectedBy, List.mem_filter] at member
  rw [roots_run, PathSet.contains_congr _ same]
  exact member.2

/-- **What a dirty file affects is compiled**: the root itself, roots that read the file, and roots
that the walk from it reaches. The batch may have the file in another spelling. -/
theorem compiled_of_affected {engine : Engine} {input : PassSetup} {root path : Path}
    (isRoot : (engine.run input).1.roots.contains root = true)
    (dirty : (engine.restructure input).dirty.contains path = true)
    (affects : (path == root) = true ∨
      ((engine.restructure input).engine.index.readersOf path).contains root = true ∨
      ((engine.restructure input).engine.graph.includersWithin path
        Unit.openFileLimit).contains root = true) :
    (engine.run input).2.compiled.contains root = true := by
  rw [roots_run] at isRoot
  obtain ⟨member, listed, same⟩ := PathSet.exists_mem_toList dirty
  rw [compiled_run, contains_rootsToCompile]
  refine ⟨member, listed, contains_rootsAffectedBy.2 ⟨isRoot, ?_⟩⟩
  rcases affects with itself | reads | includes
  · exact .inl (BEq.trans (BEq.symm same) itself)
  · rw [ReadIndex.readersOf_congr _ same] at reads
    exact .inr (.inl reads)
  · rw [Include.Graph.includersWithin_congr _ same] at includes
    exact .inr (.inr (.inr includes))

/-- A root that is dirty once the files of the pass are known is compiled. -/
theorem compiled_of_dirty_root {engine : Engine} {input : PassSetup} {root : Path}
    (isRoot : (engine.run input).1.roots.contains root = true)
    (dirty : (engine.restructure input).dirty.contains root = true) :
    (engine.run input).2.compiled.contains root = true :=
  compiled_of_affected isRoot dirty (.inl BEq.rfl)

/-- **A root that read a file that a pass starts from is compiled.** -/
theorem compiled_of_read {engine : Engine} {input : PassSetup} {root path : Path}
    (inverse : engine.index.Inverse)
    (isRoot : (engine.run input).1.roots.contains root = true)
    (starting : (engine.startingDirty input).contains path = true)
    (reads : (engine.index.filesOf root).contains path = true) :
    (engine.run input).2.compiled.contains root = true := by
  refine compiled_of_affected isRoot (dirty_of_starting starting) (.inr (.inl ?_))
  rw [(grownFrom_restructure inverse input).inverse,
    (kept_restructure (by rw [← roots_run, isRoot])).2, reads]

/-- **A dirty root is compiled, and so is a root that read a dirty file.** -/
theorem compiled_of_dirty {engine : Engine} {input : PassSetup} {root path : Path}
    (inverse : engine.index.Inverse)
    (isRoot : (engine.run input).1.roots.contains root = true)
    (dirty : input.dirty.contains path = true)
    (leads : (path == root) = true ∨ (engine.index.filesOf root).contains path = true) :
    (engine.run input).2.compiled.contains root = true := by
  have starting : (engine.startingDirty input).contains path = true := by
    rw [contains_startingDirty, dirty]
    rfl
  rcases leads with itself | reads
  · exact compiled_of_affected isRoot (dirty_of_starting starting) (.inl itself)
  · exact compiled_of_read inverse isRoot starting reads

/-! ## The files of a pass -/

/-- Where no files moved, those of the engine are those of the pass. -/
theorem contains_eligible_of_still {engine : Engine} {input : PassSetup}
    (still : engine.movesFiles input = false) (path : Path) :
    engine.eligible.contains path = input.eligible.contains path := by
  rw [movesFiles, Bool.or_eq_false_iff, Bool.not_eq_false', Bool.not_eq_false',
    Std.ExtTreeSet.isEmpty_iff, Std.ExtTreeSet.isEmpty_iff] at still
  have nothingCame : (engine.added input).contains path = false := by
    rw [still.1, Std.ExtTreeSet.contains_empty]
  have nothingLeft : (engine.removed input).contains path = false := by
    rw [still.2, Std.ExtTreeSet.contains_empty]
  rw [added, PathSet.contains_diff] at nothingCame
  rw [removed, PathSet.contains_diff] at nothingLeft
  cases was : engine.eligible.contains path <;> cases is : input.eligible.contains path <;>
    simp_all

theorem contains_eligibleAfter (engine : Engine) (input : PassSetup) (path : Path) :
    (engine.eligibleAfter input).contains path = input.eligible.contains path := by
  rw [eligibleAfter]
  split
  · rfl
  · rename_i still
    exact contains_eligible_of_still ((Bool.not_eq_true _).mp still) path

/-- All roots are eligible. -/
def RootsEligible (engine : Engine) : Prop :=
  ∀ root, engine.roots.contains root = true → engine.eligible.contains root = true

theorem rootsEligible_empty : RootsEligible empty := fun _ isRoot => absurd isRoot (by
  rw [empty, Std.ExtTreeSet.contains_empty]; decide)

/-- **After a pass, all roots are among the files of the pass.** -/
theorem eligible_of_isRoot {engine : Engine} (h : engine.RootsEligible) {input : PassSetup}
    {root : Path} (isRoot : (engine.run input).1.roots.contains root = true) :
    input.eligible.contains root = true := by
  rw [roots_run, restructure] at isRoot
  split at isRoot
  · rw [← contains_eligibleAfter engine]
    exact Std.ExtTreeSet.contains_of_contains_filter isRoot
  · rename_i known
    rw [needsGraph, Bool.or_eq_true, not_or, Bool.not_eq_true] at known
    rw [← contains_eligible_of_still known.1]
    exact h root isRoot

theorem contains_eligible_run (engine : Engine) (input : PassSetup) (path : Path) :
    (engine.run input).1.eligible.contains path = input.eligible.contains path := by
  rw [eligible_run, restructure]
  split
  · exact contains_eligibleAfter engine input path
  · rename_i known
    rw [needsGraph, Bool.or_eq_true, not_or, Bool.not_eq_true] at known
    exact contains_eligible_of_still known.1 path

theorem RootsEligible.run {engine : Engine} (h : engine.RootsEligible) (input : PassSetup) :
    (engine.run input).1.RootsEligible := by
  intro root isRoot
  rw [contains_eligible_run]
  exact eligible_of_isRoot h isRoot

/-! ## The units after a pass -/

/-- Compiling a batch leaves the units outside of it alone. -/
theorem unit?_foldl_compileRoot_of_absent (input : PassSetup) {batch : List Path} {root : Path}
    (absent : batch.contains root = false) (pass : Pass) :
    (batch.foldl (compileRoot input) pass).engine.unit? root = pass.engine.unit? root := by
  rw [← List.any_beq', List.any_eq_false] at absent
  apply read_foldl_of_absent (fun (pass : Pass) root => pass.engine.unit? root) (· == ·)
    (unit?_compileRoot input)
  exact fun other member => (Bool.not_eq_true _).mp (absent other member)

/-- The unit of a root in a batch, under the spelling that the batch has of it. -/
theorem unit?_foldl_compileRoot_of_present (input : PassSetup) {batch : List Path} {root : Path}
    (present : batch.contains root = true) (pass : Pass) :
    ∃ spelled : Path, (spelled == root) = true ∧
      (batch.foldl (compileRoot input) pass).engine.unit? root =
        some (compileUnit (settings input) spelled) := by
  rw [← List.any_beq', List.any_eq_true] at present
  obtain ⟨spelled, -, same, unit⟩ := read_foldl_of_present
    (fun (pass : Pass) root => pass.engine.unit? root) (· == ·) (unit?_compileRoot input) present
    pass
  exact ⟨spelled, same, unit⟩

theorem unit?_run (engine : Engine) (input : PassSetup) (root : Path) :
    (engine.run input).1.unit? root = (((engine.run input).2.compiled).toList.foldl
      (compileRoot input) (engine.restructure input)).engine.unit? root := by
  rw [run_fst, unit?_crossCheck, recompiled_eq, compiled_run]

/-- **A compiled root has the unit that compiling it gives.** -/
theorem unit?_of_compiled {engine : Engine} {input : PassSetup} {root : Path}
    (compiled : (engine.run input).2.compiled.contains root = true) :
    ∃ spelled : Path, (spelled == root) = true ∧
      (engine.run input).1.unit? root = some (compileUnit (settings input) spelled) := by
  rw [unit?_run]
  exact unit?_foldl_compileRoot_of_present input
    (by rw [Std.ExtTreeSet.contains_toList, compiled]) _

/-- **A root that was not compiled has the unit that it had.** -/
theorem unit?_of_not_compiled {engine : Engine} {input : PassSetup} {root : Path}
    (isRoot : (engine.run input).1.roots.contains root = true)
    (spared : (engine.run input).2.compiled.contains root = false) :
    (engine.run input).1.unit? root = engine.unit? root := by
  rw [roots_run] at isRoot
  rw [unit?_run, unit?_foldl_compileRoot_of_absent input
    (by rw [Std.ExtTreeSet.contains_toList, spared]), (kept_restructure isRoot).1]

/-- **A unit after a pass** was there before it, or the pass compiled it. -/
theorem unit?_run_cases {engine : Engine} {input : PassSetup} {root : Path} {unit : UnitReport}
    (kept : (engine.run input).1.unit? root = some unit) :
    engine.unit? root = some unit ∨ ∃ spelled, compileUnit (settings input) spelled = unit := by
  cases compiled : (engine.run input).2.compiled.contains root with
  | true =>
      obtain ⟨spelled, -, fresh⟩ := unit?_of_compiled compiled
      exact .inr ⟨spelled, Option.some.inj (fresh.symm.trans kept)⟩
  | false =>
      obtain ⟨lost, -, -, units, -⟩ := restructure_results engine input
      rw [unit?_run, unit?_foldl_compileRoot_of_absent input
        (by rw [Std.ExtTreeSet.contains_toList, compiled]), unit?, units] at kept
      have left := (unit?_foldl_dropRoot lost engine root).symm.trans kept
      split at left
      · cases left
      · exact .inl left

/-! ## Roots without a unit -/

/-- The engine has seen the file, and has a unit for it if it is a root. -/
def Knows (engine : Engine) (file : Path) : Prop :=
  engine.eligible.contains file = true ∧
    (engine.roots.contains file = true → (engine.unit? file).isSome = true)

theorem isSome_unit?_of_compiled {engine : Engine} {input : PassSetup} {root : Path}
    (compiled : (engine.run input).2.compiled.contains root = true) :
    ((engine.run input).1.unit? root).isSome = true := by
  obtain ⟨spelled, -, unit⟩ := unit?_of_compiled compiled
  rw [unit]
  rfl

/-- A file that a pass starts from is known afterwards. -/
theorem knows_of_starting {engine : Engine} {input : PassSetup} {file : Path}
    (here : input.eligible.contains file = true)
    (starting : (engine.startingDirty input).contains file = true) :
    (engine.run input).1.Knows file := by
  refine ⟨by rw [contains_eligible_run, here], fun isRoot => ?_⟩
  exact isSome_unit?_of_compiled (compiled_of_dirty_root isRoot (dirty_of_starting starting))

/-- **What is known stays known** as long as it takes part. A file that another one included has a
unit as soon as it is a root. -/
theorem Knows.run {engine : Engine} {file : Path} (h : engine.Knows file) {input : PassSetup}
    (here : input.eligible.contains file = true) : (engine.run input).1.Knows file := by
  refine ⟨by rw [contains_eligible_run, here], fun isRoot => ?_⟩
  cases compiled : (engine.run input).2.compiled.contains file with
  | true => exact isSome_unit?_of_compiled compiled
  | false =>
      rw [unit?_of_not_compiled isRoot compiled]
      apply h.2
      by_contra new
      rw [Bool.not_eq_true] at new
      have known : (engine.added input).contains file = false := by
        rw [added, PathSet.contains_diff, h.1, Bool.not_true, Bool.and_false]
      rw [compiled_of_dirty_root isRoot (dirty_of_gained (.inr known)
        (by rw [← roots_run, isRoot]) new)] at compiled
      exact absurd compiled (by decide)

/-- **The roots that have no unit after a pass that compiles new files** are roots that had none
before it and that it did not compile. -/
theorem unit?_eq_none_iff {engine : Engine} {input : PassSetup}
    (compiles : input.compileAdded = true) {root : Path}
    (isRoot : (engine.run input).1.roots.contains root = true) :
    (engine.run input).1.unit? root = none ↔ engine.roots.contains root = true ∧
      engine.unit? root = none ∧ (engine.run input).2.compiled.contains root = false := by
  constructor
  · intro missing
    have spared : (engine.run input).2.compiled.contains root = false := by
      by_contra compiled
      rw [Bool.not_eq_false] at compiled
      have unit := isSome_unit?_of_compiled compiled
      rw [missing] at unit
      exact absurd unit (by decide)
    refine ⟨?_, by rw [← unit?_of_not_compiled isRoot spared, missing], spared⟩
    by_contra new
    rw [Bool.not_eq_true] at new
    rw [compiled_of_dirty_root isRoot (dirty_of_gained (.inl compiles)
      (by rw [← roots_run, isRoot]) new)] at spared
    exact absurd spared (by decide)
  · rintro ⟨-, none, spared⟩
    rw [unit?_of_not_compiled isRoot spared, none]

/-! ## Who reads -/

/-- Only roots have read anything. -/
def ReadByRoots (engine : Engine) : Prop :=
  ∀ root, engine.roots.contains root = false → engine.index.filesOf root = ∅

theorem readByRoots_empty : ReadByRoots empty := fun _ _ => rfl

theorem filesOf_foldl_compileRoot_of_absent (input : PassSetup) {batch : List Path} {root : Path}
    (absent : batch.contains root = false) (pass : Pass) :
    (batch.foldl (compileRoot input) pass).engine.index.filesOf root =
      pass.engine.index.filesOf root := by
  rw [← List.any_beq', List.any_eq_false] at absent
  apply read_foldl_of_absent (fun (pass : Pass) root => pass.engine.index.filesOf root) (· == ·)
    (filesOf_compileRoot input)
  exact fun other member => (Bool.not_eq_true _).mp (absent other member)

theorem filesOf_run (engine : Engine) (input : PassSetup) (root : Path) :
    (engine.run input).1.index.filesOf root = (((engine.run input).2.compiled).toList.foldl
      (compileRoot input) (engine.restructure input)).engine.index.filesOf root := by
  rw [run_fst, index_crossCheck, recompiled_eq, compiled_run]

/-- A pass leaves it so that only roots have read anything. -/
theorem ReadByRoots.run {engine : Engine} (h : engine.ReadByRoots) (input : PassSetup) :
    (engine.run input).1.ReadByRoots := by
  intro root noRoot
  have spared : ((engine.run input).2.compiled).toList.contains root = false := by
    rw [Std.ExtTreeSet.contains_toList, Bool.eq_false_iff]
    intro compiled
    rw [isRoot_of_compiled compiled] at noRoot
    exact absurd noRoot (by decide)
  rw [roots_run] at noRoot
  rw [filesOf_run, filesOf_foldl_compileRoot_of_absent input spared]
  cases was : engine.roots.contains root with
  | true => exact filesOf_restructure_of_lost was noRoot
  | false => exact filesOf_restructure_of_empty (h root was)

/-! ## Where diagnostics come from -/

/-- The diagnostics of a file do not depend on how it is spelled. -/
theorem diagnosticsOf_congr (engine : Engine) {a b : Path} (h : (a == b) = true) :
    engine.diagnosticsOf a = engine.diagnosticsOf b := by
  have found : ∀ d : Diagnostic, (d.path == a) = (d.path == b) := fun d => BEq.congr_right h
  rw [diagnosticsOf_eq, diagnosticsOf_eq, unitsReading, unitsReading,
    ReadIndex.readersOf_congr _ h, PathMap.getElem?_congr _ h]
  simp only [found]

/-- A diagnostic of a file is one of a unit that reads it, or of the checks over the project. -/
theorem mem_diagnosticsOf {engine : Engine} {path : Path} {d : Diagnostic}
    (h : d ∈ engine.diagnosticsOf path) :
    (∃ root unit, (engine.index.readersOf path).contains root = true ∧
      engine.unit? root = some unit ∧ d ∈ unit.diagnostics ∧ (d.path == path) = true) ∨
    d ∈ engine.cross[path]?.getD [] := by
  have member := (dropRepeats_sublist _).subset h
  rw [Diagnostic.sort, List.mem_mergeSort, List.mem_append] at member
  rcases member with ofUnit | ofProject
  · obtain ⟨unit, reading, within⟩ := List.mem_flatMap.1 ofUnit
    obtain ⟨root, reads, kept⟩ := List.mem_filterMap.1 reading
    obtain ⟨inUnit, here⟩ := List.mem_filter.1 within
    exact .inl ⟨root, unit, PathSet.contains_of_mem_toList reads, kept, inUnit, here⟩
  · exact .inr ofProject

/-- A reader of a file is a root. -/
theorem ReadByRoots.isRoot {engine : Engine} (only : engine.ReadByRoots)
    (inverse : engine.index.Inverse) {path root : Path}
    (reads : (engine.index.readersOf path).contains root = true) :
    engine.roots.contains root = true := by
  by_contra noRoot
  rw [Bool.not_eq_true] at noRoot
  rw [inverse, only root noRoot, Std.ExtTreeSet.contains_empty] at reads
  exact absurd reads (by decide)

/-- The unit of a root is one of the units of the roots. -/
theorem mem_rootUnits {engine : Engine} {root : Path} {unit : UnitReport}
    (isRoot : engine.roots.contains root = true) (kept : engine.unit? root = some unit) :
    unit ∈ engine.rootUnits := by
  obtain ⟨member, listed, same⟩ := PathSet.exists_mem_toList isRoot
  have spelled : engine.unit? member = some unit := by
    rw [← kept]
    exact (PathMap.getElem?_congr _ same).symm
  exact List.mem_filterMap.2 ⟨member, listed, spelled⟩

theorem cross_run (engine : Engine) (input : PassSetup) :
    (engine.run input).1.cross =
      if input.crossFile then CrossFile.diagnostics (engine.run input).1.rootUnits else ∅ := by
  rw [run_fst, cross_crossCheck]

end SvServer.Engine
