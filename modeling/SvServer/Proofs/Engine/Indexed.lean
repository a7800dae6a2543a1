import SvServer.Proofs.Engine.Results

/-!
# The index says what the units say

The read index holds a root exactly if the engine holds its unit: the files under it are those that
the unit read and the names are those that the unit missed. Dropping a root and keeping a unit change
both at the same root, so all steps of a pass keep them alike. Units belong to roots, under their own
path: a pass drops the units of lost roots and compiles roots only.
-/

namespace SvServer.Engine

open Include (ReadIndex)

/-- The index has what the units read and missed, by their roots, and leads back both ways. -/
structure Indexed (engine : Engine) : Prop where
  reads : ∀ root, engine.index.filesOf? root = (engine.unit? root).map UnitReport.filesRead
  /-- Missing names are stored for units that miss some. -/
  missing : ∀ root, engine.index.missing[root]? = (engine.unit? root).bind fun unit =>
    if unit.missingIncludes.isEmpty then none else some unit.missingIncludes
  readers : engine.index.Inverse
  waiting : engine.index.NamesInverse
  inhabited : engine.index.Inhabits

theorem indexed_empty : Indexed empty where
  reads _ := rfl
  missing _ := rfl
  readers := .empty
  waiting := .empty
  inhabited := .empty

theorem Indexed.dropRoot {engine : Engine} (h : engine.Indexed) (root : Path) :
    (engine.dropRoot root).Indexed where
  reads other := by
    rw [unit?_dropRoot, Engine.dropRoot, ReadIndex.filesOf?_forget, h.reads]
    split <;> rfl
  missing other := by
    rw [unit?_dropRoot, Engine.dropRoot, ReadIndex.missing_forget, h.missing]
    split <;> rfl
  readers := h.readers.forget root
  waiting := h.waiting.forget root
  inhabited := h.inhabited.forget root

theorem Indexed.keepUnit {engine : Engine} (h : engine.Indexed) (result : UnitReport) :
    (engine.keepUnit result).Indexed where
  reads other := by
    rw [unit?_keepUnit, Engine.keepUnit, ReadIndex.filesOf?_record, h.reads]
    split <;> rfl
  missing other := by
    rw [unit?_keepUnit, Engine.keepUnit, ReadIndex.missing_record, h.missing]
    split <;> rfl
  readers := h.readers.record _ _ _
  waiting := h.waiting.record _ _ _
  inhabited := h.inhabited.record _ _ _

/-- The rest of the engine does not count. -/
theorem Indexed.of_eq {engine other : Engine} (h : engine.Indexed)
    (units : other.units = engine.units) (index : other.index = engine.index) :
    other.Indexed := by
  constructor
  · intro root
    rw [unit?, units, index]
    exact h.reads root
  · intro root
    rw [unit?, units, index]
    exact h.missing root
  · rw [index]
    exact h.readers
  · rw [index]
    exact h.waiting
  · rw [index]
    exact h.inhabited

theorem Indexed.restructure {engine : Engine} (h : engine.Indexed) (input : PassSetup) :
    (engine.restructure input).engine.Indexed := by
  obtain ⟨lost, -, -, units, index⟩ := restructure_results engine input
  have dropped : (lost.foldl Engine.dropRoot engine).Indexed :=
    List.foldlRecOn (motive := Indexed) lost _ h fun _ h root _ => h.dropRoot root
  exact dropped.of_eq units index

theorem units_crossCheck (pass : Pass) (input : PassSetup) :
    (crossCheck pass input).engine.units = pass.engine.units := rfl

/-- **A pass leaves an index that says what the units say.** -/
theorem Indexed.run {engine : Engine} (h : engine.Indexed) (input : PassSetup) :
    (engine.run input).1.Indexed := by
  have recompiled : (engine.recompiled input).engine.Indexed := by
    rw [recompiled_eq]
    exact List.foldlRecOn (motive := fun pass : Pass => pass.engine.Indexed) _ _
      (h.restructure input) fun _ h root _ => h.keepUnit _
  rw [run_fst]
  exact recompiled.of_eq (units_crossCheck _ input) (index_crossCheck _ input)

theorem indexed_afterPasses (inputs : List PassSetup) : (afterPasses inputs).Indexed :=
  invariant_afterPasses Indexed indexed_empty (fun _ input h => h.run input) inputs

namespace Indexed

variable {engine : Engine} (h : engine.Indexed)

include h

/-- The files of a root are those that its unit read. -/
theorem contains_filesOf (root path : Path) : (engine.index.filesOf root).contains path =
    (engine.unit? root).any fun unit => unit.filesRead.contains path := by
  show ((engine.index.filesOf? root).getD ∅).contains path = _
  rw [h.reads]
  cases engine.unit? root <;> simp

/-- The readers of a file are the roots whose units read it. -/
theorem contains_readersOf (path root : Path) : (engine.index.readersOf path).contains root =
    (engine.unit? root).any fun unit => unit.filesRead.contains path := by
  rw [h.readers, h.contains_filesOf]

/-- The names of a root are those that its unit missed. -/
theorem contains_namesOf (root : Path) (name : String) :
    (engine.index.namesOf root).contains name =
      (engine.unit? root).any fun unit => unit.missingIncludes.contains name := by
  rw [ReadIndex.namesOf, h.missing]
  cases engine.unit? root with
  | none => simp
  | some unit =>
      rw [Option.bind_some, Option.any_some]
      split
      · rename_i nothing
        rw [Std.ExtTreeSet.isEmpty_iff.1 nothing]
        rfl
      · rfl

/-- The roots that wait for a name are those whose units miss it. -/
theorem waits (root : Path) (name : String) : engine.index.waits root name =
    (engine.unit? root).any fun unit => unit.missingIncludes.contains name := by
  rw [h.waiting, h.contains_namesOf]

end Indexed

/-! ## Units belong to roots -/

/-- The units that the engine holds are those of roots, each under its own path. -/
def UnitsOfRoots (engine : Engine) : Prop :=
  ∀ root unit, engine.unit? root = some unit →
    engine.roots.contains root = true ∧ (unit.root == root) = true

theorem unitsOfRoots_empty : UnitsOfRoots empty := fun _ _ kept => absurd kept nofun

/-- A unit that the first step leaves was there, and its root stays a root. -/
theorem unit?_restructure {engine : Engine} (h : engine.UnitsOfRoots) {input : PassSetup}
    {root : Path} {unit : UnitReport}
    (kept : (engine.restructure input).engine.unit? root = some unit) :
    engine.unit? root = some unit ∧
      (engine.restructure input).engine.roots.contains root = true := by
  obtain ⟨lost, -, gone, units, -⟩ := restructure_results engine input
  rw [unit?, units] at kept
  have left := (unit?_foldl_dropRoot lost engine root).symm.trans kept
  split at left
  · cases left
  · rename_i stays
    refine ⟨left, ?_⟩
    by_contra noRoot
    exact stays (gone root (h root unit left).1 ((Bool.not_eq_true _).mp noRoot))

/-- **After a pass the units are those of its roots.** -/
theorem UnitsOfRoots.run {engine : Engine} (h : engine.UnitsOfRoots) (input : PassSetup) :
    (engine.run input).1.UnitsOfRoots := by
  intro root unit kept
  cases compiled : (engine.run input).2.compiled.contains root with
  | true =>
      obtain ⟨spelled, same, fresh⟩ := unit?_of_compiled compiled
      refine ⟨isRoot_of_compiled compiled, ?_⟩
      rw [← Option.some.inj (fresh.symm.trans kept), root_compileUnit]
      exact same
  | false =>
      rw [unit?_run, unit?_foldl_compileRoot_of_absent input
        (by rw [Std.ExtTreeSet.contains_toList, compiled])] at kept
      obtain ⟨was, isRoot⟩ := unit?_restructure h kept
      rw [roots_run]
      exact ⟨isRoot, (h root unit was).2⟩

theorem unitsOfRoots_afterPasses (inputs : List PassSetup) : (afterPasses inputs).UnitsOfRoots :=
  invariant_afterPasses UnitsOfRoots unitsOfRoots_empty (fun _ input h => h.run input) inputs

/-- Units of roots that are listed hold under their own path. -/
theorem UnitsOfRoots.unit?_root {engine : Engine} (h : engine.UnitsOfRoots) {unit : UnitReport}
    (listed : unit ∈ engine.rootUnits) :
    engine.roots.contains unit.root = true ∧ engine.unit? unit.root = some unit := by
  obtain ⟨root, isRoot, kept⟩ := List.mem_filterMap.1 listed
  have same := (h root unit kept).2
  rw [PathSet.contains_congr _ same, unit?, PathMap.getElem?_congr _ same]
  exact ⟨PathSet.contains_of_mem_toList isRoot, kept⟩

/-! ## The units that read a file -/

theorem unit?_congr (engine : Engine) {a b : Path} (same : (a == b) = true) :
    engine.unit? a = engine.unit? b :=
  PathMap.getElem?_congr _ same

/-- **The units that read a file are those of the roots that list it**, in the order of the
roots. -/
theorem unitsReading_eq {engine : Engine} (indexed : engine.Indexed)
    (ofRoots : engine.UnitsOfRoots) (path : Path) :
    engine.unitsReading path =
      engine.rootUnits.filter fun unit => unit.filesRead.contains path := by
  let reader (root : Path) : Bool := (engine.index.readersOf path).contains root
  -- Readers are roots, so both lists run over the same paths in order.
  have rows : ((engine.index.readersOf path).toList).map Path.components =
      (engine.roots.toList.filter reader).map Path.components := by
    apply map_components_eq Std.ExtTreeSet.ordered_toList
      (Std.ExtTreeSet.ordered_toList.filter _)
    intro root
    rw [Std.ExtTreeSet.contains_toList, Bool.eq_iff_iff, List.contains_iff_exists_mem_beq]
    constructor
    · intro reads
      have held := reads
      rw [indexed.contains_readersOf, Option.any_eq_true] at held
      obtain ⟨unit, kept, -⟩ := held
      obtain ⟨spelled, listed, same⟩ := PathSet.exists_mem_toList (ofRoots root unit kept).1
      refine ⟨spelled, List.mem_filter.2 ⟨listed, ?_⟩, same⟩
      exact (PathSet.contains_congr _ same).symm.trans reads
    · rintro ⟨spelled, listed, same⟩
      exact (PathSet.contains_congr _ same).trans (List.mem_filter.1 listed).2
  rw [unitsReading, filterMap_eq_of_components (fun _ _ => engine.unit?_congr) rows, rootUnits,
    List.filterMap_filter, List.filter_filterMap]
  apply List.filterMap_congr
  intro root _
  show (if reader root then engine.unit? root else none) = _
  rw [show reader root = _ from indexed.contains_readersOf path root]
  cases engine.unit? root with
  | none => simp
  | some unit => simp [Option.filter]

end SvServer.Engine
