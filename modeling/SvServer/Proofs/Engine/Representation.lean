import SvServer.Proofs.Engine.Coverage
import SvServer.Proofs.Engine.Indexed

/-!
# The parts of an engine stay in step

An engine holds the same facts in several tables: the eligible files with the names they include, the
roots, the units of the roots, and the index of what the units read. A pass changes them at different
moments, for files that leave, for roots that are lost and for units that are compiled. At the end of
every pass they agree again, so an engine answers from the units of its present roots alone.
-/

namespace SvServer.Engine

/-! ## What is asked of an engine -/

/-- A pass, or to forget everything. -/
inductive Operation where
  | pass (input : PassSetup)
  | reset

/-- The engine after an operation. -/
def perform (engine : Engine) : Operation → Engine
  | .pass input => (engine.run input).1
  | .reset => empty

/-- The engine after a sequence of operations, from an engine that has seen nothing. -/
def afterOperations (operations : List Operation) : Engine := operations.foldl perform empty

/-! ## Parts in step -/

/-- The tables of an engine agree with each other. -/
structure Consistent (engine : Engine) : Prop where
  /-- Names are recorded for the eligible files and for no others. -/
  names : ∀ path, engine.includes.contains path = engine.eligible.contains path
  roots : ∀ root, engine.roots.contains root = true →
    engine.eligible.contains root = true ∧ root.isSource = true
  units : engine.UnitsOfRoots
  index : engine.Indexed
  cross : engine.cross = ∅ ∨ engine.cross = CrossFile.diagnostics engine.rootUnits

theorem consistent_empty : Consistent empty where
  names path := by rw [empty, Std.ExtTreeMap.contains_empty, Std.ExtTreeSet.contains_empty]
  roots _ isRoot := absurd isRoot PathSet.not_contains_empty
  units := unitsOfRoots_empty
  index := indexed_empty
  cross := .inl rfl

/-- A file of a pass that is not read in it was eligible before. -/
theorem eligible_of_not_read {engine : Engine} {input : PassSetup} {path : Path}
    (here : input.eligible.contains path = true)
    (unread : ¬∃ entry ∈ engine.namesNow input, (entry.1 == path) = true) :
    engine.eligible.contains path = true := by
  by_contra new
  have comes : (engine.added input).contains path = true := by
    rw [contains_added, here, (Bool.not_eq_true _).mp new]
    rfl
  obtain ⟨spelled, listed, same⟩ := PathSet.exists_mem_toList comes
  refine unread ⟨(spelled, namesIn input.sources spelled), List.mem_map.2 ⟨spelled, ?_, rfl⟩,
    BEq.symm same⟩
  rw [List.mem_filter, List.mem_append, ← PathSet.contains_congr _ same]
  exact ⟨.inr listed, here⟩

/-- **Names are recorded for the files of the pass**, if they were for those before it. -/
theorem contains_includesAfter {engine : Engine}
    (known : ∀ path, engine.includes.contains path = engine.eligible.contains path)
    (input : PassSetup) (path : Path) :
    (engine.includesAfter input).contains path = input.eligible.contains path := by
  have writes := fun (table : PathMap (List String)) (read : Path × List String) other =>
    PathMap.getElem?_put table read.1 other read.2
  rw [Bool.eq_iff_iff, ← Std.ExtTreeMap.isSome_getElem?_eq_contains, Option.isSome_iff_exists]
  constructor
  · rintro ⟨names, stored⟩
    obtain ⟨key, same, listed⟩ := PathMap.exists_mem_toList stored
    rw [PathSet.contains_congr _ same]
    exact eligible_of_mem_includesAfter listed
  · intro here
    rw [includesAfter_eq]
    by_cases read : ∃ entry ∈ engine.namesNow input, (entry.1 == path) = true
    · obtain ⟨entry, -, -, stored⟩ := read_foldl_of_present
        (fun (table : PathMap (List String)) path => table[path]?)
        (fun (entry : Path × List String) path => entry.1 == path) writes read
        (engine.includes.filter fun path _ => input.eligible.contains path)
      exact ⟨entry.2, stored⟩
    · have kept := known path
      rw [eligible_of_not_read here read, ← Std.ExtTreeMap.isSome_getElem?_eq_contains,
        Option.isSome_iff_exists] at kept
      obtain ⟨names, stored⟩ := kept
      refine ⟨names, ?_⟩
      rw [read_foldl_of_absent (fun (table : PathMap (List String)) path => table[path]?)
        (fun (entry : Path × List String) path => entry.1 == path) writes
        (fun entry listed => (Bool.not_eq_true _).mp fun same => read ⟨entry, listed, same⟩),
        PathMap.getElem?_filter_keys _ fun _ _ => PathSet.contains_congr _, if_pos here, stored]

theorem includes_run (engine : Engine) (input : PassSetup) :
    (engine.run input).1.includes = (engine.restructure input).engine.includes :=
  view_run includes (fun _ _ => rfl) (fun _ _ => rfl) engine input

/-- Where the graph is not built again, names and files are those that were there. -/
theorem names_restructure {engine : Engine}
    (known : ∀ path, engine.includes.contains path = engine.eligible.contains path)
    (input : PassSetup) (path : Path) :
    (engine.restructure input).engine.includes.contains path =
      (engine.restructure input).engine.eligible.contains path := by
  rw [restructure]
  split
  · exact (contains_includesAfter known input path).trans
      (contains_eligibleAfter engine input path).symm
  · exact known path

/-- **A pass leaves the tables in step.** -/
theorem Consistent.run {engine : Engine} (h : engine.Consistent) (charted : engine.Charted)
    (input : PassSetup) : (engine.run input).1.Consistent where
  names path := by
    rw [includes_run, eligible_run]
    exact names_restructure h.names input path
  roots root isRoot := by
    rw [(charted.run input).roots, Bool.and_eq_true, Bool.and_eq_true] at isRoot
    exact ⟨isRoot.1, isRoot.2.1⟩
  units := h.units.run input
  index := h.index.run input
  cross := by
    rw [cross_run]
    split
    · exact .inr rfl
    · exact .inl rfl

/-! ## What an engine answers -/

/-- All answers come from the units of present roots. -/
structure AnswersFromRoots (engine : Engine) : Prop where
  /-- The diagnostics of a file are those of the root units that read it, and of the checks over the
  root units. -/
  diagnostics : ∀ path, engine.diagnosticsOf path = dropRepeats (· == ·) (Diagnostic.sort
    (((engine.rootUnits.filter fun unit => unit.filesRead.contains path).flatMap fun unit =>
      unit.diagnostics.filter fun d => d.path == path) ++ engine.cross[path]?.getD []))
  /-- The revisions of a file are those with which the root units read it. -/
  revisions : ∀ path, engine.revisionsOf path =
    (engine.rootUnits.filter fun unit => unit.filesRead.contains path).filterMap fun unit =>
      unit.revisions[path]?
  /-- A file counts as read if a root unit reads it. -/
  read : ∀ path, engine.index.isRead path = true ↔
    ∃ unit ∈ engine.rootUnits, unit.filesRead.contains path = true
  /-- A file that is not eligible or not a root has no unit, and no root unit is its unit. -/
  gone : ∀ path, engine.eligible.contains path = false ∨ engine.roots.contains path = false →
    engine.unit? path = none ∧ ∀ unit ∈ engine.rootUnits, (unit.root == path) = false

theorem Consistent.answersFromRoots {engine : Engine} (h : engine.Consistent) :
    engine.AnswersFromRoots where
  diagnostics path := by rw [diagnosticsOf_eq, unitsReading_eq h.index h.units]
  revisions path := by
    rw [← unitsReading_eq h.index h.units]
    rfl
  read path := by
    rw [Include.ReadIndex.isRead_iff h.index.readers h.index.inhabited]
    simp only [h.index.contains_filesOf, Option.any_eq_true]
    constructor
    · rintro ⟨root, unit, kept, reads⟩
      exact ⟨unit, mem_rootUnits (h.units root unit kept).1 kept, reads⟩
    · rintro ⟨unit, listed, reads⟩
      exact ⟨unit.root, unit, (h.units.unit?_root listed).2, reads⟩
  gone path absent := by
    have noRoot : engine.roots.contains path = false := by
      rcases absent with gone | noRoot
      · by_contra isRoot
        rw [(h.roots path ((Bool.not_eq_false _).mp isRoot)).1] at gone
        exact absurd gone (by decide)
      · exact noRoot
    constructor
    · cases held : engine.unit? path with
      | none => rfl
      | some unit =>
          rw [(h.units path unit held).1] at noRoot
          exact absurd noRoot (by decide)
    · intro unit listed
      by_contra same
      rw [← PathSet.contains_congr _ ((Bool.not_eq_false _).mp same),
        (h.units.unit?_root listed).1] at noRoot
      exact absurd noRoot (by decide)

/-- What every operation keeps holds after every sequence of them. -/
theorem invariant_afterOperations (holds : Engine → Prop) (start : holds empty)
    (run : ∀ engine input, holds engine → holds (engine.run input).1)
    (operations : List Operation) : holds (afterOperations operations) := by
  refine List.foldlRecOn (motive := holds) operations _ start fun engine h operation _ => ?_
  cases operation with
  | pass input => exact run engine input h
  | reset => exact start

/-- **Every engine that operations lead to has its tables in step**, and answers from the units of its
present roots alone. -/
theorem consistent_afterOperations (operations : List Operation) :
    (afterOperations operations).Consistent ∧ (afterOperations operations).AnswersFromRoots := by
  have both : (afterOperations operations).Consistent ∧ (afterOperations operations).Charted :=
    invariant_afterOperations (fun engine => engine.Consistent ∧ engine.Charted)
      ⟨consistent_empty, charted_empty⟩ (fun _ input h => ⟨h.1.run h.2 input, h.2.run input⟩)
      operations
  exact ⟨both.1, both.1.answersFromRoots⟩

end SvServer.Engine
