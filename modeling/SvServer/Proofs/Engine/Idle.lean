import SvServer.Proofs.Engine.Results

/-!
# An idle pass

A pass over the files of the pass before it, to which no file is said to have changed, finds nothing to
do. No file came or went, so names, graph and roots stay as they are; nothing is dirty, so no root is
compiled. Only the checks over the project are run again. They look at nothing but the units of the
roots, so they come to what is there already, and no file is touched.
-/

namespace SvServer

/-- A pass without news for the one before it: it has the same files, none of them dirty, and runs the
checks over the project if that one did. What the files hold and which macros are defined is left
open, and so is whether new files would be compiled. -/
structure PassSetup.IdlesAfter (idle before : PassSetup) : Prop where
  files : ∀ path, idle.eligible.contains path = before.eligible.contains path
  clean : idle.dirty = ∅
  checks : idle.crossFile = before.crossFile

namespace Engine

/-! ## Passes over the files that the engine knows -/

section Still

variable {engine : Engine} {input : PassSetup}
variable (files : ∀ path, input.eligible.contains path = engine.eligible.contains path)

include files

theorem added_of_same : engine.added input = ∅ := by
  refine Std.ExtTreeSet.eq_empty_iff_forall_contains.2 fun path => ?_
  rw [contains_added, files, Bool.and_not_self]

theorem removed_of_same : engine.removed input = ∅ := by
  refine Std.ExtTreeSet.eq_empty_iff_forall_contains.2 fun path => ?_
  rw [contains_removed, files, Bool.and_not_self]

theorem movesFiles_of_same : engine.movesFiles input = false := by
  rw [movesFiles, added_of_same files, removed_of_same files]
  rfl

variable (clean : input.dirty = ∅)

include clean

theorem startingDirty_of_same : engine.startingDirty input = ∅ := by
  refine Std.ExtTreeSet.eq_empty_iff_forall_contains.2 fun path => ?_
  rw [contains_startingDirty, added_of_same files, removed_of_same files, clean]
  simp

/-- No names are read again, so the graph stays. -/
theorem needsGraph_of_same : engine.needsGraph input = false := by
  rw [needsGraph, movesFiles_of_same files, namesNow, added_of_same files, clean]
  rfl

/-- **The first step leaves all as it is**, and leaves nothing to compile. -/
theorem restructure_of_same : engine.restructure input = ⟨engine, ∅, ∅⟩ := by
  rw [restructure, needsGraph_of_same files clean, startingDirty_of_same files clean]
  rfl

end Still

/-! ## Checks that come to the same -/

/-- A table differs nowhere from itself. -/
theorem differing_self (table : PathMap (List Diagnostic)) : differing table table = [] := by
  rw [differing, List.filter_eq_nil_iff]
  intro path _
  rw [bne, BEq.rfl]
  decide

/-- **A pass over the same files with nothing dirty** does nothing where its checks come to what the
engine holds. -/
theorem run_of_same {engine : Engine} {input : PassSetup}
    (files : ∀ path, input.eligible.contains path = engine.eligible.contains path)
    (clean : input.dirty = ∅)
    (checked : engine.cross =
      if input.crossFile then CrossFile.diagnostics engine.rootUnits else ∅) :
    engine.run input = (engine, ⟨∅, ∅⟩) := by
  have done : crossCheck ⟨engine, ∅, ∅⟩ input = ⟨engine, ∅, ∅⟩ := by
    rw [crossCheck]
    dsimp only
    rw [← checked, differing_self]
    rfl
  rw [run, restructure_of_same files clean]
  -- Nothing dirty makes an empty batch.
  show ((crossCheck ⟨engine, ∅, ∅⟩ input).engine,
    PassReport.mk ((crossCheck ⟨engine, ∅, ∅⟩ input).touched.join ∅) ∅) = _
  rw [done]
  rfl

/-! ## After a pass -/

/-- After a pass, one that idles is over the files that the engine knows, and its checks come to what
the engine holds. -/
theorem run_of_idlesAfter (engine : Engine) {before idle : PassSetup}
    (idles : idle.IdlesAfter before) :
    (engine.run before).1.run idle = ((engine.run before).1, ⟨∅, ∅⟩) := by
  refine run_of_same (fun path => ?_) idles.clean ?_
  · rw [contains_eligible_run, idles.files]
  · rw [cross_run, idles.checks]

/-- However many passes idle, the engine stays as it is. -/
theorem foldl_run_of_idlesAfter (engine : Engine) {before : PassSetup} {passes : List PassSetup}
    (idles : ∀ idle ∈ passes, idle.IdlesAfter before) :
    passes.foldl (fun engine idle => (engine.run idle).1) (engine.run before).1 =
      (engine.run before).1 := by
  induction passes with
  | nil => rfl
  | cons first rest ih =>
      rw [List.foldl_cons, run_of_idlesAfter engine (idles first (.head _))]
      exact ih fun idle member => idles idle (.tail _ member)

/-- **An idle pass does nothing**: it compiles nothing and touches no file, and roots, declarations and
the diagnostics of every file are after it what they were. -/
theorem nothing_done_when_idle (engine : Engine) {before idle : PassSetup}
    (idles : idle.IdlesAfter before) :
    let settled := (engine.run before).1
    let (after, report) := settled.run idle
    report.compiled = ∅ ∧ report.touched = ∅ ∧ after.roots = settled.roots ∧
      after.declarations = settled.declarations ∧
      ∀ path, after.diagnosticsOf path = settled.diagnosticsOf path := by
  intro settled
  rw [run_of_idlesAfter engine idles]
  exact ⟨rfl, rfl, rfl, rfl, fun _ => rfl⟩

/-- A file is written over between two passes, and the second one is not told of it. -/
theorem nothing_done_when_untold :
    let before := PassSetup.overDocuments [("/p/top.sv", "module top;\nsub u ();\nendmodule\n")] []
    let idle := PassSetup.overDocuments [("/p/top.sv", "`BAR\n")] []
    let settled := (empty.run before).1
    let (after, report) := settled.run idle
    idle.IdlesAfter before ∧ report.compiled = ∅ ∧ report.touched = ∅ ∧
      after.roots = settled.roots ∧ after.declarations = settled.declarations ∧
      ∀ path, after.diagnosticsOf path = settled.diagnosticsOf path := by
  intro before idle
  have idles : idle.IdlesAfter before := ⟨fun _ => rfl, rfl, rfl⟩
  exact ⟨idles, nothing_done_when_idle empty idles⟩

end Engine

end SvServer
