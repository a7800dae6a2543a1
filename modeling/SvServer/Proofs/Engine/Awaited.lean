import SvServer.Proofs.Engine.Coverage
import SvServer.Proofs.Engine.Indexed

/-!
# Missing includes that become available

A unit notes the include names that led to no file, and its root waits for them. When a file appears
or changes, the roots that wait for a name in which its path ends are compiled, and so are those that
the include graph leads back to. A name without dots leads to files that end in it only, so its root
is always found. A name with dots may lead to a file that does not end in it; then the root is found
if the graph has the include, and the graph has what stands in quotes only.
-/

namespace SvServer.Engine

/-! ## Who is compiled -/

/-- The file is new to the engine, or said to have changed. -/
def Arrives (engine : Engine) (input : PassSetup) (path : Path) : Prop :=
  input.eligible.contains path = true ∧ (input.dirty.contains path = true ∨
    input.compileAdded = true ∧ engine.eligible.contains path = false)

theorem Arrives.dirty {engine : Engine} {input : PassSetup} {path : Path}
    (h : engine.Arrives input path) : (engine.restructure input).dirty.contains path = true := by
  apply dirty_of_starting
  rw [contains_startingDirty, added, PathSet.contains_diff]
  obtain ⟨here, dirty | ⟨compiles, new⟩⟩ := h
  · rw [dirty]
    rfl
  · rw [compiles, here, new]
    simp

/-- The graph has an edge for every recorded name that leads to an eligible file. -/
theorem leads_of_recorded {engine : Engine} {input : PassSetup} {source target : Path}
    {names : List String} {name : String} (builds : engine.needsGraph input = true)
    (recorded : (engine.includesAfter input)[source]? = some names) (named : name ∈ names)
    (found : input.sources.resolve name source.directory = some target)
    (here : input.eligible.contains target = true) :
    (engine.run input).1.graph.Leads source target := by
  obtain ⟨key, same, member⟩ :=
    Std.ExtTreeMap.getElem?_eq_some_iff_exists_compare_eq_eq_and_mem_toList.1 recorded
  have spelled : (key == source) = true := Path.beq_iff.2 (Path.compare_eq_iff.1 same).symm
  have directory : key.directory = source.directory := by
    rw [Path.directory, Path.directory, Path.parent?, Path.parent?, Path.beq_iff.1 spelled]
  rw [graph_run, restructure, if_pos builds]
  refine ⟨⟨key, target, name⟩, mem_incoming_buildGraph.2 ⟨(key, names), member, ?_, BEq.rfl⟩, spelled⟩
  rw [mem_edgesOf]
  exact ⟨rfl, named, by rw [directory, found], by rw [contains_eligibleAfter, here]⟩

section Arriving

variable {engine : Engine} {input : PassSetup} {root target : Path}
  (arrives : engine.Arrives input target)
  (isRoot : (engine.run input).1.roots.contains root = true)

include arrives isRoot

/-- A root that waits for a name in which the path of the arriving file ends is compiled. -/
theorem compiled_of_awaited (indexed : engine.Indexed) {unit : UnitReport} {name : String}
    (kept : engine.unit? root = some unit) (missed : unit.missingIncludes.contains name = true)
    (ends : target.endsWith (Path.ofString name) = true) :
    (engine.run input).2.compiled.contains root = true := by
  rw [roots_run] at isRoot
  -- The batch has the file that arrives in some spelling.
  obtain ⟨member, listed, same⟩ := PathSet.exists_mem_toList arrives.dirty
  have here : (engine.restructure input).engine.eligible.contains member = true := by
    rw [← eligible_run, contains_eligible_run, ← PathSet.contains_congr _ same]
    exact arrives.1
  have waits : (engine.restructure input).engine.index.waits root name = true := by
    rw [(indexed.restructure input).waits, (kept_restructure isRoot).1, kept]
    exact missed
  have endsToo : member.endsWith (Path.ofString name) = true := by
    rw [Path.endsWith, ← Path.beq_iff.1 same]
    exact ends
  rw [compiled_run, contains_rootsToCompile]
  exact ⟨member, listed, contains_rootsAffectedBy.2 ⟨isRoot,
    .inr (.inr (.inl ⟨here, Include.ReadIndex.contains_waitersFor.2 ⟨name, waits, endsToo⟩⟩))⟩⟩

/-- A root from which the graph leads to the arriving file is compiled. -/
theorem compiled_of_traceable
    (traced : (engine.run input).1.graph.Traceable Unit.openFileLimit root target) :
    (engine.run input).2.compiled.contains root = true := by
  refine compiled_of_affected isRoot arrives.dirty ?_
  rw [graph_run] at traced
  cases itself : target == root with
  | true => exact .inl rfl
  | false => exact .inr (.inr (traced.contains_includersWithin itself))

/-- **A root that names a new file in quotes is compiled**, however the name is written. -/
theorem compiled_of_quoted (new : engine.needsGraph input = true) {names : List String}
    {name : String} (recorded : (engine.includesAfter input)[root]? = some names)
    (named : name ∈ names) (found : input.sources.resolve name root.directory = some target) :
    (engine.run input).2.compiled.contains root = true :=
  compiled_of_traceable arrives isRoot (.edge (leads_of_recorded new recorded named found arrives.1))

end Arriving

/-- **A root whose missing name leads to a file that arrives is compiled** if the name has no dots,
or if the graph leads from the root to the file. -/
theorem compiled_of_missing_arrives (inputs : List PassSetup) (input : PassSetup)
    {documents : Documents} {disk : Disk} {excluded : List Path}
    (provided : input.sources = .ofProject input.eligible documents disk excluded)
    {root target directory : Path} {unit : UnitReport} {name : String}
    (kept : (afterPasses inputs).unit? root = some unit)
    (missed : unit.missingIncludes.contains name = true)
    (found : input.sources.resolve name directory = some target)
    (arrives : (afterPasses inputs).Arrives input target)
    (isRoot : ((afterPasses inputs).run input).1.roots.contains root = true)
    (written : Path.IsDirect (Path.ofString name).components ∨
      ((afterPasses inputs).run input).1.graph.Traceable Unit.openFileLimit root target) :
    ((afterPasses inputs).run input).2.compiled.contains root = true := by
  rcases written with direct | traced
  · rw [provided] at found
    exact compiled_of_awaited arrives isRoot (indexed_afterPasses inputs) kept missed
      (Include.endsWith_of_resolve? direct found)
  · exact compiled_of_traceable arrives isRoot traced

/-- A file that names a header in angle brackets, without the header. -/
def headerMissing (name : String) : PassSetup :=
  .overDocuments [("/p/rtl/top.sv", "`include <" ++ name ++ ">\n")] []

/-- The header appears beside the directory of the file. -/
def headerArrives (name : String) : PassSetup :=
  .overDocuments [("/p/inc/defs.svh", "`define W 8\n"),
    ("/p/rtl/top.sv", "`include <" ++ name ++ ">\n")] []

/-- Whether the name leads to a file that is eligible now and was not before. -/
def leadsToNew (name : String) : Bool :=
  ((headerArrives name).sources.resolve name (.ofString "/p/rtl")).any fun target =>
    (headerArrives name).eligible.contains target &&
      !(afterPasses [headerMissing name]).eligible.contains target

theorem arrives_of_leadsToNew {name : String} (h : leadsToNew name = true) :
    ∃ target, (headerArrives name).sources.resolve name (.ofString "/p/rtl") = some target ∧
      (afterPasses [headerMissing name]).Arrives (headerArrives name) target := by
  obtain ⟨target, found, new⟩ := (Option.any_eq_true _ _).1 h
  rw [Bool.and_eq_true, Bool.not_eq_true'] at new
  exact ⟨target, found, new.1, .inr ⟨rfl, new.2⟩⟩

/-- Whether the unit of the file misses the name. -/
def misses (name : String) : Bool :=
  ((afterPasses [headerMissing name]).unit? (.ofString "/p/rtl/top.sv")).any fun unit =>
    unit.missingIncludes.contains name

theorem compiled_when_named_header_arrives :
    ((afterPasses [headerMissing "inc/defs.svh"]).run
      (headerArrives "inc/defs.svh")).2.compiled.contains (.ofString "/p/rtl/top.sv") = true := by
  have missing : misses "inc/defs.svh" = true := by decide +kernel
  have new : leadsToNew "inc/defs.svh" = true := by decide +kernel
  obtain ⟨unit, kept, missed⟩ := (Option.any_eq_true _ _).1 missing
  obtain ⟨target, found, arrives⟩ := arrives_of_leadsToNew new
  exact compiled_of_missing_arrives [headerMissing "inc/defs.svh"] (headerArrives "inc/defs.svh")
    rfl kept missed found arrives (by decide +kernel) (.inl (by decide +kernel))

/-- A name that goes up to another directory is not found: the header arrives, the name leads to it,
and the file that names it is not compiled. -/
theorem not_compiled_when_dotted_header_arrives :
    let name := "../inc/defs.svh"
    let root := Path.ofString "/p/rtl/top.sv"
    let engine := afterPasses [headerMissing name]
    misses name = true ∧
      (∃ target, (headerArrives name).sources.resolve name root.directory = some target ∧
        engine.Arrives (headerArrives name) target) ∧
      (engine.run (headerArrives name)).1.roots.contains root = true ∧
      (engine.run (headerArrives name)).2.compiled.contains root = false :=
  ⟨by decide +kernel, arrives_of_leadsToNew (by decide +kernel), by decide +kernel,
    by decide +kernel⟩

end SvServer.Engine
