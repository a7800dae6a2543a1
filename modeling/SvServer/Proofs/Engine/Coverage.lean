import Mathlib.Data.Fintype.Card
import Mathlib.Data.Set.Finite.Basic
import Mathlib.Logic.Relation
import Mathlib.Order.WellFounded
import SvServer.Proofs.Engine.Results

/-!
# Which source files a pass covers

A file takes part in the results if it starts a unit, or if a file that starts one leads to it
through include edges. A file starts a unit exactly if it is a source file that no other file
includes, so this can fail in two ways only: a header that nothing else includes leads to the file,
or files that include each other in a circle do. Going back along the edges from any file, one ends
at a file that no other file includes or in a circle, since there are finitely many files.
-/

namespace SvServer

/-- The kind of a file does not depend on how it is spelled. -/
theorem Path.isSource_congr {a b : Path} (same : (a == b) = true) : a.isSource = b.isSource := by
  rw [isSource, isSource, kind?, kind?, extension?, extension?, fileName?, fileName?,
    beq_iff.1 same]

/-! ## Going back along the edges -/

namespace Include.Graph

/-- Edges go from one file to the other, one after the other or none at all. -/
abbrev Reaches (graph : Graph) : Path → Path → Prop := Relation.ReflTransGen graph.Leads

/-- The file leads to another file that leads back to it. -/
def OnCycle (graph : Graph) (file : Path) : Prop :=
  ∃ other, (other == file) = false ∧ graph.Reaches file other ∧ graph.Reaches other file

/-- The files of a set that lead to a file. -/
def Above (graph : Graph) (eligible : PathSet) (file : Path) : Type :=
  { path : Path // path ∈ eligible.toList ∧ graph.Reaches path file }

/-- One file includes the other, and they are not the same. -/
def Over (graph : Graph) (eligible : PathSet) (file : Path) (a b : graph.Above eligible file) :
    Prop :=
  graph.Leads a.1 b.1 ∧ (a.1 == b.1) = false

variable {graph : Graph} {eligible : PathSet} {file : Path}

instance : Finite (graph.Above eligible file) :=
  ((List.finite_toSet eligible.toList).subset fun _ member => member.1).to_subtype

/-- Over the files of a set the closure of the edges stays an include chain. -/
theorem reaches_of_transGen {a b : graph.Above eligible file}
    (chain : Relation.TransGen (graph.Over eligible file) a b) : graph.Reaches a.1 b.1 := by
  induction chain with
  | single step => exact .single step.1
  | tail _ step ih => exact ih.tail step.1

/-- A file that is above itself lies on a cycle. -/
theorem onCycle_of_transGen {a : graph.Above eligible file}
    (chain : Relation.TransGen (graph.Over eligible file) a a) : graph.OnCycle a.1 := by
  obtain ⟨next, ⟨leads, apart⟩, back⟩ := Relation.TransGen.head'_iff.1 chain
  refine ⟨next.1, ?_, .single leads, ?_⟩
  · rw [BEq.comm, apart]
  · rcases Relation.reflTransGen_iff_eq_or_transGen.1 back with same | chain
    · rw [same]
    · exact reaches_of_transGen chain

/-- A file that another one includes has a listed file above it that is not the same. -/
theorem exists_leads_of_hasOtherIncluder
    (known : ∀ target, ∀ edge ∈ graph.incoming target, eligible.contains edge.source = true)
    (included : graph.hasOtherIncluder file = true) :
    ∃ above ∈ eligible.toList, graph.Leads above file ∧ (above == file) = false := by
  obtain ⟨edge, entering, other⟩ := List.any_eq_true.1 included
  obtain ⟨listed, member, same⟩ := PathSet.exists_mem_toList (known file edge entering)
  refine ⟨listed, member, ⟨edge, entering, same⟩, ?_⟩
  rw [← BEq.congr_left same]
  rwa [bne, Bool.not_eq_true'] at other

/-- **Going back from a file ends** at a file that no other file includes, or on a cycle. -/
theorem exists_start
    (known : ∀ target, ∀ edge ∈ graph.incoming target, eligible.contains edge.source = true)
    (here : eligible.contains file = true) :
    ∃ start, eligible.contains start = true ∧ graph.Reaches start file ∧
      (graph.hasOtherIncluder start = false ∨ graph.OnCycle start) := by
  cases included : graph.hasOtherIncluder file with
  | false => exact ⟨file, here, .refl, .inl included⟩
  | true =>
      by_cases cyclic : ∃ above, Relation.TransGen (graph.Over eligible file) above above
      · obtain ⟨above, chain⟩ := cyclic
        exact ⟨above.1, PathSet.contains_of_mem_toList above.2.1, above.2.2,
          .inr (onCycle_of_transGen chain)⟩
      · -- Without a cycle some file above is a topmost one.
        have irreflexive : Std.Irrefl (Relation.TransGen (graph.Over eligible file)) :=
          ⟨fun above chain => cyclic ⟨above, chain⟩⟩
        have founded :=
          Finite.wellFounded_of_trans_of_irrefl (Relation.TransGen (graph.Over eligible file))
        obtain ⟨first, listed, leads, -⟩ := exists_leads_of_hasOtherIncluder known included
        obtain ⟨top, -, topmost⟩ := founded.has_min Set.univ
          ⟨⟨first, listed, .single leads⟩, Set.mem_univ _⟩
        refine ⟨top.1, PathSet.contains_of_mem_toList top.2.1, top.2.2, .inl ?_⟩
        by_contra more
        obtain ⟨higher, member, leads, apart⟩ :=
          exists_leads_of_hasOtherIncluder known ((Bool.not_eq_false _).mp more)
        exact topmost ⟨higher, member, .head leads top.2.2⟩ (Set.mem_univ _)
          (.single ⟨leads, apart⟩)

/-- Whether another file includes a file does not depend on how it is spelled. -/
theorem hasOtherIncluder_congr (graph : Graph) {a b : Path} (same : (a == b) = true) :
    graph.hasOtherIncluder a = graph.hasOtherIncluder b := by
  rw [hasOtherIncluder, hasOtherIncluder, incoming_congr graph same]
  simp only [bne, BEq.congr_right same]

end Include.Graph

namespace Engine

open Include (Graph)

/-! ## Files, graph and roots of an engine -/

/-- The roots of an engine are the source files that no other file includes, and edges leave
eligible files only. -/
structure Charted (engine : Engine) : Prop where
  roots : ∀ path, engine.roots.contains path =
    (engine.eligible.contains path && (path.isSource && !engine.graph.hasOtherIncluder path))
  sources : ∀ target, ∀ edge ∈ engine.graph.incoming target,
    engine.eligible.contains edge.source = true

theorem charted_empty : Charted empty := by
  constructor
  · intro path
    rw [empty, Std.ExtTreeSet.contains_empty, Bool.false_and]
  · intro target edge entering
    rw [empty, Graph.incoming_empty] at entering
    exact absurd entering List.not_mem_nil

/-- Include names are recorded for files of the pass only. -/
theorem eligible_of_mem_includesAfter {engine : Engine} {input : PassSetup}
    {entry : Path × List String} (member : entry ∈ (engine.includesAfter input).toList) :
    input.eligible.contains entry.1 = true := by
  have stored : (engine.includesAfter input)[entry.1]? = some entry.2 :=
    (Std.ExtTreeMap.mem_toList_iff_getKey?_eq_some_and_getElem?_eq_some.1 member).2
  rw [includesAfter_eq] at stored
  by_cases named : ∃ read ∈ engine.namesNow input, (read.1 == entry.1) = true
  · obtain ⟨read, listed, same⟩ := named
    obtain ⟨path, kept, rfl⟩ := List.mem_map.1 listed
    rw [← PathSet.contains_congr _ same]
    exact (List.mem_filter.1 kept).2
  · -- What was not read again was recorded before, and stayed.
    rw [read_foldl_of_absent (fun (table : PathMap (List String)) path => table[path]?)
      (fun (read : Path × List String) path => read.1 == path)
      (fun table read other => PathMap.getElem?_put table read.1 other read.2)
      (fun read listed => (Bool.not_eq_true _).mp fun same => named ⟨read, listed, same⟩),
      PathMap.getElem?_filter_keys _ fun _ _ => PathSet.contains_congr _] at stored
    split at stored
    · assumption
    · exact absurd stored nofun

theorem Charted.restructure {engine : Engine} (h : engine.Charted) (input : PassSetup) :
    (engine.restructure input).engine.Charted := by
  rw [Engine.restructure]
  split
  · constructor
    · intro path
      apply PathSet.contains_filter
      intro a b same
      rw [Path.isSource_congr same, Graph.hasOtherIncluder_congr _ same]
    · intro target edge entering
      obtain ⟨entry, recorded, leaving, -⟩ := mem_incoming_buildGraph.1 entering
      rw [(mem_edgesOf.1 leaving).1]
      show (engine.eligibleAfter input).contains entry.1 = true
      rw [contains_eligibleAfter]
      exact eligible_of_mem_includesAfter recorded
  · exact h

/-- **A pass leaves the roots as the graph has them.** -/
theorem Charted.run {engine : Engine} (h : engine.Charted) (input : PassSetup) :
    (engine.run input).1.Charted := by
  have begun := h.restructure input
  constructor
  · intro path
    rw [roots_run, graph_run, eligible_run]
    exact begun.roots path
  · rw [graph_run, eligible_run]
    exact begun.sources

theorem charted_afterPasses (inputs : List PassSetup) : (afterPasses inputs).Charted :=
  invariant_afterPasses Charted charted_empty (fun _ input h => h.run input) inputs

/-! ## Covered files -/

/-- The file is a root, or a root leads to it. -/
def Covered (engine : Engine) (path : Path) : Prop :=
  ∃ root, engine.roots.contains root = true ∧ engine.graph.Reaches root path

/-- A source file that another source file includes. -/
def sharedProject : PassSetup :=
  .overDocuments [("/p/mid.sv", "`BAR\n"), ("/p/top.sv", "`include \"mid.sv\"\n")] []

/-- A source file that only a header includes, and no file includes the header. -/
def headerProject : PassSetup :=
  .overDocuments [("/p/defs.svh", "`include \"mid.sv\"\n"), ("/p/mid.sv", "`BAR\n")] []

/-- Two source files that include each other. -/
def circleProject : PassSetup :=
  .overDocuments [("/p/a.sv", "`include \"b.sv\"\n"), ("/p/b.sv", "`include \"a.sv\"\n")] []

/-- Without roots no file is covered. -/
theorem not_covered_of_isEmpty {engine : Engine} (none : engine.roots.isEmpty = true)
    (path : Path) : ¬ engine.Covered path := by
  rintro ⟨root, isRoot, -⟩
  rw [Std.ExtTreeSet.isEmpty_iff.1 none, Std.ExtTreeSet.contains_empty] at isRoot
  exact absurd isRoot (by decide)

end Engine

end SvServer
