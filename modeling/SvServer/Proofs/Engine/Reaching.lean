import SvServer.Proofs.Engine.Representation

/-!
# Which roots a pass reaches

A pass starts from files: those given, those that left and, where new files are compiled, those that
came. It compiles the roots whose last unit read one of them, and the roots from which the include
graph leads to one of them, also if they were never compiled. The graph is the one after the pass, and
the walk back along its edges goes as deep as files may be open in one compile. So a chain of includes
that was there before the pass counts as far as its edges are still there, and a chain that is longer
than the walk is deep does not count.
-/

namespace SvServer.Engine

/-! ## Chains of includes around a pass -/

/-- An edge of the graph before a pass that leaves a file from which the pass starts, that is still
there after it, or that leaves a file which now includes one from which the pass starts. -/
def Lasting (engine : Engine) (input : PassSetup) (source target : Path) : Prop :=
  engine.graph.Leads source target ∧ ((engine.startingDirty input).contains source = true ∨
    (engine.run input).1.graph.Leads source target ∨
    ∃ path, (engine.startingDirty input).contains path = true ∧
      (engine.run input).1.graph.Leads source path)

/-- How files from which a pass starts matter to a root. -/
inductive Affected (engine : Engine) (input : PassSetup) (root : Path) : Prop
  /-- The last unit of the root read one. -/
  | read (unit : UnitReport) (path : Path) (kept : engine.unit? root = some unit)
      (reads : unit.filesRead.contains path = true)
      (starting : (engine.startingDirty input).contains path = true)
  /-- The root includes one after the pass. -/
  | includes (path : Path) (leads : (engine.run input).1.graph.Leads root path)
      (starting : (engine.startingDirty input).contains path = true)
  /-- The graph after the pass leads to one, and not by a longer chain than the walk is deep. -/
  | after (path : Path) (leads : (engine.run input).1.graph.Reaches root path)
      (short : (engine.run input).1.graph.Short Unit.openFileLimit root path)
      (starting : (engine.startingDirty input).contains path = true)
  /-- Edges of the graph before the pass that last lead to one, and no chain to any of them is longer
  than the walk is deep. -/
  | before (path : Path) (leads : Relation.ReflTransGen (engine.Lasting input) root path)
      (short : ∀ other, (engine.startingDirty input).contains other = true →
        (engine.run input).1.graph.Short Unit.openFileLimit root other)
      (starting : (engine.startingDirty input).contains path = true)

section

variable {engine : Engine} {input : PassSetup} {root : Path}

/-- **Edges that last lead to a file from which the pass starts**, along edges that are there after
it: up to the first edge that leaves such a file or that has gone. -/
theorem reaches_of_lasting {path : Path}
    (leads : Relation.ReflTransGen (engine.Lasting input) root path)
    (starting : (engine.startingDirty input).contains path = true) :
    ∃ other, (engine.startingDirty input).contains other = true ∧
      (engine.run input).1.graph.Reaches root other := by
  induction leads using Relation.ReflTransGen.head_induction_on with
  | refl => exact ⟨path, starting, .refl⟩
  | head step _ ih =>
      obtain ⟨-, source | stays | ⟨other, dirty, now⟩⟩ := step
      · exact ⟨_, source, .refl⟩
      · obtain ⟨other, dirty, rest⟩ := ih
        exact ⟨other, dirty, .head stays rest⟩
      · exact ⟨other, dirty, .single now⟩

variable (isRoot : (engine.run input).1.roots.contains root = true)

include isRoot

/-- A root that includes a file from which the pass starts is compiled. -/
theorem compiled_of_leads {path : Path} (leads : (engine.run input).1.graph.Leads root path)
    (starting : (engine.startingDirty input).contains path = true) :
    (engine.run input).2.compiled.contains root = true := by
  refine compiled_of_affected isRoot (dirty_of_starting starting) ?_
  rw [graph_run] at leads
  cases itself : path == root with
  | true => exact .inl rfl
  | false => exact .inr (.inr (Include.Graph.contains_includersWithin_of_leads _ leads itself))

/-- A root from which includes lead to a file from which the pass starts is compiled, if no chain of
them is longer than the walk is deep. -/
theorem compiled_of_reaches {path : Path} (leads : (engine.run input).1.graph.Reaches root path)
    (short : (engine.run input).1.graph.Short Unit.openFileLimit root path)
    (starting : (engine.startingDirty input).contains path = true) :
    (engine.run input).2.compiled.contains root = true := by
  refine compiled_of_affected isRoot (dirty_of_starting starting) ?_
  rw [graph_run] at leads short
  cases itself : path == root with
  | true => exact .inl rfl
  | false =>
      exact .inr (.inr (Include.Graph.contains_includersWithin_of_short _ short leads itself))

end

/-- In a small project no chain of distinct files is longer than the walk is deep. -/
theorem short_of_small {engine : Engine} (charted : engine.Charted)
    (small : engine.eligible.toList.length ≤ Unit.openFileLimit) (source target : Path) :
    engine.graph.Short Unit.openFileLimit source target := by
  refine Include.Graph.short_of_few small (fun path edge entering => ?_) source target
  rw [Std.ExtTreeSet.contains_toList]
  exact charted.sources path edge entering

/-- **Every affected root is compiled**, whether it has a unit or was never compiled, in every state
that an engine can be in. -/
theorem compiled_when_affected (operations : List Operation) (input : PassSetup) {root : Path}
    (isRoot : ((afterOperations operations).run input).1.roots.contains root = true)
    (affected : (afterOperations operations).Affected input root) :
    ((afterOperations operations).run input).2.compiled.contains root = true := by
  have indexed : (afterOperations operations).Indexed :=
    invariant_afterOperations Indexed indexed_empty (fun _ input h => h.run input) operations
  cases affected with
  | read unit path kept reads starting =>
      refine compiled_of_read indexed.readers isRoot starting ?_
      rw [indexed.contains_filesOf, kept, Option.any_some, reads]
  | includes path leads starting => exact compiled_of_leads isRoot leads starting
  | after path leads short starting => exact compiled_of_reaches isRoot leads short starting
  | before path leads short starting =>
      obtain ⟨other, dirty, now⟩ := reaches_of_lasting leads starting
      exact compiled_of_reaches isRoot now (short other dirty) dirty

/-- A pass that knows its files and compiles none of them by itself. -/
def onlyIndexed (texts : List (String × String)) (dirty : List String) : PassSetup :=
  { PassSetup.overDocuments texts dirty with compileAdded := false }

/-- A root that includes a header through another one. -/
def throughHeader : List (String × String) :=
  [("/p/defs.svh", "`define W 8\n"), ("/p/mid.svh", "`include \"defs.svh\"\n"),
    ("/p/top.sv", "`include \"mid.svh\"\n")]

theorem compiled_when_header_of_header_changes :
    let engine := afterOperations [.pass (onlyIndexed throughHeader [])]
    let input := onlyIndexed throughHeader ["/p/defs.svh"]
    let root := Path.ofString "/p/top.sv"
    (engine.run input).1.roots.contains root = true ∧ engine.Affected input root ∧
      (engine.unit? root).isNone = true ∧ (engine.run input).2.compiled.contains root = true := by
  intro engine input root
  let mid := Path.ofString "/p/mid.svh"
  let defs := Path.ofString "/p/defs.svh"
  have facts : (engine.run input).1.roots.contains root = true ∧
      (engine.run input).1.graph.Leads root mid ∧ (engine.run input).1.graph.Leads mid defs ∧
      (engine.startingDirty input).contains defs = true ∧ (engine.unit? root).isNone = true ∧
      (engine.run input).1.eligible.toList.length ≤ Unit.openFileLimit := by decide +kernel
  obtain ⟨isRoot, outer, inner, starting, unknown, small⟩ := facts
  have charted : (engine.run input).1.Charted :=
    (invariant_afterOperations Charted charted_empty (fun _ input h => h.run input)
      [.pass (onlyIndexed throughHeader [])]).run input
  have affected : engine.Affected input root :=
    .after defs (.head outer (.single inner)) (short_of_small charted small _ _) starting
  exact ⟨isRoot, affected, unknown,
    compiled_when_affected [.pass (onlyIndexed throughHeader [])] input isRoot affected⟩

/-! ## What a pass does not reach -/

/-- A root is not compiled although edges before or after the pass lead from it to a file from which
the pass starts. -/
def Misses (engine : Engine) (input : PassSetup) (root : Path) : Prop :=
  (engine.run input).1.roots.contains root = true ∧
    (∃ path, (engine.startingDirty input).contains path = true ∧
      (engine.graph.Reaches root path ∨ (engine.run input).1.graph.Reaches root path)) ∧
    (engine.run input).2.compiled.contains root = false

/-- Files of which each includes the next, with so many edges in all. -/
def descent : Nat → List (String × String)
  | 0 => [("/0.v", "")]
  | edges + 1 =>
      ("/" ++ toString (edges + 1) ++ ".v", "`include \"" ++ toString edges ++ ".v\"\n") ::
        descent edges

/-- The files of a descent. -/
def stations (edges : Nat) : List Path := (descent edges).map fun entry => .ofString entry.1

/-- A file that includes a header where a macro is defined that is not. -/
def guardedInclude : String × String := ("/p/top.sv", "`ifdef X\n`include \"d.svh\"\n`endif\n")

/-- A pass reaches no root by a chain of more edges than it walks, and no root through the edges to a
file that left, if its last unit did not read the file. -/
theorem misses_far_and_removed :
    Misses (afterPasses [onlyIndexed (descent 33) []]) (onlyIndexed (descent 33) ["/0.v"])
      (.ofString "/33.v") ∧
    Misses (afterPasses [.overDocuments [("/p/d.svh", ""), guardedInclude] []])
      (.overDocuments [guardedInclude] []) (.ofString "/p/top.sv") := by
  constructor
  · have facts :
        let engine := afterPasses [onlyIndexed (descent 33) []]
        let input := onlyIndexed (descent 33) ["/0.v"]
        (engine.startingDirty input).contains (.ofString "/0.v") = true ∧
          (stations 33).IsChain engine.graph.Leads ∧
          (engine.run input).1.roots.contains (.ofString "/33.v") = true ∧
          (engine.run input).2.compiled.contains (.ofString "/33.v") = false := by
      decide +kernel
    obtain ⟨starting, chain, isRoot, spared⟩ := facts
    refine ⟨isRoot, ⟨_, starting, .inl ?_⟩, spared⟩
    exact List.relationReflTransGen_of_exists_isChain_cons _ chain rfl
  · have facts :
        let engine := afterPasses [.overDocuments [("/p/d.svh", ""), guardedInclude] []]
        let input := PassSetup.overDocuments [guardedInclude] []
        let root := Path.ofString "/p/top.sv"
        (engine.startingDirty input).contains (.ofString "/p/d.svh") = true ∧
          engine.graph.Leads root (.ofString "/p/d.svh") ∧
          (engine.run input).1.roots.contains root = true ∧
          (engine.run input).2.compiled.contains root = false := by
      decide +kernel
    obtain ⟨starting, leads, isRoot, spared⟩ := facts
    exact ⟨isRoot, ⟨_, starting, .inl (.single leads)⟩, spared⟩

end SvServer.Engine
