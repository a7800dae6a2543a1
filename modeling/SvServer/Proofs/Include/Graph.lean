import Mathlib.Data.List.Chain
import Mathlib.Data.List.Perm.Subperm
import Mathlib.Logic.Relation
import SvServer.Include.Graph
import SvServer.Proofs.PlainPath

/-!
# The include graph and the walk against its edges

The edges that enter a file after edges were stored, and what a walk from a file reaches. The walk
goes a bounded number of edges deep and visits every file once, so it may turn back before it has
seen all. The files on the way down to the current one are a trail: distinct files, each including
the next, down to the start. Where the walk turned back for lack of room the trail was as long as the
bound. So the walk misses a file only if a longer chain of distinct files leads from it to the start.
-/

namespace SvServer.Include.Graph

theorem incoming_congr (graph : Graph) {a b : Path} (h : (a == b) = true) :
    graph.incoming a = graph.incoming b := by
  rw [incoming, incoming, PathMap.getElem?_congr graph.backward h]

/-! ## Storing edges -/

@[simp] theorem incoming_empty (path : Path) : empty.incoming path = [] := by
  rw [incoming, empty, Std.ExtTreeMap.getElem?_empty]
  rfl

@[simp] theorem outgoing_empty (path : Path) : empty.outgoing path = [] := by
  rw [outgoing, empty, Std.ExtTreeMap.getElem?_empty]
  rfl

theorem incoming_insert (graph : Graph) (edge : Edge) (path : Path) :
    (graph.insert edge).incoming path =
      if edge.target == path then graph.incoming path ++ [edge] else graph.incoming path := by
  show ((graph.backward.put edge.target (graph.incoming edge.target ++ [edge]))[path]?).getD [] = _
  rw [PathMap.getElem?_put]
  split
  · rename_i same
    rw [incoming_congr graph same]
    rfl
  · rfl

theorem outgoing_insert_of_ne (graph : Graph) {edge : Edge} {path : Path}
    (h : (edge.source == path) = false) :
    (graph.insert edge).outgoing path = graph.outgoing path := by
  show ((graph.forward.put edge.source (graph.outgoing edge.source ++ [edge]))[path]?).getD [] = _
  rw [PathMap.getElem?_put, h]
  rfl

theorem mem_incoming_foldl_insert (graph : Graph) (edges : List Edge) {edge : Edge} {path : Path} :
    edge ∈ (edges.foldl insert graph).incoming path ↔
      edge ∈ graph.incoming path ∨ (edge ∈ edges ∧ (edge.target == path) = true) := by
  induction edges generalizing graph with
  | nil => simp
  | cons first rest ih =>
      rw [List.foldl_cons, ih, incoming_insert, List.mem_cons]
      -- Only an edge that enters the file adds to it.
      by_cases enters : (first.target == path) = true
      · rw [if_pos enters, List.mem_append, List.mem_singleton]
        constructor
        · rintro ((old | rfl) | ⟨member, same⟩)
          · exact .inl old
          · exact .inr ⟨.inl rfl, enters⟩
          · exact .inr ⟨.inr member, same⟩
        · rintro (old | ⟨rfl | member, same⟩)
          · exact .inl (.inl old)
          · exact .inl (.inr rfl)
          · exact .inr ⟨member, same⟩
      · rw [if_neg enters]
        constructor
        · rintro (old | ⟨member, same⟩)
          · exact .inl old
          · exact .inr ⟨.inr member, same⟩
        · rintro (old | ⟨rfl | member, same⟩)
          · exact .inl old
          · exact absurd same enters
          · exact .inr ⟨member, same⟩

theorem outgoing_foldl_insert_of_ne (graph : Graph) {edges : List Edge} {path : Path}
    (h : ∀ edge ∈ edges, (edge.source == path) = false) :
    (edges.foldl insert graph).outgoing path = graph.outgoing path := by
  induction edges generalizing graph with
  | nil => rfl
  | cons first rest ih =>
      rw [List.foldl_cons, ih _ fun edge member => h edge (List.mem_cons_of_mem _ member),
        outgoing_insert_of_ne graph (h first List.mem_cons_self)]

/-- Where a file has no edges that leave it, there is nothing to remove. -/
theorem incoming_removeOutgoing_of_nil {graph : Graph} {path : Path}
    (h : graph.outgoing path = []) (other : Path) :
    (graph.removeOutgoing path).incoming other = graph.incoming other := by
  rw [removeOutgoing, h]
  rfl

theorem outgoing_removeOutgoing_of_ne (graph : Graph) {path other : Path}
    (h : (path == other) = false) :
    (graph.removeOutgoing path).outgoing other = graph.outgoing other := by
  show ((graph.forward.erase path)[other]?).getD [] = _
  rw [PathMap.getElem?_erase, h]
  rfl

/-- **Edges stored file by file.** Every file is stored once, with edges that leave it; then the
edges that enter a file are those of all files together. -/
theorem mem_incoming_foldl_setOutgoing {α : Type} (entries : List α) (key : α → Path)
    (edges : α → List Edge) (graph : Graph)
    (distinct : entries.Pairwise fun a b => (key a == key b) = false)
    (own : ∀ entry ∈ entries, ∀ edge ∈ edges entry, edge.source = key entry)
    (unstored : ∀ entry ∈ entries, graph.outgoing (key entry) = []) {edge : Edge} {path : Path} :
    edge ∈ (entries.foldl (fun graph entry => graph.setOutgoing (key entry) (edges entry))
        graph).incoming path ↔
      edge ∈ graph.incoming path ∨
        ∃ entry ∈ entries, edge ∈ edges entry ∧ (edge.target == path) = true := by
  induction entries generalizing graph with
  | nil => simp
  | cons first rest ih =>
      rw [List.pairwise_cons] at distinct
      have firstUnstored := unstored first List.mem_cons_self
      -- Storing the first file leaves no edges that leave the others.
      have restUnstored : ∀ entry ∈ rest,
          (graph.setOutgoing (key first) (edges first)).outgoing (key entry) = [] := by
        intro entry member
        have apart := distinct.1 entry member
        rw [setOutgoing, outgoing_foldl_insert_of_ne, outgoing_removeOutgoing_of_ne _ apart]
        · exact unstored entry (List.mem_cons_of_mem _ member)
        · intro edge stored
          rwa [own first List.mem_cons_self edge stored]
      rw [List.foldl_cons, ih _ distinct.2
        (fun entry member => own entry (List.mem_cons_of_mem _ member)) restUnstored]
      rw [setOutgoing, mem_incoming_foldl_insert, incoming_removeOutgoing_of_nil firstUnstored]
      simp only [List.mem_cons, exists_eq_or_imp, or_assoc]

/-! ## The walk against the edges -/

/-- Whether one file includes another, as the graph has it. -/
def Includes (graph : Graph) (source target : Path) : Prop :=
  ∃ edge ∈ graph.incoming target, edge.source = source

/-- Whether an edge goes from one file to the other, in whatever spelling. -/
def Leads (graph : Graph) (source target : Path) : Prop :=
  ∃ edge ∈ graph.incoming target, (edge.source == source) = true

instance (graph : Graph) : DecidableRel graph.Leads := fun source target =>
  inferInstanceAs (Decidable (∃ edge ∈ graph.incoming target, (edge.source == source) = true))

/-- All files that edges leave are plain. -/
def PlainSources (graph : Graph) : Prop :=
  ∀ target, ∀ edge ∈ graph.incoming target, edge.source.IsPlain

/-- Chains of distinct files, each including the next, have at most so many files. -/
def Shallow (graph : Graph) (limit : Nat) : Prop :=
  ∀ chain : List Path, (∀ path ∈ chain, path.IsPlain) → chain.Nodup →
    chain.IsChain graph.Includes → chain.length ≤ limit

/-- Marks a file as visited. -/
def Visit.mark (visit : Visit) (path : Path) : Visit :=
  { visit with visited := visit.visited.insert path }

/-- Goes on to an includer, unless it was visited. -/
def follow (graph : Graph) (depth : Nat) (visit : Visit) (edge : Edge) : Visit :=
  if visit.visited.contains edge.source then visit
  else graph.walkBack depth edge.source { visit with reached := visit.reached ++ [edge.source] }

theorem walkBack_succ (graph : Graph) (depth : Nat) (path : Path) (visit : Visit) :
    graph.walkBack (depth + 1) path visit =
      if visit.visited.contains path then visit
      else (graph.incoming path).foldl (graph.follow depth) (visit.mark path) := rfl

/-- What a walk reaches are files that edges leave. -/
theorem plain_walkBack {graph : Graph} (sources : graph.PlainSources) (depth : Nat) (path : Path)
    {visit : Visit} (h : ∀ file ∈ visit.reached, file.IsPlain) :
    ∀ file ∈ (graph.walkBack depth path visit).reached, file.IsPlain := by
  induction depth generalizing path visit with
  | zero => exact h
  | succ depth ih =>
      rw [walkBack_succ]
      split
      · exact h
      · -- Every edge that is followed leaves only plain files among those reached.
        refine List.foldlRecOn (motive := fun visit : Visit => ∀ file ∈ visit.reached, file.IsPlain)
          (graph.incoming path) (graph.follow depth) h ?_
        intro start plain edge entering
        rw [follow]
        split
        · exact plain
        · apply ih
          intro file member
          rcases List.mem_append.1 member with member | member
          · exact plain file member
          · rw [List.mem_singleton.1 member]
            exact sources path edge entering

theorem plain_includersWithin {graph : Graph} (sources : graph.PlainSources) (path : Path)
    (depth : Nat) : ∀ file ∈ graph.includersWithin path depth, file.IsPlain :=
  plain_walkBack sources depth path nofun

theorem leads_congr (graph : Graph) {a b c d : Path} (source : (a == b) = true)
    (target : (c == d) = true) (h : graph.Leads a c) : graph.Leads b d := by
  obtain ⟨edge, entering, same⟩ := h
  exact ⟨edge, incoming_congr graph target ▸ entering, BEq.trans same source⟩

/-! ## Trails -/

/-- No two paths of a list are the same. -/
def Distinct (files : List Path) : Prop := files.Pairwise fun a b => (a == b) = false

/-- The way down from a file of the walk to its start: visited files, each including the next, and
none of them twice. -/
structure Trail (graph : Graph) (start : Path) (visit : Visit) (trail : List Path) : Prop where
  chain : trail.IsChain graph.Leads
  distinct : Distinct trail
  visited : ∀ file ∈ trail, visit.visited.contains file = true
  last : trail.getLast? = some start

theorem Trail.start (graph : Graph) (start : Path) (visit : Visit) :
    graph.Trail start (visit.mark start) [start] where
  chain := List.isChain_singleton _
  distinct := List.pairwise_singleton _ _
  visited file member := by
    rw [List.mem_singleton.1 member, Visit.mark, PathSet.contains_insert, BEq.rfl, Bool.true_or]
  last := rfl

theorem Trail.mono {graph : Graph} {start : Path} {before after : Visit} {trail : List Path}
    (h : graph.Trail start before trail)
    (grows : ∀ path, before.visited.contains path = true → after.visited.contains path = true) :
    graph.Trail start after trail :=
  ⟨h.chain, h.distinct, fun file member => grows file (h.visited file member), h.last⟩

/-- A file that was not visited differs from those that were. -/
theorem beq_eq_false_of_visited {visit : Visit} {path file : Path}
    (unvisited : visit.visited.contains path = false)
    (visited : visit.visited.contains file = true) : (path == file) = false := by
  by_contra same
  rw [PathSet.contains_congr _ ((Bool.not_eq_false _).mp same), visited] at unvisited
  exact absurd unvisited (by decide)

/-- The trail to an includer that was not visited yet. -/
theorem Trail.cons {graph : Graph} {start path : Path} {visit : Visit} {trail : List Path}
    (h : graph.Trail start visit trail) (leads : (path :: trail).IsChain graph.Leads)
    (unvisited : visit.visited.contains path = false) :
    graph.Trail start (visit.mark path) (path :: trail) where
  chain := leads
  distinct := List.pairwise_cons.2
    ⟨fun file member => beq_eq_false_of_visited unvisited (h.visited file member), h.distinct⟩
  visited file member := by
    rw [Visit.mark, PathSet.contains_insert, Bool.or_eq_true]
    rcases List.mem_cons.1 member with rfl | member
    · exact .inl BEq.rfl
    · exact .inr (h.visited file member)
  last := by
    cases trail with
    | nil => exact absurd h.last nofun
    | cons first rest => exact h.last

/-! ## What the walk does with the files that it meets -/

/-- What the walk did with an includer that it met: it visited the file, or it only noted it because
the trail was as long as the limit. -/
inductive Met (graph : Graph) (limit : Nat) (start : Path) (visit : Visit) (source : Path) : Prop
  | visited (seen : visit.visited.contains source = true)
  | noted (reached : visit.reached.contains source = true) (trail : List Path)
      (full : trail.length = limit) (down : graph.Trail start visit trail)
      (leads : (source :: trail).IsChain graph.Leads)

variable {graph : Graph} {limit : Nat} {start : Path}

theorem contains_eq_of_beq (list : List Path) {a b : Path} (same : (a == b) = true) :
    list.contains a = list.contains b := by
  simp only [List.contains_eq_any_beq, BEq.congr_left same]

theorem Met.congr {visit : Visit} {a b : Path} (same : (a == b) = true)
    (h : graph.Met limit start visit a) : graph.Met limit start visit b := by
  cases h with
  | visited seen => exact .visited (by rw [← PathSet.contains_congr _ same, seen])
  | noted reached trail full down leads =>
      refine .noted (by rw [← contains_eq_of_beq _ same, reached]) trail full down ?_
      cases trail with
      | nil => exact List.isChain_singleton _
      | cons first rest =>
          rw [List.isChain_cons_cons] at leads ⊢
          exact ⟨graph.leads_congr same BEq.rfl leads.1, leads.2⟩

/-- What a part of the walk adds: it visits and notes more files, notes all that it visits, and meets
the includers of what it visits. -/
structure Walked (graph : Graph) (limit : Nat) (start : Path) (before after : Visit) : Prop where
  grows : ∀ path, before.visited.contains path = true → after.visited.contains path = true
  keeps : ∀ path, before.reached.contains path = true → after.reached.contains path = true
  closed : ∀ path, after.visited.contains path = true → before.visited.contains path = true ∨
    ∀ edge ∈ graph.incoming path, graph.Met limit start after edge.source
  noted : ∀ path, after.visited.contains path = true → before.visited.contains path = true ∨
    after.reached.contains path = true

theorem Walked.refl (visit : Visit) : graph.Walked limit start visit visit :=
  ⟨fun _ h => h, fun _ h => h, fun _ h => .inl h, fun _ h => .inl h⟩

/-- What was met stays met. -/
theorem Walked.met {before after : Visit} (h : graph.Walked limit start before after)
    {source : Path} (met : graph.Met limit start before source) :
    graph.Met limit start after source := by
  cases met with
  | visited seen => exact .visited (h.grows source seen)
  | noted reached trail full down leads =>
      exact .noted (h.keeps source reached) trail full (down.mono h.grows) leads

theorem Walked.trans {a b c : Visit} (hab : graph.Walked limit start a b)
    (hbc : graph.Walked limit start b c) : graph.Walked limit start a c where
  grows path h := hbc.grows path (hab.grows path h)
  keeps path h := hbc.keeps path (hab.keeps path h)
  closed path h := by
    rcases hbc.closed path h with visited | closed
    · rcases hab.closed path visited with visited | closed
      · exact .inl visited
      · exact .inr fun edge member => hbc.met (closed edge member)
    · exact .inr closed
  noted path h := by
    rcases hbc.noted path h with visited | noted
    · exact (hab.noted path visited).imp_right (hbc.keeps path)
    · exact .inr noted

/-- Noting a file. -/
def Visit.note (visit : Visit) (path : Path) : Visit :=
  { visit with reached := visit.reached ++ [path] }

theorem Visit.contains_reached_note (visit : Visit) (path other : Path) :
    (visit.note path).reached.contains other =
      (visit.reached.contains other || other == path) := by
  rw [note, List.contains_append, List.contains_cons, List.contains_nil, Bool.or_false]

theorem Walked.note (visit : Visit) (path : Path) :
    graph.Walked limit start visit (visit.note path) where
  grows _ h := h
  keeps other h := by rw [Visit.contains_reached_note, h, Bool.true_or]
  closed _ h := .inl h
  noted _ h := .inl h

/-- A walk from an includer that was just noted is a part of the walk that noted it. -/
theorem Walked.of_includer {visit after : Visit} {source : Path}
    (walked : graph.Walked limit start ((visit.note source).mark source) after)
    (includers : ∀ edge ∈ graph.incoming source, graph.Met limit start after edge.source) :
    graph.Walked limit start visit after where
  grows path h := by
    apply walked.grows
    rw [Visit.mark, PathSet.contains_insert, Visit.note, h, Bool.or_true]
  keeps path h := by
    apply walked.keeps
    rw [Visit.mark, Visit.contains_reached_note, h, Bool.true_or]
  closed path h := by
    rcases walked.closed path h with marked | closed
    · rw [Visit.mark, PathSet.contains_insert, Bool.or_eq_true] at marked
      rcases marked with same | visited
      · rw [← incoming_congr graph same]
        exact .inr includers
      · exact .inl visited
    · exact .inr closed
  noted path h := by
    rcases walked.noted path h with marked | noted
    · rw [Visit.mark, PathSet.contains_insert, Bool.or_eq_true] at marked
      rcases marked with same | visited
      · refine .inr (walked.keeps path ?_)
        rw [Visit.mark, Visit.contains_reached_note, BEq.symm same, Bool.or_true]
      · exact .inl visited
    · exact .inr noted

/-- Edges followed one after the other make up a part of the walk that meets all their sources, if
each of them does so from the trail there is. -/
theorem walked_foldl_follow {depth : Nat} {trail : List Path} {edges : List Edge}
    (steps : ∀ edge ∈ edges, ∀ visit : Visit, graph.Trail start visit trail →
      graph.Walked limit start visit (graph.follow depth visit edge) ∧
        graph.Met limit start (graph.follow depth visit edge) edge.source)
    {visit : Visit} (down : graph.Trail start visit trail) :
    graph.Walked limit start visit (edges.foldl (graph.follow depth) visit) ∧
      ∀ edge ∈ edges,
        graph.Met limit start (edges.foldl (graph.follow depth) visit) edge.source := by
  induction edges generalizing visit with
  | nil => exact ⟨.refl visit, nofun⟩
  | cons first rest ih =>
      have step := steps first List.mem_cons_self visit down
      obtain ⟨walked, others⟩ := ih (fun edge member => steps edge (List.mem_cons_of_mem _ member))
        (down.mono step.1.grows)
      refine ⟨step.1.trans walked, ?_⟩
      intro edge member
      rcases List.mem_cons.1 member with rfl | member
      · exact walked.met step.2
      · exact others edge member

/-- **Following an edge** meets its source, and the includers of all that is visited on the way. The
room that is left and the trail make up the limit. -/
theorem walked_follow (depth : Nat) {trail : List Path} {visit : Visit} {edge : Edge}
    (down : graph.Trail start visit trail) (leads : (edge.source :: trail).IsChain graph.Leads)
    (room : depth + trail.length = limit) :
    graph.Walked limit start visit (graph.follow depth visit edge) ∧
      graph.Met limit start (graph.follow depth visit edge) edge.source := by
  induction depth generalizing trail visit edge with
  | zero =>
      rw [follow]
      by_cases known : visit.visited.contains edge.source = true
      · rw [if_pos known]
        exact ⟨.refl visit, .visited known⟩
      · -- No room is left: the walk notes the file and turns back.
        rw [if_neg known]
        have turned : graph.Walked limit start visit (visit.note edge.source) := .note visit _
        refine ⟨turned, .noted ?_ trail (by omega) (down.mono turned.grows) leads⟩
        exact (Visit.contains_reached_note visit _ _).trans (by rw [BEq.rfl, Bool.or_true])
  | succ depth ih =>
      rw [follow]
      by_cases known : visit.visited.contains edge.source = true
      · rw [if_pos known]
        exact ⟨.refl visit, .visited known⟩
      · rw [if_neg known, walkBack_succ, if_neg known]
        -- The walk goes on from the new file, which is now on top of the trail.
        have turned : graph.Trail start (visit.note edge.source) trail :=
          down.mono fun _ visited => visited
        have longer : graph.Trail start ((visit.note edge.source).mark edge.source)
            (edge.source :: trail) := turned.cons leads ((Bool.not_eq_true _).mp known)
        obtain ⟨walked, includers⟩ := walked_foldl_follow
          (fun next entering _ down' => ih down'
            (List.isChain_cons_cons.2 ⟨⟨next, entering, BEq.rfl⟩, leads⟩)
            (by rw [List.length_cons]; omega)) longer
        refine ⟨walked.of_includer includers, .visited (walked.grows _ ?_)⟩
        rw [Visit.mark, PathSet.contains_insert, BEq.rfl, Bool.true_or]

/-- **The whole walk.** What it visits is its start or noted; it visits its start; and it meets the
includers of all that it visits. -/
theorem walked_walkBack (graph : Graph) (depth : Nat) (start : Path) :
    let after := graph.walkBack (depth + 1) start ⟨∅, []⟩
    (∀ path, after.visited.contains path = true →
      (start == path) = true ∨ after.reached.contains path = true) ∧
    after.visited.contains start = true ∧
    ∀ path, after.visited.contains path = true → ∀ edge ∈ graph.incoming path,
      graph.Met (depth + 1) start after edge.source := by
  intro after
  have marked : ∀ path, (Visit.mark ⟨∅, []⟩ start).visited.contains path = (start == path) := by
    intro path
    rw [Visit.mark, PathSet.contains_insert, Std.ExtTreeSet.contains_empty, Bool.or_false]
  have unfolded : after = (graph.incoming start).foldl (graph.follow depth)
      (Visit.mark ⟨∅, []⟩ start) :=
    (walkBack_succ graph depth start _).trans
      (if_neg (by rw [Std.ExtTreeSet.contains_empty]; exact Bool.false_ne_true))
  have steps : ∀ edge ∈ graph.incoming start, ∀ visit : Visit, graph.Trail start visit [start] →
      graph.Walked (depth + 1) start visit (graph.follow depth visit edge) ∧
        graph.Met (depth + 1) start (graph.follow depth visit edge) edge.source :=
    fun edge entering _ down => walked_follow depth down
      (List.isChain_cons_cons.2 ⟨⟨edge, entering, BEq.rfl⟩, List.isChain_singleton _⟩) rfl
  obtain ⟨walked, includers⟩ := walked_foldl_follow steps (Trail.start graph start ⟨∅, []⟩)
  rw [← unfolded] at walked includers
  refine ⟨?_, walked.grows start (by rw [marked, BEq.rfl]), ?_⟩
  · intro path visited
    rw [← marked]
    exact walked.noted path visited
  · intro path visited
    rcases walked.closed path visited with same | closed
    · rw [marked] at same
      rw [← incoming_congr graph same]
      exact includers
    · exact closed

/-! ## What the walk cannot miss -/

/-- **A file that includes another is among its includers**, however deep the includes are. -/
theorem contains_includersWithin_of_leads {source target : Path} (depth : Nat)
    (leads : graph.Leads source target) (other : (target == source) = false) :
    (graph.includersWithin target (depth + 1)).contains source = true := by
  obtain ⟨edge, entering, same⟩ := leads
  obtain ⟨noted, visited, met⟩ := walked_walkBack graph depth target
  rw [includersWithin, ← contains_eq_of_beq _ same]
  cases met target visited edge entering with
  | visited seen =>
      refine (noted edge.source seen).resolve_left ?_
      rw [BEq.congr_right same, other]
      exact Bool.false_ne_true
  | noted reached _ _ _ _ => exact reached

/-- Chains of distinct files from one file to another, each including the next, have at most so many
edges. -/
def Short (graph : Graph) (limit : Nat) (source target : Path) : Prop :=
  ∀ between : List Path, (source :: (between ++ [target])).IsChain graph.Leads →
    Distinct (source :: (between ++ [target])) → between.length < limit

/-- A way from a file that the walk did not visit to one that it met: distinct files that were not
visited, each including the next. -/
structure Detour (graph : Graph) (limit : Nat) (start : Path) (visit : Visit) (file : Path)
    (first : Path) (rest : List Path) : Prop where
  here : (first == file) = true
  chain : (first :: rest).IsChain graph.Leads
  distinct : Distinct (first :: rest)
  unvisited : ∀ other ∈ first :: rest, visit.visited.contains other = false
  met : ∀ last ∈ (first :: rest).getLast?, graph.Met limit start visit last

/-- A file that includes one with a detour has one too: it is on the detour already, or comes before
it. -/
theorem Detour.back {visit : Visit} {file above first : Path} {rest : List Path}
    (h : graph.Detour limit start visit file first rest) (leads : graph.Leads above file)
    (unvisited : visit.visited.contains above = false) :
    ∃ first rest, graph.Detour limit start visit above first rest := by
  by_cases inside : (first :: rest).contains above = true
  · obtain ⟨here, member, same⟩ := List.contains_iff_exists_mem_beq.1 inside
    obtain ⟨before, after, split⟩ := List.append_of_mem member
    have suffix : here :: after <:+ first :: rest := ⟨before, split.symm⟩
    refine ⟨here, after, BEq.symm same, h.chain.suffix suffix, h.distinct.sublist suffix.sublist,
      fun other listed => h.unvisited other (suffix.subset listed), fun last ends => h.met last ?_⟩
    rw [split, List.getLast?_append_of_ne_nil _ (List.cons_ne_nil _ _)]
    exact ends
  · refine ⟨above, first :: rest, BEq.rfl, ?_, ?_, ?_, fun last ends => h.met last ends⟩
    · exact List.isChain_cons_cons.2 ⟨graph.leads_congr BEq.rfl (BEq.symm h.here) leads, h.chain⟩
    · refine List.pairwise_cons.2 ⟨fun other member => ?_, h.distinct⟩
      by_contra same
      exact inside (List.contains_iff_exists_mem_beq.2
        ⟨other, member, (Bool.not_eq_false _).mp same⟩)
    · intro other member
      rcases List.mem_cons.1 member with rfl | member
      · exact unvisited
      · exact h.unvisited other member

/-- Every file that leads to the start was visited, or a detour from it ends at a file that was
met. -/
theorem visited_or_detour {visit : Visit} (begun : visit.visited.contains start = true)
    (met : ∀ path, visit.visited.contains path = true → ∀ edge ∈ graph.incoming path,
      graph.Met limit start visit edge.source)
    {file : Path} (leads : Relation.ReflTransGen graph.Leads file start) :
    visit.visited.contains file = true ∨
      ∃ first rest, graph.Detour limit start visit file first rest := by
  induction leads using Relation.ReflTransGen.head_induction_on with
  | refl => exact .inl begun
  | head step _ ih =>
      rename_i above file _
      cases here : visit.visited.contains above with
      | true => exact .inl rfl
      | false =>
          refine .inr ?_
          rcases ih with visited | ⟨first, rest, detour⟩
          · obtain ⟨edge, entering, same⟩ := step
            refine ⟨above, [], BEq.rfl, List.isChain_singleton _, List.pairwise_singleton _ _, ?_,
              ?_⟩
            · intro other member
              rw [List.mem_singleton.1 member, here]
            · intro last ends
              rw [← Option.mem_some.1 ends]
              exact (met file visited edge entering).congr same
          · exact detour.back step here

/-- The end of a detour was noted, and the trail from there is as long as the limit. So the detour has
one file only, unless a longer chain leads from its file to the start. -/
theorem Detour.reached {visit : Visit} {file first : Path} {rest : List Path}
    (h : graph.Detour limit start visit file first rest) (short : graph.Short limit file start) :
    visit.reached.contains file = true := by
  obtain ⟨last, ends⟩ : ∃ last, (first :: rest).getLast? = some last :=
    Option.isSome_iff_exists.1 (by rw [List.getLast?_isSome]; exact List.cons_ne_nil _ _)
  cases h.met last ends with
  | visited seen =>
      rw [h.unvisited last (List.mem_of_getLast? ends)] at seen
      exact absurd seen Bool.false_ne_true
  | noted reached trail full down leads =>
      cases rest with
      | nil =>
          obtain rfl : first = last := Option.some.inj ends
          rw [← contains_eq_of_beq _ h.here]
          exact reached
      | cons second more =>
          -- The detour and the trail after it make a chain that is too long.
          exfalso
          obtain ⟨upper, split⟩ := List.getLast?_eq_some_iff.1 down.last
          have whole : (first :: ((second :: more) ++ trail)).IsChain graph.Leads := by
            refine List.isChain_append.2 ⟨h.chain, down.chain, fun a ends' b begins => ?_⟩
            rw [Option.mem_def, ends] at ends'
            obtain rfl := Option.some.inj ends'
            exact (List.isChain_cons.1 leads).1 b begins
          have distinct : Distinct (first :: ((second :: more) ++ trail)) :=
            List.pairwise_append.2 ⟨h.distinct, down.distinct, fun a above b below =>
              beq_eq_false_of_visited (h.unvisited a above) (down.visited b below)⟩
          rw [split, ← List.append_assoc] at whole distinct
          have bound := short ((second :: more) ++ upper) ?_ ?_
          · rw [split, List.length_append, List.length_singleton] at full
            rw [List.length_append, List.length_cons] at bound
            omega
          · rw [List.cons_append, List.cons_append] at whole ⊢
            rw [List.isChain_cons_cons] at whole ⊢
            exact ⟨graph.leads_congr h.here BEq.rfl whole.1, whole.2⟩
          · rw [Distinct, List.pairwise_cons] at distinct ⊢
            exact ⟨fun other member => by rw [← BEq.congr_left h.here]; exact distinct.1 other member,
              distinct.2⟩

/-- **Nothing near is missed.** A file from which includes lead to another is among its includers, if
no chain of distinct files from it to the other has more edges than the walk goes deep. -/
theorem contains_includersWithin_of_short {source target : Path} (depth : Nat)
    (short : graph.Short (depth + 1) source target)
    (leads : Relation.ReflTransGen graph.Leads source target)
    (other : (target == source) = false) :
    (graph.includersWithin target (depth + 1)).contains source = true := by
  obtain ⟨noted, begun, met⟩ := walked_walkBack graph depth target
  rcases visited_or_detour begun met leads with visited | ⟨first, rest, detour⟩
  · refine (noted source visited).resolve_left ?_
    rw [other]
    exact Bool.false_ne_true
  · exact detour.reached short

/-- Every file of a chain but the last includes another one. -/
theorem exists_leads_of_mem {files : List Path} {last : Path}
    (chain : (files ++ [last]).IsChain graph.Leads) {file : Path} (member : file ∈ files) :
    ∃ next, graph.Leads file next := by
  induction files with
  | nil => exact absurd member List.not_mem_nil
  | cons first rest ih =>
      rw [List.cons_append, List.isChain_cons] at chain
      rcases List.mem_cons.1 member with rfl | member
      · obtain ⟨next, begins⟩ : ∃ next, (rest ++ [last]).head? = some next :=
          Option.isSome_iff_exists.1 (by cases rest <;> rfl)
        exact ⟨next, chain.1 next begins⟩
      · exact ih chain.2 member

/-- **Few files make short chains only**: a chain of distinct files has no more edges than there are
files that edges leave. -/
theorem short_of_few {files : List Path} (few : files.length ≤ limit)
    (known : ∀ target, ∀ edge ∈ graph.incoming target, files.contains edge.source = true)
    (source target : Path) : graph.Short limit source target := by
  intro between chain distinct
  have nodup : ((source :: between).map Path.components).Nodup := by
    refine List.pairwise_map.2 (List.Pairwise.imp (fun {a b} apart equal => ?_)
      (List.Pairwise.sublist (List.sublist_append_left (source :: between) [target]) distinct))
    rw [Path.beq_iff.2 equal] at apart
    exact absurd apart (by decide)
  have listed : (source :: between).map Path.components ⊆ files.map Path.components := by
    intro row member
    obtain ⟨file, above, rfl⟩ := List.mem_map.1 member
    obtain ⟨next, edge, entering, same⟩ : ∃ next, graph.Leads file next :=
      exists_leads_of_mem chain above
    obtain ⟨spelled, here, same'⟩ := List.contains_iff_exists_mem_beq.1 (known next edge entering)
    exact List.mem_map.2 ⟨spelled, here, (Path.beq_iff.1 (BEq.trans (BEq.symm same) same')).symm⟩
  have bound := (List.subperm_of_subset nodup listed).length_le
  rw [List.length_map, List.length_map, List.length_cons] at bound
  omega

/-! ## Shallow graphs -/

/-- A chain of files that edges leave, down to a plain one, has a plain spelling. -/
theorem exists_plain_chain (sources : graph.PlainSources) {target : Path} (plain : target.IsPlain)
    {files : List Path} (chain : (files ++ [target]).IsChain graph.Leads) :
    ∃ spelled : List Path, spelled.map Path.components = (files ++ [target]).map Path.components ∧
      (∀ path ∈ spelled, path.IsPlain) ∧ spelled.IsChain graph.Includes := by
  induction files with
  | nil =>
      refine ⟨[target], rfl, fun path member => ?_, List.isChain_singleton _⟩
      rw [List.mem_singleton.1 member]
      exact plain
  | cons first rest ih =>
      rw [List.cons_append, List.isChain_cons] at chain
      obtain ⟨spelled, same, allPlain, chained⟩ := ih chain.2
      cases spelled with
      | nil => exact absurd same.symm (by simp)
      | cons next more =>
          obtain ⟨after, begins⟩ : ∃ after, (rest ++ [target]).head? = some after :=
            Option.isSome_iff_exists.1 (by cases rest <;> rfl)
          have respelled : (after == next) = true := by
            have heads := congrArg List.head? same
            rw [List.head?_map, List.head?_map, begins] at heads
            exact Path.beq_iff.2 (Option.some.inj heads).symm
          obtain ⟨edge, entering, source⟩ := chain.1 after begins
          rw [incoming_congr graph respelled] at entering
          refine ⟨edge.source :: next :: more, ?_, ?_, ?_⟩
          · rw [List.map_cons, same, List.cons_append, List.map_cons, Path.beq_iff.1 source]
          · intro path member
            rcases List.mem_cons.1 member with rfl | member
            · exact sources next edge entering
            · exact allPlain path member
          · exact List.isChain_cons_cons.2 ⟨⟨edge, entering, rfl⟩, chained⟩

/-- Where all chains are short, those between two files are. -/
theorem Shallow.short (shallow : graph.Shallow limit) (sources : graph.PlainSources)
    {target : Path} (plain : target.IsPlain) (source : Path) : graph.Short limit source target := by
  intro between chain distinct
  obtain ⟨spelled, same, allPlain, chained⟩ := exists_plain_chain sources plain
    (show (source :: between ++ [target]).IsChain graph.Leads from chain)
  have rows : (spelled.map Path.components).Nodup := by
    rw [same]
    refine List.pairwise_map.2 (distinct.imp fun {a b} apart equal => ?_)
    rw [Path.beq_iff.2 equal] at apart
    exact absurd apart (by decide)
  have nodup : spelled.Nodup :=
    (List.pairwise_map.1 rows).imp fun apart equal => apart (by rw [equal])
  have length := congrArg List.length same
  rw [List.length_map, List.length_map, List.length_append, List.length_cons,
    List.length_singleton] at length
  have bound := shallow spelled allPlain nodup chained
  omega

/-- **Nothing is missed.** Where chains of distinct files are no longer than the limit, every file
that includes the given one, directly or through others, is among its includers. -/
theorem contains_includersWithin {depth : Nat} (shallow : graph.Shallow (depth + 1))
    (sources : graph.PlainSources) {source target : Path} (plain : target.IsPlain)
    (path : Relation.ReflTransGen graph.Includes source target)
    (other : (target == source) = false) :
    (graph.includersWithin target (depth + 1)).contains source = true := by
  have weaker : graph.Includes ≤ graph.Leads := by
    rintro a b ⟨edge, entering, rfl⟩
    exact ⟨edge, entering, BEq.rfl⟩
  exact contains_includersWithin_of_short depth (shallow.short sources plain source)
    (Relation.ReflTransGen.mono weaker _ _ path) other

/-! ## Spelling does not matter -/

/-- Two states of a walk that reached the same files, with the same files visited. -/
def Visit.Same (a b : Visit) : Prop :=
  a.reached = b.reached ∧ ∀ path, a.visited.contains path = b.visited.contains path

theorem same_walkBack (graph : Graph) (depth : Nat) {path path' : Path}
    (spelled : (path == path') = true) {a b : Visit} (h : a.Same b) :
    (graph.walkBack depth path a).Same (graph.walkBack depth path' b) := by
  induction depth generalizing path path' a b with
  | zero => exact h
  | succ depth ih =>
      rw [walkBack_succ, walkBack_succ, h.2, PathSet.contains_congr _ spelled,
        incoming_congr graph spelled]
      split
      · exact h
      · have marked : (a.mark path).Same (b.mark path') := by
          refine ⟨h.1, fun other => ?_⟩
          rw [Visit.mark, Visit.mark, PathSet.contains_insert, PathSet.contains_insert, h.2,
            BEq.congr_left spelled]
        -- Edge by edge, both walks go on in the same way.
        generalize a.mark path = a at marked ⊢
        generalize b.mark path' = b at marked ⊢
        induction graph.incoming path' generalizing a b with
        | nil => exact marked
        | cons edge rest more =>
            rw [List.foldl_cons, List.foldl_cons]
            apply more
            rw [follow, follow, marked.2]
            split
            · exact marked
            · exact ih BEq.rfl ⟨by rw [marked.1], marked.2⟩

theorem includersWithin_congr (graph : Graph) {a b : Path} (h : (a == b) = true) (depth : Nat) :
    graph.includersWithin a depth = graph.includersWithin b depth :=
  (same_walkBack graph depth h ⟨rfl, fun _ => rfl⟩).1

/-- A file leads to another in a way that the walk back from it cannot miss: by one edge, or by a
chain where no chain is too long to be followed. -/
inductive Traceable (graph : Graph) (limit : Nat) (source target : Path) : Prop
  | edge (leads : graph.Leads source target)
  | chain (shallow : graph.Shallow limit) (sources : graph.PlainSources) (plain : target.IsPlain)
      (path : Relation.ReflTransGen graph.Includes source target)

theorem Traceable.contains_includersWithin {graph : Graph} {limit : Nat} {source target : Path}
    (h : graph.Traceable (limit + 1) source target) (other : (target == source) = false) :
    (graph.includersWithin target (limit + 1)).contains source = true := by
  cases h with
  | edge leads => exact contains_includersWithin_of_leads limit leads other
  | chain shallow sources plain path =>
      exact Graph.contains_includersWithin shallow sources plain path other

end SvServer.Include.Graph
