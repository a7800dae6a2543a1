import SvServer.Proofs.Include.Operations

/-!
# What the walk against the edges finds

The walk notes nothing but files that include its start, directly or through others, over a chain that
is not longer than it goes deep. But it visits a file once only, however deep it is then. A file that it
comes upon when there is no room left is noted and not visited, so what includes that file is left
out, although it may be near the start on another way. So a file within reach is missed only if each
short chain from it runs into a file with a long chain of its own.
-/

namespace SvServer.Include.Graph

variable {graph : Graph} {limit : Nat} {start : Path}

/-- A chain of edges leads from a file to another one, over at most so many of them. -/
structure Near (leads : Path → Path → Prop) (limit : Nat) (start file : Path) : Prop where
  other : (file == start) = false
  chain : ∃ between : List Path, between.length < limit ∧
    (file :: (between ++ [start])).IsChain leads

theorem Near.congr {a b : Path} (same : (a == b) = true) (h : Near graph.Leads limit start a) :
    Near graph.Leads limit start b := by
  obtain ⟨other, between, short, chain⟩ := h
  refine ⟨by rw [← BEq.congr_left same, other], between, short, ?_⟩
  cases between with
  | nil =>
      exact List.isChain_pair.2 (graph.leads_congr same BEq.rfl (List.isChain_pair.1 chain))
  | cons first rest =>
      rw [List.cons_append, List.isChain_cons_cons] at chain ⊢
      exact ⟨graph.leads_congr same BEq.rfl chain.1, chain.2⟩

/-! ## What is noted is near -/

/-- The walk has visited its start, and noted near files only. -/
structure Sound (graph : Graph) (limit : Nat) (start : Path) (visit : Visit) : Prop where
  begun : visit.visited.contains start = true
  near : ∀ file ∈ visit.reached, Near graph.Leads limit start file

theorem Sound.mark {visit : Visit} (h : graph.Sound limit start visit) (path : Path) :
    graph.Sound limit start (visit.mark path) where
  begun := by rw [Visit.mark, PathSet.contains_insert, h.begun, Bool.or_true]
  near := h.near

theorem Sound.note {visit : Visit} (h : graph.Sound limit start visit) {file : Path}
    (near : Near graph.Leads limit start file) : graph.Sound limit start (visit.note file) where
  begun := h.begun
  near other member := by
    rcases List.mem_append.1 member with member | member
    · exact h.near other member
    · rw [List.mem_singleton.1 member]
      exact near

/-- **Following the edges that enter a file** notes near files only. The room that is left and the chain
from the file down to the start make up the limit. -/
theorem Sound.foldl_follow (depth : Nat) {visit : Visit} {path : Path} {rest : List Path}
    (h : graph.Sound limit start visit) (chain : (path :: rest).IsChain graph.Leads)
    (last : (path :: rest).getLast? = some start) (room : depth + (path :: rest).length = limit) :
    graph.Sound limit start ((graph.incoming path).foldl (graph.follow depth) visit) := by
  refine List.foldlRecOn (motive := graph.Sound limit start) _ _ h fun visit h edge entering => ?_
  rw [follow]
  by_cases known : visit.visited.contains edge.source = true
  · rw [if_pos known]
    exact h
  rw [if_neg known]
  have longer : (edge.source :: path :: rest).IsChain graph.Leads :=
    List.isChain_cons_cons.2 ⟨⟨edge, entering, BEq.rfl⟩, chain⟩
  have noted : graph.Sound limit start (visit.note edge.source) := by
    obtain ⟨between, split⟩ := List.getLast?_eq_some_iff.1 last
    refine h.note ⟨beq_eq_false_of_visited ((Bool.not_eq_true _).mp known) h.begun, between, ?_, ?_⟩
    · rw [split, List.length_append, List.length_singleton] at room
      omega
    · rw [← split]
      exact longer
  cases depth with
  | zero => exact noted
  | succ depth =>
      rw [walkBack_succ, if_neg known]
      refine (noted.mark edge.source).foldl_follow depth longer last ?_
      rw [List.length_cons]
      omega
termination_by depth

/-- **What the walk finds is near its start**, and another file than that. -/
theorem near_of_mem_includersWithin {file : Path} (graph : Graph) (start : Path) (depth : Nat)
    (found : file ∈ graph.includersWithin start depth) : Near graph.Leads depth start file := by
  cases depth with
  | zero => exact absurd found List.not_mem_nil
  | succ depth =>
      have begun : graph.Sound (depth + 1) start (Visit.mark ⟨∅, []⟩ start) :=
        ⟨by rw [Visit.mark, PathSet.contains_insert, BEq.rfl, Bool.true_or], nofun⟩
      have sound := begun.foldl_follow depth (List.isChain_singleton _) rfl rfl
      rw [includersWithin, walkBack_succ, if_neg (by simp)] at found
      exact sound.near file found

/-! ## What is near is found, or missed on the way -/

/-- From the last of some files a chain of exactly so many edges leads down to the start, over distinct
files that are none of them. -/
structure Strays (leads : Path → Path → Prop) (limit : Nat) (start : Path) (front down : List Path) :
    Prop where
  full : down.length = limit
  last : down.getLast? = some start
  chain : (front ++ down).IsChain leads
  distinct : Distinct down
  apart : ∀ above ∈ front, ∀ below ∈ down, (above == below) = false

/-- Every chain from a file that is short enough runs into a file from which another way down to the
start takes up all the room. That file is neither the first of the chain nor the one that includes the
start. -/
def Sidetracked (leads : Path → Path → Prop) (limit : Nat) (start file : Path) : Prop :=
  ∀ between : List Path, between.length < limit → (file :: (between ++ [start])).IsChain leads →
    ∃ front down, front ≠ [] ∧ front <+: between.dropLast ∧
      Strays leads limit start (file :: front) down

/-- What was visited stays visited. -/
theorem visited_follow (depth : Nat) {visit : Visit} (edge : Edge) {path : Path}
    (seen : visit.visited.contains path = true) :
    (graph.follow depth visit edge).visited.contains path = true := by
  rw [follow]
  by_cases known : visit.visited.contains edge.source = true
  · rw [if_pos known]
    exact seen
  rw [if_neg known]
  cases depth with
  | zero => exact seen
  | succ depth =>
      rw [walkBack_succ, if_neg known]
      refine List.foldlRecOn (motive := fun visit : Visit => visit.visited.contains path = true)
        _ _ ?_ fun visit seen next _ => visited_follow depth next seen
      rw [Visit.mark, PathSet.contains_insert, seen, Bool.or_true]
termination_by depth

theorem visited_foldl_follow (depth : Nat) {visit : Visit} (edges : List Edge) {path : Path}
    (seen : visit.visited.contains path = true) :
    (edges.foldl (graph.follow depth) visit).visited.contains path = true :=
  List.foldlRecOn (motive := fun visit : Visit => visit.visited.contains path = true)
    edges _ seen fun _ seen edge _ => visited_follow depth edge seen

/-- With room left, the file that an edge leaves is visited. -/
theorem visited_source_follow (depth : Nat) (visit : Visit) (edge : Edge) :
    (graph.follow (depth + 1) visit edge).visited.contains edge.source = true := by
  rw [follow]
  by_cases known : visit.visited.contains edge.source = true
  · rw [if_pos known]
    exact known
  · rw [if_neg known, walkBack_succ, if_neg known]
    apply visited_foldl_follow
    rw [Visit.mark, PathSet.contains_insert, BEq.rfl, Bool.true_or]

/-- **Files that include the start directly are visited**, if the walk goes on behind them. -/
theorem visited_of_leads (graph : Graph) (depth : Nat) {source start : Path}
    (leads : graph.Leads source start) :
    (graph.walkBack (depth + 2) start ⟨∅, []⟩).visited.contains source = true := by
  obtain ⟨edge, entering, same⟩ := leads
  obtain ⟨before, behind, split⟩ := List.append_of_mem entering
  rw [walkBack_succ, if_neg (by simp), split, List.foldl_append, List.foldl_cons,
    ← PathSet.contains_congr _ same]
  exact visited_foldl_follow _ behind (visited_source_follow depth _ edge)

/-- Where the first of some files lacks a property that the last one has, there is a first one that has
it. -/
theorem exists_turn {p : Path → Bool} {first last : Path} (between : List Path)
    (lacks : p first = false) (has : p last = true) : ∃ front next behind,
      between ++ [last] = front ++ next :: behind ∧ (∀ path ∈ first :: front, p path = false) ∧
        p next = true := by
  induction between generalizing first with
  | nil =>
      refine ⟨[], last, [], rfl, fun path member => ?_, has⟩
      rw [List.mem_singleton.1 member]
      exact lacks
  | cons second rest ih =>
      cases here : p second with
      | true =>
          refine ⟨[], second, rest ++ [last], rfl, fun path member => ?_, here⟩
          rw [List.mem_singleton.1 member]
          exact lacks
      | false =>
          obtain ⟨front, next, behind, split, none, holds⟩ := ih here
          exact ⟨second :: front, next, behind, by rw [List.cons_append, split]; rfl,
            List.forall_mem_cons.2 ⟨lacks, none⟩, holds⟩

/-- What comes before some element is all but the last, or leaves out the one before the last too. -/
theorem eq_or_prefix_dropLast {between front behind : List Path} {last next : Path}
    (split : between ++ [last] = front ++ next :: behind) :
    (between = front ∧ last = next) ∨ front <+: between.dropLast := by
  rcases List.eq_nil_or_concat behind with rfl | ⟨behind, final, rfl⟩
  · obtain ⟨same, ends⟩ := List.append_inj' split rfl
    exact .inl ⟨same, List.singleton_inj.1 ends⟩
  · rw [List.concat_eq_append, ← List.cons_append, ← List.append_assoc] at split
    rw [(List.append_inj' split rfl).1, List.dropLast_append_cons]
    exact .inr (List.prefix_append _ _)

/-- A file that was not visited and leads to a visited one was noted when there was no room left: the
chain down from the visited file is as long as the limit. -/
theorem strays_of_unvisited {depth : Nat} (front : List Path) {last next : Path}
    {behind : List Path}
    (chain : (front ++ last :: next :: behind).IsChain graph.Leads)
    (unvisited : ∀ path ∈ front ++ [last],
      (graph.walkBack (depth + 1) start ⟨∅, []⟩).visited.contains path = false)
    (seen : (graph.walkBack (depth + 1) start ⟨∅, []⟩).visited.contains next = true) :
    (graph.includersWithin start (depth + 1)).contains last = true ∧
      ∃ down, Strays graph.Leads (depth + 1) start (front ++ [last]) down := by
  obtain ⟨-, -, met⟩ := walked_walkBack graph depth start
  obtain ⟨above, ⟨edge, entering, same⟩, -⟩ := List.isChain_append_cons_cons.1 chain
  cases (met next seen edge entering).congr same with
  | visited visited =>
      rw [unvisited last (List.mem_append_right _ (.head _))] at visited
      exact absurd visited Bool.false_ne_true
  | noted reached trail full down leads =>
      refine ⟨reached, trail, full, down.last, ?_, down.distinct, fun a above b below =>
        beq_eq_false_of_visited (unvisited a above) (down.visited b below)⟩
      refine List.isChain_append.2 ⟨above, down.chain, fun a ends b begins => ?_⟩
      rw [List.getLast?_concat, Option.mem_some] at ends
      exact ends ▸ (List.isChain_cons.1 leads).1 b begins

/-- Only files that were found were visited, beside the start. -/
theorem unvisited_of_unfound {depth : Nat} {file : Path} (other : (file == start) = false)
    (unfound : ¬(graph.includersWithin start (depth + 1)).contains file = true) :
    (graph.walkBack (depth + 1) start ⟨∅, []⟩).visited.contains file = false := by
  obtain ⟨noted, -, -⟩ := walked_walkBack graph depth start
  rw [← Bool.not_eq_true]
  intro seen
  rcases noted file seen with same | reached
  · rw [BEq.comm, other] at same
    exact Bool.false_ne_true same
  · exact unfound reached

/-- **A near file is found or sidetracked.** On a chain from a file that is not found, the last file
before one that was visited was noted when there was no room left. -/
theorem contains_or_sidetracked {file : Path} (near : Near graph.Leads limit start file) :
    (graph.includersWithin start limit).contains file = true ∨
      Sidetracked graph.Leads limit start file := by
  refine or_iff_not_imp_left.2 fun unfound between short chain => ?_
  obtain ⟨depth, rfl⟩ : ∃ depth, limit = depth + 1 :=
    Nat.exists_eq_succ_of_ne_zero (Nat.pos_iff_ne_zero.1 (Nat.zero_lt_of_lt short))
  obtain ⟨-, begun, -⟩ := walked_walkBack graph depth start
  obtain ⟨front, next, behind, split, unvisited, seen⟩ :=
    exists_turn between (unvisited_of_unfound near.other unfound) begun
  rw [split] at chain
  rcases List.eq_nil_or_concat front with rfl | ⟨before, last, rfl⟩
  · exact absurd (strays_of_unvisited [] chain unvisited seen).1 unfound
  rw [List.concat_eq_append] at split unvisited chain
  rw [List.append_assoc, ← List.cons_append] at chain
  obtain ⟨down, strays⟩ := (strays_of_unvisited (file :: before) chain unvisited seen).2
  refine ⟨before ++ [last], down, List.append_ne_nil_of_right_ne_nil _ (List.cons_ne_nil _ _), ?_,
    strays⟩
  refine (eq_or_prefix_dropLast split).resolve_left ?_
  rintro ⟨rfl, rfl⟩
  -- The last file before the start was visited, as there is room behind the start.
  obtain ⟨room, rfl⟩ : ∃ room, depth = room + 1 := by
    rw [List.length_append, List.length_singleton] at short
    exact Nat.exists_eq_succ_of_ne_zero (by omega)
  have direct : graph.Leads last start := (List.isChain_cons_cons.1 chain.right_of_append).1
  have visited := visited_of_leads graph room direct
  rw [unvisited last (.tail _ (List.mem_append_right _ (.head _)))] at visited
  exact absurd visited Bool.false_ne_true

/-- Two edges are too few to be sidetracked on. -/
theorem Near.not_sidetracked {leads : Path → Path → Prop} {file : Path}
    (near : Near leads limit start file) (few : limit ≤ 2) :
    ¬ Sidetracked leads limit start file := by
  obtain ⟨between, short, chain⟩ := near.chain
  intro sidetracked
  obtain ⟨front, -, some, initial, -⟩ := sidetracked between short chain
  have bound := initial.length_le
  rw [List.length_dropLast] at bound
  exact some (List.eq_nil_of_length_eq_zero (by omega))

/-- **What the walk finds after a sequence of operations.** All files found are near, by the edges that
the operations left, and a near file is found or sidetracked. -/
theorem includers_of_operations (operations : List Operation) (target : Path) (depth : Nat)
    (file : Path) :
    let leads := Joins (edgesOf operations)
    let found := ((afterOperations operations).includersWithin target depth).contains file
    (found = true → Near leads depth target file) ∧
      (Near leads depth target file → found = true ∨ Sidetracked leads depth target file) ∧
      (depth ≤ 2 → (found = true ↔ Near leads depth target file)) := by
  intro leads found
  have same : leads = (afterOperations operations).Leads :=
    (holds_afterOperations operations).leads.symm
  rw [same]
  have sound : found = true → Near (afterOperations operations).Leads depth target file := by
    intro contains
    obtain ⟨other, member, equal⟩ := List.contains_iff_exists_mem_beq.1 contains
    exact (near_of_mem_includersWithin _ target depth member).congr (BEq.symm equal)
  exact ⟨sound, contains_or_sidetracked, fun few =>
    ⟨sound, fun near => (contains_or_sidetracked near).resolve_right (near.not_sidetracked few)⟩⟩

/-- Four files below a header: two of them include it, one includes the other of those, and two more
stand above that one. -/
def ladder : List Operation :=
  let edge (source target : String) : Edge := ⟨.ofString source, .ofString target, target⟩
  [.update (.ofString "/a") [edge "/a" "/t"],
    .update (.ofString "/b") [edge "/b" "/a", edge "/b" "/t"],
    .update (.ofString "/c") [edge "/c" "/b"],
    .update (.ofString "/d") [edge "/d" "/c"]]

/-- **A near file can be missed.** `/d` reaches the header over `/c` and `/b`, which are three edges. But
the walk comes upon `/b` above `/a` first, has room for `/c` only, and does not visit `/b` again. -/
theorem misses_near_file :
    Near (Joins (edgesOf ladder)) 3 (.ofString "/t") (.ofString "/d") ∧
      ((afterOperations ladder).includersWithin (.ofString "/t") 3).contains (.ofString "/d") = false := by
  refine ⟨⟨by decide +kernel, [.ofString "/c", .ofString "/b"], by decide, ?_⟩, by decide +kernel⟩
  rw [← (holds_afterOperations ladder).leads]
  decide +kernel

end SvServer.Include.Graph
