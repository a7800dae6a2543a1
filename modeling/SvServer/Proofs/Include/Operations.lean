import SvServer.Proofs.Include.Graph

/-!
# The edges after a sequence of operations

A graph is built by giving files new outgoing edges, by removing files and by clearing all. What it
holds then can be said without its two tables: a list of edges, from which an operation takes those of a
file and to which it adds new ones at the end. Both tables have the edges of this list, in its order,
by the file that they leave and by the file that they enter.

So the two tables mirror each other, although an operation that takes edges out of one of them finds
their copies in the other by walking over those it takes out: between two files both have the same edges
in the same order, however often a file includes another one, itself included, and no list is stored
that has no edges. Giving a file new edges leaves the edges that leave other files alone, and removing
a file leaves all edges alone that do not touch it.
-/

namespace SvServer.Include

/-- Whether an edge leaves or enters a file. -/
def Edge.touches (edge : Edge) (path : Path) : Bool := edge.source == path || edge.target == path

/-- The same edges have the same ends and the same name. -/
theorem Edge.beq_def (a b : Edge) :
    (a == b) = (a.source == b.source && (a.target == b.target && a.name == b.name)) := rfl

namespace Graph

/-- What changes a graph. -/
inductive Operation where
  | update (path : Path) (edges : List Edge)
  | remove (path : Path)
  | clear

def perform (graph : Graph) : Operation → Graph
  | .update path edges => graph.setOutgoing path edges
  | .remove path => graph.erase path
  | .clear => .empty

/-- The graph after a sequence of operations, from one without edges. -/
def afterOperations (operations : List Operation) : Graph := operations.foldl perform empty

/-- The edges that an operation leaves, and those that it adds. -/
def edgesAfter (edges : List Edge) : Operation → List Edge
  | .update path added => edges.filter (·.source != path) ++ added
  | .remove path => (edges.filter (·.source != path)).filter (·.target != path)
  | .clear => []

/-- The edges after a sequence of operations. -/
def edgesOf (operations : List Operation) : List Edge := operations.foldl edgesAfter []

/-- Both tables of a graph have the edges of a list, in their order. -/
structure Holds (graph : Graph) (edges : List Edge) : Prop where
  outgoing : ∀ path, graph.outgoing path = edges.filter (·.source == path)
  incoming : ∀ path, graph.incoming path = edges.filter (·.target == path)

/-! ## Tables of edges -/

/-- The edges that a table has under a key. -/
def entries (table : PathMap (List Edge)) (key : Path) : List Edge := table[key]?.getD []

theorem entries_put (table : PathMap (List Edge)) (key other : Path) (edges : List Edge) :
    entries (table.put key edges) other = if key == other then edges else entries table other := by
  rw [entries, PathMap.getElem?_put]
  split <;> rfl

theorem entries_erase (table : PathMap (List Edge)) (key other : Path) :
    entries (table.erase key) other = if key == other then [] else entries table other := by
  rw [entries, PathMap.getElem?_erase]
  split <;> rfl

theorem entries_congr (table : PathMap (List Edge)) {a b : Path} (same : (a == b) = true) :
    entries table a = entries table b := by
  rw [entries, entries, PathMap.getElem?_congr table same]

/-- An empty list is not stored, which cannot be told from what the table has. -/
theorem entries_store (table : PathMap (List Edge)) (key other : Path) (edges : List Edge) :
    entries (store table key edges) other = if key == other then edges else entries table other := by
  rw [store]
  split
  case isTrue nothing => rw [entries_erase, List.isEmpty_iff.1 nothing]
  case isFalse => rw [entries_put]

theorem entries_retain (table : PathMap (List Edge)) (key other : Path) (keep : Edge → Bool) :
    entries (retain table key keep) other =
      if key == other then (entries table other).filter keep else entries table other := by
  rw [retain]
  split
  case h_1 unstored =>
    have nothing : entries table key = [] := by rw [entries, unstored]; rfl
    split
    case isTrue same => rw [← entries_congr table same, nothing, List.filter_nil]
    case isFalse => rfl
  case h_2 edges stored =>
    have listed : entries table key = edges := by rw [entries, stored]; rfl
    rw [entries_store]
    split
    case isTrue same => rw [← entries_congr table same, listed]
    case isFalse => rfl

/-- Under each of the keys only what passes the test is kept; a key may be named more than once. -/
theorem entries_foldl_retain (edges : List Edge) (key : Edge → Path) (keep : Edge → Bool)
    (table : PathMap (List Edge)) (path : Path) :
    entries (edges.foldl (fun table edge => retain table (key edge) keep) table) path =
      if edges.any (key · == path) then (entries table path).filter keep else entries table path := by
  induction edges generalizing table with
  | nil => rfl
  | cons first rest ih =>
      rw [List.foldl_cons, ih, entries_retain, List.any_cons]
      cases (key first == path) <;> simp

/-! ## Lists without the edges of a file -/

section Without

variable (edges : List Edge) (near far : Edge → Path) (path other : Path)

/-- No edges are left at the file, and those at other files stay. -/
theorem filter_without : (edges.filter (near · != path)).filter (near · == other) =
    if path == other then [] else edges.filter (near · == other) := by
  rw [List.filter_filter]
  split
  case isTrue same =>
    rw [List.filter_eq_nil_iff]
    intro edge _
    rw [bne, BEq.congr_right same, Bool.and_not_self]
    exact Bool.false_ne_true
  case isFalse apart =>
    refine List.filter_congr fun edge _ => ?_
    cases here : (near edge == other) with
    | false => rfl
    | true =>
        rw [Bool.true_and, bne, BEq.congr_left here, BEq.comm, (Bool.not_eq_true _).mp apart]
        rfl

/-- At the other ends, only the files that the edges of the file name lose any. -/
theorem filter_without_far : (edges.filter (near · != path)).filter (far · == other) =
    if (edges.filter (near · == path)).any (far · == other) then
      (edges.filter (far · == other)).filter (near · != path)
    else edges.filter (far · == other) := by
  split
  case isTrue =>
    rw [List.filter_filter, List.filter_filter]
    simp only [Bool.and_comm]
  case isFalse unnamed =>
    rw [List.filter_filter]
    refine List.filter_congr fun edge member => ?_
    cases there : (far edge == other) with
    | false => rfl
    | true =>
        rw [Bool.true_and, bne, Bool.not_eq_true', Bool.eq_false_iff]
        exact fun here => unnamed (List.any_eq_true.2 ⟨edge, List.mem_filter.2 ⟨member, here⟩, there⟩)

end Without

/-! ## Operations -/

theorem holds_empty : Holds empty [] where
  outgoing := outgoing_empty
  incoming := incoming_empty

variable {graph : Graph} {edges : List Edge}

theorem Holds.insert (h : graph.Holds edges) (edge : Edge) :
    (graph.insert edge).Holds (edges ++ [edge]) where
  outgoing path := by
    show entries (graph.forward.put edge.source (graph.outgoing edge.source ++ [edge])) path = _
    rw [entries_put, h.outgoing, List.filter_append, List.filter_cons, List.filter_nil]
    split
    case isTrue same => simp only [BEq.congr_right same]
    case isFalse => rw [List.append_nil, ← h.outgoing]; rfl
  incoming path := by
    rw [incoming_insert, h.incoming, List.filter_append, List.filter_cons, List.filter_nil]
    split
    case isTrue => rfl
    case isFalse => rw [List.append_nil]

theorem Holds.foldl_insert (h : graph.Holds edges) (added : List Edge) :
    (added.foldl Graph.insert graph).Holds (edges ++ added) := by
  induction added generalizing graph edges with
  | nil => rwa [List.append_nil]
  | cons first rest ih =>
      have further := ih (h.insert first)
      rwa [List.append_assoc] at further

theorem Holds.removeOutgoing (h : graph.Holds edges) (path : Path) :
    (graph.removeOutgoing path).Holds (edges.filter (·.source != path)) where
  outgoing other := by
    rw [filter_without, ← h.outgoing]
    exact entries_erase graph.forward path other
  incoming other := by
    rw [filter_without_far, ← h.outgoing, ← h.incoming]
    exact entries_foldl_retain (graph.outgoing path) Edge.target _ graph.backward other

theorem Holds.removeIncoming (h : graph.Holds edges) (path : Path) :
    (graph.removeIncoming path).Holds (edges.filter (·.target != path)) where
  outgoing other := by
    rw [filter_without_far, ← h.outgoing, ← h.incoming]
    exact entries_foldl_retain (graph.incoming path) Edge.source _ graph.forward other
  incoming other := by
    rw [filter_without, ← h.incoming]
    exact entries_erase graph.backward path other

/-- **An operation changes both tables alike.** -/
theorem Holds.perform (h : graph.Holds edges) (operation : Operation) :
    (graph.perform operation).Holds (edgesAfter edges operation) := by
  cases operation with
  | update path added => exact (h.removeOutgoing path).foldl_insert added
  | remove path => exact (h.removeOutgoing path).removeIncoming path
  | clear => exact holds_empty

/-- **Every graph holds the edges that its operations left.** -/
theorem holds_afterOperations (operations : List Operation) :
    (afterOperations operations).Holds (edgesOf operations) := by
  have further : ∀ (graph : Graph) (edges : List Edge), graph.Holds edges →
      (operations.foldl Graph.perform graph).Holds (operations.foldl edgesAfter edges) := by
    induction operations with
    | nil => exact fun _ _ h => h
    | cons first rest ih => exact fun _ _ h => ih _ _ (h.perform first)
  exact further empty [] holds_empty

/-- Whether an edge of a list leads from one file to the other, in whatever spelling. -/
def Joins (edges : List Edge) (source target : Path) : Prop :=
  ∃ edge ∈ edges, (edge.source == source) = true ∧ (edge.target == target) = true

/-- The graph leads where an edge of the list does. -/
theorem Holds.leads (h : graph.Holds edges) : graph.Leads = Joins edges := by
  funext source target
  refine propext ⟨?_, ?_⟩
  · rintro ⟨edge, entering, leaves⟩
    rw [h.incoming, List.mem_filter] at entering
    exact ⟨edge, entering.1, leaves, entering.2⟩
  · rintro ⟨edge, member, leaves, enters⟩
    exact ⟨edge, by rw [h.incoming, List.mem_filter]; exact ⟨member, enters⟩, leaves⟩

/-! ## Lists without edges -/

/-- The lists of a table have an edge each. -/
abbrev Filled (table : PathMap (List Edge)) : Prop := Stores (fun edges => edges ≠ []) table

section Filled

variable {table : PathMap (List Edge)}

theorem Filled.store (h : Filled table) (key : Path) (edges : List Edge) :
    Filled (store table key edges) := by
  rw [Graph.store]
  split
  · exact Stores.erase h key
  case isFalse filled => exact Stores.put h key (mt List.isEmpty_iff.2 filled)

theorem Filled.retain (h : Filled table) (key : Path) (keep : Edge → Bool) :
    Filled (retain table key keep) := by
  rw [Graph.retain]
  split
  · exact h
  · exact h.store key _

theorem Filled.foldl_retain (h : Filled table) (edges : List Edge) (key : Edge → Path)
    (keep : Edge → Bool) :
    Filled (edges.foldl (fun table edge => Graph.retain table (key edge) keep) table) :=
  List.foldlRecOn edges _ h fun _ filled edge _ => filled.retain (key edge) keep

end Filled

/-- The lists of both tables have an edge each. -/
structure IsFilled (graph : Graph) : Prop where
  forward : Filled graph.forward
  backward : Filled graph.backward

theorem isFilled_empty : empty.IsFilled := ⟨Stores.empty, Stores.empty⟩

theorem IsFilled.insert (h : graph.IsFilled) (edge : Edge) : (graph.insert edge).IsFilled where
  forward := Stores.put h.forward _
    (List.append_ne_nil_of_right_ne_nil _ (List.cons_ne_nil _ _))
  backward := Stores.put h.backward _
    (List.append_ne_nil_of_right_ne_nil _ (List.cons_ne_nil _ _))

theorem IsFilled.removeOutgoing (h : graph.IsFilled) (path : Path) :
    (graph.removeOutgoing path).IsFilled where
  forward := Stores.erase h.forward path
  backward := h.backward.foldl_retain (graph.outgoing path) Edge.target _

theorem IsFilled.removeIncoming (h : graph.IsFilled) (path : Path) :
    (graph.removeIncoming path).IsFilled where
  forward := h.forward.foldl_retain (graph.incoming path) Edge.source _
  backward := Stores.erase h.backward path

/-- **No operation leaves a list without edges behind.** -/
theorem IsFilled.perform (h : graph.IsFilled) (operation : Operation) :
    (graph.perform operation).IsFilled := by
  cases operation with
  | update path edges =>
      exact List.foldlRecOn edges Graph.insert (h.removeOutgoing path)
        fun _ filled edge _ => filled.insert edge
  | remove path => exact (h.removeOutgoing path).removeIncoming path
  | clear => exact isFilled_empty

theorem isFilled_afterOperations (operations : List Operation) :
    (afterOperations operations).IsFilled :=
  List.foldlRecOn operations Graph.perform isFilled_empty
    fun _ filled operation _ => filled.perform operation

/-! ## Edges between two files -/

/-- Both tables of a graph have the same edges. -/
structure Mirrored (graph : Graph) : Prop where
  /-- An edge is listed with the files that it leaves and enters. -/
  leaves : ∀ path, ∀ edge ∈ graph.outgoing path, (edge.source == path) = true
  enters : ∀ path, ∀ edge ∈ graph.incoming path, (edge.target == path) = true
  /-- Between two files both tables have the same edges, in the same order. -/
  between : ∀ source target, (graph.outgoing source).filter (·.target == target) =
    (graph.incoming target).filter (·.source == source)
  /-- Both tables have each edge equally often. -/
  count : ∀ edge,
    (graph.outgoing edge.source).count edge = (graph.incoming edge.target).count edge
  /-- No list without edges is stored. -/
  filled : graph.IsFilled

/-- How often an edge is in a list can be told from those edges that have something in common with
it. -/
theorem count_filter_of_beq {edge : Edge} {keep : Edge → Bool}
    (common : ∀ other, (other == edge) = true → keep other = true) (edges : List Edge) :
    (edges.filter keep).count edge = edges.count edge := by
  rw [List.count_eq_countP, List.count_eq_countP, List.countP_filter]
  refine List.countP_congr fun other _ => ?_
  rw [Bool.and_eq_true]
  exact and_iff_left_of_imp (common other)

theorem Holds.between (h : graph.Holds edges) (source target : Path) :
    (graph.outgoing source).filter (·.target == target) =
      (graph.incoming target).filter (·.source == source) := by
  rw [h.outgoing, h.incoming, List.filter_filter, List.filter_filter]
  simp only [Bool.and_comm]

/-- **A graph that holds a list of edges** has them all in both tables. -/
theorem Holds.mirrored (h : graph.Holds edges) (filled : graph.IsFilled) : graph.Mirrored where
  leaves path edge member := by
    rw [h.outgoing, List.mem_filter] at member
    exact member.2
  enters path edge member := by
    rw [h.incoming, List.mem_filter] at member
    exact member.2
  between := h.between
  count edge := by
    have targets : ∀ other, (other == edge) = true → (other.target == edge.target) = true := by
      intro other same
      rw [Edge.beq_def, Bool.and_eq_true, Bool.and_eq_true] at same
      exact same.2.1
    have sources : ∀ other, (other == edge) = true → (other.source == edge.source) = true := by
      intro other same
      rw [Edge.beq_def, Bool.and_eq_true] at same
      exact same.1
    rw [← count_filter_of_beq targets, h.between, count_filter_of_beq sources]
  filled := filled

/-! ## What operations leave alone -/

/-- The file has the new edges, in their order, and all other files keep those that leave them. -/
structure Replaces (graph : Graph) (path : Path) (edges : List Edge) : Prop where
  own : (graph.setOutgoing path edges).outgoing path = edges
  others : ∀ other, (path == other) = false →
    (graph.setOutgoing path edges).outgoing other = graph.outgoing other

/-- The edges that touch the file are gone from both tables, and all others stay, in their order. -/
structure Drops (graph : Graph) (path : Path) : Prop where
  untouched : ∀ file edge, edge ∈ (graph.erase path).outgoing file ∨
    edge ∈ (graph.erase path).incoming file → edge.touches path = false
  outgoing : ∀ file, (graph.erase path).outgoing file =
    (graph.outgoing file).filter (!Edge.touches · path)
  incoming : ∀ file, (graph.erase path).incoming file =
    (graph.incoming file).filter (!Edge.touches · path)

theorem Holds.setOutgoing (h : graph.Holds edges) (path : Path) (added : List Edge) :
    (graph.setOutgoing path added).Holds (edges.filter (·.source != path) ++ added) :=
  h.perform (.update path added)

theorem Holds.replaces (h : graph.Holds edges) {path : Path} {added : List Edge}
    (own : ∀ edge ∈ added, (edge.source == path) = true) : graph.Replaces path added where
  own := by
    rw [(h.setOutgoing path added).outgoing, List.filter_append,
      filter_without edges Edge.source, if_pos BEq.rfl, List.nil_append, List.filter_eq_self]
    exact own
  others other apart := by
    -- None of the new edges leaves another file.
    have none : added.filter (·.source == other) = [] := by
      rw [List.filter_eq_nil_iff]
      intro edge member
      rw [BEq.congr_left (own edge member), apart]
      exact Bool.false_ne_true
    rw [(h.setOutgoing path added).outgoing, List.filter_append,
      filter_without edges Edge.source, apart, none, List.append_nil, h.outgoing]
    rfl

/-- Edges that are left when those of a file were taken out from both ends. -/
theorem filter_untouched (edges : List Edge) (path : Path) (near : Edge → Bool) :
    ((edges.filter (·.source != path)).filter (·.target != path)).filter near =
      (edges.filter near).filter (!Edge.touches · path) := by
  simp only [List.filter_filter]
  refine List.filter_congr fun edge _ => ?_
  rw [Edge.touches, Bool.not_or, bne, bne, Bool.and_comm, Bool.and_comm (!(edge.target == path))]

theorem Holds.drops (h : graph.Holds edges) (path : Path) : graph.Drops path := by
  have after := h.perform (.remove path)
  have outgoing : ∀ file, (graph.erase path).outgoing file =
      (graph.outgoing file).filter (!Edge.touches · path) := by
    intro file
    rw [h.outgoing, ← filter_untouched]
    exact after.outgoing file
  have incoming : ∀ file, (graph.erase path).incoming file =
      (graph.incoming file).filter (!Edge.touches · path) := by
    intro file
    rw [h.incoming, ← filter_untouched]
    exact after.incoming file
  refine ⟨?_, outgoing, incoming⟩
  intro file edge member
  rw [outgoing, incoming, List.mem_filter, List.mem_filter, ← or_and_right] at member
  rw [← Bool.not_eq_true']
  exact member.2

/-- **Both tables tell the same edges after every sequence of operations**, and each further operation
changes the edges that it names and no others. -/
theorem mirrored_afterOperations (operations : List Operation) :
    let graph := afterOperations operations
    graph.Mirrored ∧
      (∀ path edges, (∀ edge ∈ edges, (edge.source == path) = true) → graph.Replaces path edges) ∧
      ∀ path, graph.Drops path := by
  intro graph
  have h := holds_afterOperations operations
  exact ⟨h.mirrored (isFilled_afterOperations operations), fun path edges own => h.replaces own,
    h.drops⟩

end Graph

end SvServer.Include
