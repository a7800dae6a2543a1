import SvServer.Path

/-!
The include graph. Edges are stored twice, with the file they leave and with the file they enter, so
that both questions are one look-up.
-/

namespace SvServer.Include

/-- An edge from a file to a file that it includes, with the name as written. -/
structure Edge where
  source : Path
  target : Path
  name : String
deriving BEq, Repr

/-- A set of include edges, looked up from either end. -/
structure Graph where
  /-- Edges by the file they leave -/
  forward : PathMap (List Edge)
  /-- Edges by the file they enter -/
  backward : PathMap (List Edge)

namespace Graph

def empty : Graph := ⟨∅, ∅⟩

/-- Edges that leave a file, in the order they were added. -/
def outgoing (graph : Graph) (path : Path) : List Edge := (graph.forward[path]?).getD []

/-- Edges that enter a file, in the order they were added. -/
def incoming (graph : Graph) (path : Path) : List Edge := (graph.backward[path]?).getD []

/-- Stores a list of edges under a key; an empty list is not stored. -/
def store (table : PathMap (List Edge)) (key : Path) (edges : List Edge) : PathMap (List Edge) :=
  if edges.isEmpty then table.erase key else table.put key edges

/-- Keeps only some of the edges under a key. -/
def retain (table : PathMap (List Edge)) (key : Path) (keep : Edge → Bool) : PathMap (List Edge) :=
  match table[key]? with
  | none => table
  | some edges => store table key (edges.filter keep)

/-- Adds an edge. -/
def insert (graph : Graph) (edge : Edge) : Graph :=
  ⟨graph.forward.put edge.source (graph.outgoing edge.source ++ [edge]),
   graph.backward.put edge.target (graph.incoming edge.target ++ [edge])⟩

/-- Removes the edges that leave a file. -/
def removeOutgoing (graph : Graph) (path : Path) : Graph :=
  { forward := graph.forward.erase path
    backward := (graph.outgoing path).foldl (fun table edge =>
      retain table edge.target fun other => other.source != path) graph.backward }

/-- Removes the edges that enter a file. -/
def removeIncoming (graph : Graph) (path : Path) : Graph :=
  { forward := (graph.incoming path).foldl (fun table edge =>
      retain table edge.source fun other => other.target != path) graph.forward
    backward := graph.backward.erase path }

/-- Replaces the edges that leave a file. -/
def setOutgoing (graph : Graph) (path : Path) (edges : List Edge) : Graph :=
  edges.foldl insert (graph.removeOutgoing path)

/-- Removes every edge that touches a file. -/
def erase (graph : Graph) (path : Path) : Graph :=
  (graph.removeOutgoing path).removeIncoming path

/-- Whether some other file includes the file. -/
def hasOtherIncluder (graph : Graph) (path : Path) : Bool :=
  (graph.incoming path).any fun edge => edge.source != path

/-- Files met on a walk against the edges: those visited, and those reached, in order. -/
structure Visit where
  visited : PathSet
  reached : List Path

/-- Walks against the edges, at most `depth` edges far. A file is visited once. -/
def walkBack (graph : Graph) : (depth : Nat) → Path → Visit → Visit
  | 0, _, visit => visit
  | depth + 1, path, visit =>
    if visit.visited.contains path then visit
    else
      (graph.incoming path).foldl (fun visit edge =>
        if visit.visited.contains edge.source then visit
        else
          walkBack graph depth edge.source
            { visit with reached := visit.reached ++ [edge.source] })
        { visit with visited := visit.visited.insert path }

/-- Files that include the given one directly or indirectly, as the walk reaches them. -/
def includersWithin (graph : Graph) (path : Path) (depth : Nat) : List Path :=
  (graph.walkBack depth path ⟨∅, []⟩).reached

/-- Number of edges. -/
def size (graph : Graph) : Nat :=
  graph.forward.toList.foldl (fun count entry => count + entry.2.length) 0

/-- All edges as text, a line for every including file and one for each of its edges. -/
def render (graph : Graph) : String :=
  let files := graph.forward.toList.map fun (path, edges) =>
    let lines := edges.map fun edge =>
      "    -> " ++ edge.target.toString ++ " (\"" ++ edge.name ++ "\")\n"
    "  " ++ path.toString ++ ":\n" ++ String.join lines
  "Include graph (" ++ toString graph.size ++ " edges):\n" ++ String.join files

end Graph

end SvServer.Include
