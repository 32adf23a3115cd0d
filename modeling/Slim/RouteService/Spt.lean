import Mathlib.Algebra.Group.Nat.Defs
import Slim.Lib.ShortestPath

/-!
# Shortest-path trees

The segments of a topology are `petgraph` graphs: undirected, with domain names at the nodes and
costs at the edges. `computeSpt` rebuilds a tree from the distances that `petgraph::algo::dijkstra`
returns: the parent of a node is the first neighbour whose distance is one edge weight less. Sums
are taken in `u32` and wrap.

A tree has the node indices of its graph: `index_map` renames the nodes one to one, in the order of
a hash map, and whoever reads the tree goes through the renaming.
-/

namespace Slim

/-! ## Graphs -/

/-- `petgraph::graph::NodeIndex`. -/
abbrev NodeIndex := Nat

structure GraphEdge where
  source : NodeIndex
  target : NodeIndex
  weight : Nat
  deriving DecidableEq, Repr

/-- An edge of weight `w` joins `u` and `v`. -/
def Joins (edges : List GraphEdge) (u v : NodeIndex) (w : Nat) : Prop :=
  ∃ e ∈ edges, e.weight = w ∧ (e.source = u ∧ e.target = v ∨ e.target = u ∧ e.source = v)

/-- `UnGraph<String, u32>`, with the answers of `petgraph` about it. The order of its listings is
not known, and its search is known to be right as long as no sum overflows. -/
structure UnGraph where
  nodes : List String
  edges : List GraphEdge
  inBounds : ∀ e ∈ edges, e.source < nodes.length ∧ e.target < nodes.length
  /-- `graph.edges(u)`: the other end and the weight of each edge at `u`. -/
  edgesAt : NodeIndex → List (NodeIndex × Nat)
  mem_edgesAt : ∀ {u v w}, (v, w) ∈ edgesAt u ↔ Joins edges u v w
  /-- `petgraph::algo::dijkstra` without a goal: the nodes that can be reached, with distances. -/
  dijkstra : NodeIndex → List (NodeIndex × Nat)
  dijkstra_exact : ∀ {root}, root < nodes.length →
    ShortestPath.SumsBelow (2 ^ 32) (Joins edges) root →
    ShortestPath.Exact (Joins edges) root (dijkstra root)

namespace UnGraph

/-- The node with this name: `node_indices().find(..)`. -/
def indexOf (g : UnGraph) (name : String) : Option NodeIndex := g.nodes.idxOf? name

/-- `w` is the weight of an edge between `u` and `v`. -/
def Arc (g : UnGraph) : NodeIndex → NodeIndex → Nat → Prop := Joins g.edges

end UnGraph

/-! ## Trees -/

structure SptTree where
  root : NodeIndex
  /-- The nodes that can be reached. -/
  nodes : List NodeIndex
  /-- From parent to child. -/
  edges : List GraphEdge
  deriving DecidableEq, Repr

namespace SptTree

def parents (t : SptTree) (v : NodeIndex) : List NodeIndex :=
  (t.edges.filter fun e => e.target = v).map GraphEdge.source

/-- `edges_directed(v, Incoming).next()`, which is the latest. -/
def parent (t : SptTree) (v : NodeIndex) : Option NodeIndex := (t.parents v).getLast?

/-- The walk of `install_downward_path`: parent and child of each edge from `v` up to the root. The
loop has no bound; `none` says that `fuel` edges did not do. -/
def climb (t : SptTree) : Nat → NodeIndex → Option (List (NodeIndex × NodeIndex))
  | fuel, v =>
    if v = t.root then some []
    else
      match fuel, t.parent v with
      | _, none => some []
      | 0, some _ => none
      | fuel + 1, some p => (t.climb fuel p).map ((p, v) :: ·)

end SptTree

/-- The neighbour of `node` that becomes its parent, with the weight of the edge. -/
def sptParent (distances : List (NodeIndex × Nat)) (g : UnGraph) (node dist : Nat) :
    Option (NodeIndex × Nat) :=
  (g.edgesAt node).find? fun edge =>
    edge.1 ≠ node && (distances.lookup edge.1).any fun neighborDist =>
      (neighborDist + edge.2) % 2 ^ 32 = dist

/-- `compute_spt`, given the distances of `dijkstra`. -/
def computeSpt (distances : List (NodeIndex × Nat)) (root : NodeIndex) (g : UnGraph) :
    Option SptTree :=
  if root < g.nodes.length then
    some
      { root
        nodes := distances.map Prod.fst
        edges := distances.filterMap fun (node, dist) =>
          if node = root then none
          else (sptParent distances g node dist).map fun p => ⟨p.1, node, p.2⟩ }
  else none

end Slim
