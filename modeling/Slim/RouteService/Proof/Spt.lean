import Mathlib.Data.List.Perm.Subperm
import Slim.RouteService.Spt

/-!
# `computeSpt` returns a shortest-path tree

`Exact`: what is known about the distances that `computeSpt` is given. A node other than the root
has a neighbour whose distance is one edge weight less, and whatever neighbour passes the test is
one (`sptParent_isSome`, `sptParent_spec`): here the sums of the test must stay below `2 ^ 32`.
Weights are positive, so the distance decreases from a node to its parent; this bounds the walk up
the tree and keeps it from coming back (`ascends_of_isDist`).
-/

namespace Slim

open ShortestPath

variable {g : UnGraph} {root : NodeIndex} {distances : List (NodeIndex × Nat)} {t : SptTree}

/-! ## Undirected graphs -/

namespace UnGraph

variable {g : UnGraph} {u v : NodeIndex} {w : Nat}

theorem Arc.symm (h : g.Arc u v w) : g.Arc v u w := by
  obtain ⟨e, he, hw, hends⟩ := h
  exact ⟨e, he, hw, hends.symm.imp And.symm And.symm⟩

theorem Arc.pos (hpos : ∀ e ∈ g.edges, 0 < e.weight) (h : g.Arc u v w) : 0 < w := by
  obtain ⟨e, he, rfl, -⟩ := h
  exact hpos e he

theorem Arc.lt_length (h : g.Arc u v w) : v < g.nodes.length := by
  obtain ⟨e, he, -, ⟨-, rfl⟩ | ⟨-, rfl⟩⟩ := h
  · exact (g.inBounds e he).2
  · exact (g.inBounds e he).1

theorem lt_length_of_reachable (hu : u < g.nodes.length) (h : Reachable g.Arc u v) :
    v < g.nodes.length := by
  obtain ⟨n, hn⟩ := h
  induction hn with
  | nil => exact hu
  | snoc _ harc _ => exact harc.lt_length

/-- The sums of a distance and the weight of an edge stay below `2 ^ 32`. -/
def PathSumsFit (g : UnGraph) (root : NodeIndex) : Prop := SumsBelow (2 ^ 32) g.Arc root

end UnGraph

/-! ## Parents -/

section

variable {g : UnGraph} {root : NodeIndex} {distances : List (NodeIndex × Nat)} {v : NodeIndex}
  {d : Nat}

/-- The first neighbour that passes the test is one on a shortest walk. -/
theorem sptParent_spec (hexact : Exact g.Arc root distances) (hfit : g.PathSumsFit root)
    {p : NodeIndex} {w : Nat} (h : sptParent distances g v d = some (p, w)) :
    ∃ dp, IsDist g.Arc root p dp ∧ g.Arc p v w ∧ dp + w = d := by
  have hmem : (p, w) ∈ g.edgesAt v := List.mem_of_find?_eq_some h
  have harc : g.Arc p v w := UnGraph.Arc.symm (g.mem_edgesAt.mp hmem)
  have htest := List.find?_some h
  simp only [Bool.and_eq_true, Option.any_eq_true, decide_eq_true_eq] at htest
  obtain ⟨-, dp, hdp, hsum⟩ := htest
  have hdist : IsDist g.Arc root p dp := hexact.lookup_eq_some.mp hdp
  refine ⟨dp, hdist, harc, ?_⟩
  rwa [Nat.mod_eq_of_lt (hfit p v dp w hdist harc)] at hsum

/-- A node other than the root has a neighbour that passes the test. -/
theorem sptParent_isSome (hexact : Exact g.Arc root distances) (hfit : g.PathSumsFit root)
    (hpos : ∀ e ∈ g.edges, 0 < e.weight) (hv : IsDist g.Arc root v d) (hne : v ≠ root) :
    ∃ p w, sptParent distances g v d = some (p, w) := by
  obtain ⟨u, w, du, harc, hdu, hsum⟩ := hv.pred hne
  have hw : 0 < w := harc.pos hpos
  have hself : u ≠ v := by
    rintro rfl
    have heq := hdu.unique hv
    omega
  have hsome : (sptParent distances g v d).isSome := by
    refine List.find?_isSome.mpr ⟨(u, w), g.mem_edgesAt.mpr harc.symm, ?_⟩
    simp only [Bool.and_eq_true, Option.any_eq_true, decide_eq_true_eq]
    refine ⟨hself, du, hexact.lookup_eq_some.mpr hdu, ?_⟩
    rw [Nat.mod_eq_of_lt (hfit u v du w hdu harc), hsum]
  obtain ⟨⟨p, w⟩, h⟩ := Option.isSome_iff_exists.mp hsome
  exact ⟨p, w, h⟩

end

/-! ## The tree -/

namespace SptTree

variable {v : NodeIndex} {path : List NodeIndex} {n : Nat}

/-- Following parents from `v` goes through the nodes of `path` to the root, over edges of total
weight `n`. -/
inductive Ascends (t : SptTree) : NodeIndex → List NodeIndex → Nat → Prop
  | root : Ascends t t.root [t.root] 0
  | step {e : GraphEdge} {path : List NodeIndex} {n : Nat} : e ∈ t.edges →
      Ascends t e.source path n → Ascends t e.target (e.target :: path) (n + e.weight)

/-- What a shortest-path tree of `g` is. -/
structure IsShortestPathTree (g : UnGraph) (root : NodeIndex) (t : SptTree) : Prop where
  root_eq : t.root = root
  mem_nodes : ∀ v, v ∈ t.nodes ↔ Reachable g.Arc root v
  /-- A node that can be reached has one parent, unless it is the root. -/
  parents_eq : ∀ v, v ≠ root → Reachable g.Arc root v → ∃ p, t.parents v = [p]
  no_parents : ∀ v, v = root ∨ ¬ Reachable g.Arc root v → t.parents v = []
  /-- A parent is a neighbour. -/
  arc : ∀ e ∈ t.edges, g.Arc e.source e.target e.weight
  /-- Following parents reaches the root, over a shortest walk. -/
  ascends : ∀ v, Reachable g.Arc root v →
    ∃ path n, t.Ascends v path n ∧ path.Nodup ∧ IsDist g.Arc root v n
  /-- The walk of the route installer ends. -/
  climbs : ∀ v, Reachable g.Arc root v →
    ∃ pairs, ∀ fuel, t.nodes.length ≤ fuel → t.climb fuel v = some pairs

theorem Ascends.length_pos (h : t.Ascends v path n) : 0 < path.length := by
  cases h <;> simp

/-- A node with one parent each: the walk up the tree is over once its nodes are used up. -/
theorem Ascends.climb (hone : ∀ e ∈ t.edges, t.parents e.target = [e.source])
    (hroot : ∀ e ∈ t.edges, e.target ≠ t.root) (h : t.Ascends v path n) :
    ∃ pairs, ∀ fuel, path.length ≤ fuel + 1 → t.climb fuel v = some pairs := by
  induction h with
  | root =>
    refine ⟨[], fun fuel _ => ?_⟩
    unfold SptTree.climb
    simp
  | @step e path n he hpath ih =>
    obtain ⟨pairs, hpairs⟩ := ih
    have hparent : t.parent e.target = some e.source := by simp [SptTree.parent, hone e he]
    refine ⟨(e.source, e.target) :: pairs, fun fuel hfuel => ?_⟩
    have hlen : 0 < path.length := hpath.length_pos
    cases fuel with
    | zero => simp only [List.length_cons] at hfuel; omega
    | succ fuel =>
      simp only [List.length_cons] at hfuel
      unfold SptTree.climb
      rw [if_neg (hroot e he), hparent]
      simp [hpairs fuel (by omega)]

end SptTree

section

variable {g : UnGraph} {root : NodeIndex} {distances : List (NodeIndex × Nat)} {t : SptTree}

section
variable (h : computeSpt distances root g = some t)
include h

theorem computeSpt_eq_some :
    t.root = root ∧ t.nodes = distances.map Prod.fst ∧
      t.edges = distances.filterMap fun x => if x.1 = root then none
        else (sptParent distances g x.1 x.2).map fun p => ⟨p.1, x.1, p.2⟩ := by
  unfold computeSpt at h
  split at h
  · obtain rfl := Option.some.inj h
    exact ⟨rfl, rfl, rfl⟩
  · simp at h

theorem mem_edges_computeSpt {e : GraphEdge} :
    e ∈ t.edges ↔ ∃ d, (e.target, d) ∈ distances ∧ e.target ≠ root ∧
      sptParent distances g e.target d = some (e.source, e.weight) := by
  rw [(computeSpt_eq_some h).2.2, List.mem_filterMap]
  constructor
  · rintro ⟨⟨v, d⟩, hv, he⟩
    split at he
    · simp at he
    · next hne =>
      obtain ⟨⟨p, w⟩, hp, rfl⟩ := Option.map_eq_some_iff.mp he
      exact ⟨d, hv, hne, hp⟩
  · rintro ⟨d, hv, hne, hp⟩
    exact ⟨(e.target, d), hv, by rw [if_neg hne, hp]; rfl⟩

theorem parents_computeSpt
    (hnodup : (distances.map Prod.fst).Nodup) {v : NodeIndex} {d : Nat} (hv : (v, d) ∈ distances)
    (hne : v ≠ root) : t.parents v = ((sptParent distances g v d).map Prod.fst).toList := by
  rw [SptTree.parents, (computeSpt_eq_some h).2.2, List.filter_filterMap,
    filterMap_eq_toList hnodup hv]
  · rw [if_neg hne]
    cases sptParent distances g v d <;> simp
  · rintro ⟨x, dx⟩ - hx
    split
    · rfl
    · cases sptParent distances g x dx <;> simp [hx]

end

end

section
variable (ht : computeSpt distances root g = some t)
include ht

/-- Every node that can be reached ascends to the root over a shortest walk; the distance of a node
on the way is less than that of the nodes below it, so none comes twice. -/
theorem ascends_of_isDist
    (hexact : Exact g.Arc root distances) (hfit : g.PathSumsFit root)
    (hpos : ∀ e ∈ g.edges, 0 < e.weight) {v : NodeIndex} {d : Nat} (hv : IsDist g.Arc root v d) :
    ∃ path, t.Ascends v path d ∧ path.Nodup ∧ ∀ x ∈ path, ∃ dx, IsDist g.Arc root x dx ∧
      dx ≤ d := by
  induction d using Nat.strong_induction_on generalizing v with
  | _ d ih =>
    have htroot := (computeSpt_eq_some ht).1
    by_cases hne : v = root
    · subst hne
      obtain rfl := hv.unique isDist_root
      refine ⟨[v], ?_, by simp, ?_⟩
      · have hroot := SptTree.Ascends.root (t := t)
        rwa [htroot] at hroot
      · intro x hx
        rw [List.mem_singleton.mp hx]
        exact ⟨0, hv, le_refl 0⟩
    · obtain ⟨p, w, hp⟩ := sptParent_isSome hexact hfit hpos hv hne
      obtain ⟨dp, hdp, harc, hsum⟩ := sptParent_spec hexact hfit hp
      have hw : 0 < w := harc.pos hpos
      obtain ⟨path, hpath, hnodup, hdist⟩ := ih dp (by omega) hdp
      have he : (⟨p, v, w⟩ : GraphEdge) ∈ t.edges :=
        (mem_edges_computeSpt ht).mpr ⟨d, (hexact.mem_iff v d).mpr hv, hne, hp⟩
      refine ⟨v :: path, ?_, List.nodup_cons.mpr ⟨?_, hnodup⟩, ?_⟩
      · rw [← hsum]
        exact .step he hpath
      · intro hmem
        obtain ⟨dx, hdx, hle⟩ := hdist v hmem
        have heq := hdx.unique hv
        omega
      · intro x hx
        rcases List.mem_cons.mp hx with rfl | hx
        · exact ⟨d, hv, le_refl d⟩
        · obtain ⟨dx, hdx, hle⟩ := hdist x hx
          exact ⟨dx, hdx, by omega⟩

theorem mem_nodes_computeSpt
    (hexact : Exact g.Arc root distances) (v : NodeIndex) :
    v ∈ t.nodes ↔ Reachable g.Arc root v := by
  rw [(computeSpt_eq_some ht).2.1, List.mem_map]
  constructor
  · rintro ⟨⟨_, d⟩, hd, rfl⟩
    exact ((hexact.mem_iff _ d).mp hd).reachable
  · intro hv
    obtain ⟨d, hd⟩ := hv.exists_isDist
    exact ⟨(v, d), (hexact.mem_iff v d).mpr hd, rfl⟩

/-- What `compute_spt` builds from exact distances has the properties of a shortest-path tree. -/
theorem isShortestPathTree_of_computeSpt
    (hpos : ∀ e ∈ g.edges, 0 < e.weight) (hfit : g.PathSumsFit root)
    (hexact : Exact g.Arc root distances) : t.IsShortestPathTree g root := by
  obtain ⟨htroot, -, -⟩ := computeSpt_eq_some ht
  have hnodes := mem_nodes_computeSpt ht hexact
  -- an edge comes with the distances of its ends
  have hedge : ∀ e ∈ t.edges, e.target ≠ root ∧ t.parents e.target = [e.source] ∧
      g.Arc e.source e.target e.weight := by
    intro e he
    obtain ⟨d, hd, hne, hp⟩ := (mem_edges_computeSpt ht).mp he
    obtain ⟨dp, -, harc, -⟩ := sptParent_spec hexact hfit hp
    refine ⟨hne, ?_, harc⟩
    rw [parents_computeSpt ht hexact.nodup hd hne, hp]
    rfl
  refine ⟨htroot, hnodes, ?_, ?_, fun e he => (hedge e he).2.2, ?_, ?_⟩
  · intro v hne hv
    obtain ⟨d, hd⟩ := hv.exists_isDist
    obtain ⟨p, w, hp⟩ := sptParent_isSome hexact hfit hpos hd hne
    refine ⟨p, ?_⟩
    rw [parents_computeSpt ht hexact.nodup ((hexact.mem_iff v d).mpr hd) hne, hp]
    rfl
  · intro v hv
    refine List.map_eq_nil_iff.mpr (List.filter_eq_nil_iff.mpr fun e he => ?_)
    obtain ⟨d, hd, hne, -⟩ := (mem_edges_computeSpt ht).mp he
    simp only [decide_eq_true_eq]
    rintro rfl
    rcases hv with hv | hv
    · exact hne hv
    · exact hv ((hexact.mem_iff _ d).mp hd).reachable
  · intro v hv
    obtain ⟨d, hd⟩ := hv.exists_isDist
    obtain ⟨path, hpath, hnodup, -⟩ := ascends_of_isDist ht hexact hfit hpos hd
    exact ⟨path, d, hpath, hnodup, hd⟩
  · intro v hv
    obtain ⟨d, hd⟩ := hv.exists_isDist
    obtain ⟨path, hpath, hnodup, hdist⟩ := ascends_of_isDist ht hexact hfit hpos hd
    obtain ⟨pairs, hpairs⟩ := hpath.climb (fun e he => (hedge e he).2.1)
      (fun e he => htroot ▸ (hedge e he).1)
    refine ⟨pairs, fun fuel hfuel => hpairs fuel ?_⟩
    have hsub : path ⊆ t.nodes := by
      intro x hx
      obtain ⟨dx, hdx, -⟩ := hdist x hx
      exact (hnodes x).mpr hdx.reachable
    have hle := (hnodup.subperm hsub).length_le
    omega

end

theorem dist_parent_lt (ht : computeSpt distances root g = some t)
    (hpos : ∀ e ∈ g.edges, 0 < e.weight) (hfit : g.PathSumsFit root)
    (hexact : Exact g.Arc root distances) {v p : NodeIndex} (hp : t.parent v = some p) :
    ∃ d dp, IsDist g.Arc root v d ∧ IsDist g.Arc root p dp ∧ dp < d := by
  have hmem : p ∈ t.parents v := List.mem_of_getLast? hp
  obtain ⟨e, hfilter, rfl⟩ := List.mem_map.mp hmem
  obtain ⟨he, htarget⟩ := List.mem_filter.mp hfilter
  obtain rfl : e.target = v := by simpa using htarget
  obtain ⟨d, hd, -, hparent⟩ := (mem_edges_computeSpt ht).mp he
  obtain ⟨dp, hdp, harc, hsum⟩ := sptParent_spec hexact hfit hparent
  have hw := harc.pos hpos
  exact ⟨d, dp, (hexact.mem_iff _ d).mp hd, hdp, by omega⟩

/-! ## Unit weights -/

/-- A graph as the segments have it: no name twice, all weights one. `petgraph` has fewer than `2 ^
32` indices for nodes. -/
structure UnGraph.Plain (g : UnGraph) : Prop where
  nodup : g.nodes.Nodup
  unit : ∀ e ∈ g.edges, e.weight = 1
  small : g.nodes.length < 2 ^ 32

namespace UnGraph.Plain

variable {g : UnGraph} (h : g.Plain) {root v : NodeIndex} {d : Nat}

include h

theorem pos : ∀ e ∈ g.edges, 0 < e.weight := fun e he => by rw [h.unit e he]; decide

theorem weight_eq {u w : NodeIndex} {n : Nat} (harc : g.Arc u w n) : n = 1 := by
  obtain ⟨e, he, rfl, -⟩ := harc
  exact h.unit e he

section
variable (hroot : root < g.nodes.length)
include hroot

theorem exists_nearer (hv : IsDist g.Arc root v d) :
    ∃ l : List NodeIndex, l.Nodup ∧ l.length = d + 1 ∧
      ∀ x ∈ l, x < g.nodes.length ∧ ∃ dx ≤ d, IsDist g.Arc root x dx := by
  induction d generalizing v with
  | zero =>
    refine ⟨[v], by simp, rfl, fun x hx => ?_⟩
    obtain rfl := List.mem_singleton.mp hx
    exact ⟨lt_length_of_reachable hroot hv.reachable, 0, le_rfl, hv⟩
  | succ d ih =>
    have hne : v ≠ root := by
      rintro rfl
      exact absurd (hv.unique isDist_root) (Nat.succ_ne_zero d)
    obtain ⟨u, w, d', harc, hu, hsum⟩ := hv.pred hne
    obtain rfl : d' = d := by
      have hw := h.weight_eq harc
      omega
    obtain ⟨l, hnodup, hlen, hl⟩ := ih hu
    refine ⟨v :: l, List.nodup_cons.mpr ⟨fun hvl => ?_, hnodup⟩, by simp [hlen], fun x hx => ?_⟩
    · obtain ⟨-, dv, hle, hdv⟩ := hl v hvl
      have := hv.unique hdv
      omega
    · rcases List.mem_cons.mp hx with rfl | hx
      · exact ⟨lt_length_of_reachable hroot hv.reachable, d' + 1, le_rfl, hv⟩
      · obtain ⟨hlt, dx, hle, hdx⟩ := hl x hx
        exact ⟨hlt, dx, by omega, hdx⟩

theorem dist_lt (hv : IsDist g.Arc root v d) : d < g.nodes.length := by
  obtain ⟨l, hnodup, hlen, hl⟩ := h.exists_nearer hroot hv
  have hsub : l ⊆ List.range g.nodes.length := fun x hx => List.mem_range.mpr (hl x hx).1
  have hle := (hnodup.subperm hsub).length_le
  rw [List.length_range] at hle
  omega

theorem pathSumsFit : g.PathSumsFit root := by
  intro u v d w hu harc
  have hlt := h.dist_lt hroot hu
  have hw := h.weight_eq harc
  have hsmall := h.small
  omega

end

end UnGraph.Plain

/-! ## Graphs of given edges -/

section OfEdges
variable (nodes : List String) (edges : List GraphEdge)

/-- The edges at `u` as `petgraph` lists them: those that were added with `u` as their source come
first, and of each kind the latest. -/
def listedAt (u : NodeIndex) : List (NodeIndex × Nat) :=
  (edges.reverse.filterMap fun e => if e.source = u then some (e.target, e.weight) else none) ++
    edges.reverse.filterMap fun e =>
      if e.target = u ∧ e.source ≠ u then some (e.source, e.weight) else none

theorem listed_listedAt : Listed (listedAt edges) = Joins edges := by
  funext u v w
  simp only [Listed, listedAt, Joins, List.mem_append, List.mem_filterMap, List.mem_reverse,
    eq_iff_iff]
  constructor
  · rintro (⟨e, he, h⟩ | ⟨e, he, h⟩)
    · split at h
      · next hs => exact ⟨e, he, by simp_all⟩
      · cases h
    · split at h
      · next ht => exact ⟨e, he, by simp_all⟩
      · cases h
  · rintro ⟨e, he, rfl, ⟨rfl, rfl⟩ | ⟨rfl, rfl⟩⟩
    · exact .inl ⟨e, he, by simp⟩
    · by_cases hloop : e.source = e.target
      · exact .inl ⟨e, he, by simp [hloop]⟩
      · exact .inr ⟨e, he, by simp [hloop]⟩

variable (inBounds : ∀ e ∈ edges, e.source < nodes.length ∧ e.target < nodes.length)
  {nodes edges}
include inBounds

theorem distances_listedAt (hroot : root < nodes.length) :
    Exact (Joins edges) root (ShortestPath.distances (listedAt edges) nodes.length root) := by
  have hlt (v : NodeIndex) (hv : Reachable (Joins edges) root v) : v < nodes.length := by
    obtain ⟨n, hn⟩ := hv
    cases hn with
    | nil => exact hroot
    | snoc _ harc =>
      obtain ⟨e, he, -, ⟨-, rfl⟩ | ⟨-, rfl⟩⟩ := harc
      · exact (inBounds e he).2
      · exact (inBounds e he).1
  rw [← listed_listedAt] at hlt ⊢
  refine distances_exact fun l hnodup hreach => ?_
  have hsub : l ⊆ List.range nodes.length := fun v hv => List.mem_range.mpr (hlt v (hreach v hv))
  have hle := (hnodup.subperm hsub).length_le
  rw [List.length_range] at hle
  omega

end OfEdges

namespace UnGraph

def ofEdges (nodes : List String) (edges : List GraphEdge)
    (inBounds : ∀ e ∈ edges, e.source < nodes.length ∧ e.target < nodes.length) : UnGraph where
  nodes
  edges
  inBounds
  edgesAt := listedAt edges
  mem_edgesAt := by simp [← listed_listedAt, Listed]
  dijkstra := ShortestPath.distances (listedAt edges) nodes.length
  dijkstra_exact hroot _ := distances_listedAt inBounds hroot

/-- The sums stay below `2 ^ 32` if those of exact distances do. -/
theorem pathSumsFit_of_exact {g : UnGraph} {root : NodeIndex} {distances : List (NodeIndex × Nat)}
    (h : Exact g.Arc root distances)
    (hsums : ∀ x ∈ distances, ∀ y ∈ g.edgesAt x.1, x.2 + y.2 < 2 ^ 32) : g.PathSumsFit root :=
  fun u v d w hu harc => hsums (u, d) ((h.mem_iff u d).mpr hu) (v, w) (g.mem_edgesAt.mpr harc)

def sampleTriangle : UnGraph :=
  .ofEdges ["a", "b", "c"] [⟨0, 1, 1⟩, ⟨1, 2, 1⟩, ⟨0, 2, 10⟩] (by decide)

/-- A heavy edge behind a light one. All weights together stay below `2 ^ 32`. -/
def sampleHeavy : UnGraph :=
  .ofEdges ["r", "v", "x"] [⟨0, 1, 1⟩, ⟨1, 2, 2 ^ 31⟩] (by decide)

end UnGraph

/-- The long edge is not in the tree. -/
example : (computeSpt (UnGraph.sampleTriangle.dijkstra 0) 0 UnGraph.sampleTriangle).map
    SptTree.edges = some [⟨1, 2, 1⟩, ⟨0, 1, 1⟩] := by decide +kernel

end Slim
