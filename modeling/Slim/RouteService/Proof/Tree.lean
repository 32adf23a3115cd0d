import Slim.Lib.Forwarding
import Slim.RouteService.Proof.Spt
import Slim.RouteService.Routes

/-!
# The tree of a name, by domains

The routes of a name follow a tree over node indices. Here the tree is seen as a function from a
domain to its parent (`parentDomain`), and the routes that the expansions add are described by it:

* `mem_upwardRoutes`: a route to the parent, for each domain that has one and a link to it;
* `mem_downwardRoutes`: a route to each child above the announcer, or at it.
-/

namespace Slim.RouteService

open Db ShortestPath Forwarding Relation UnGraph

def parentDomain (graph : UnGraph) (root d : String) : Option String := do
  let (_, spt) ← segmentTree graph root
  let idx ← graph.indexOf d
  let parent ← spt.parent idx
  pure (domainAt graph parent)

def rankOf (graph : UnGraph) (root d : String) : Nat :=
  (do
    let rootIdx ← graph.indexOf root
    let idx ← graph.indexOf d
    (graph.dijkstra rootIdx).lookup idx).getD 0

def Connected (graph : UnGraph) (a b : String) : Prop :=
  ∃ i j, graph.indexOf a = some i ∧ graph.indexOf b = some j ∧ Reachable graph.Arc i j

def connectedB (graph : UnGraph) (a b : String) : Bool :=
  match graph.indexOf a, graph.indexOf b with
  | some i, some j => ((graph.dijkstra i).lookup j).isSome
  | _, _ => false

variable {graph : UnGraph} (hplain : graph.Plain) {root d p : String} {i j rootIdx : NodeIndex}
  {spt : SptTree}

/-! ## Names and indices -/

theorem lt_of_indexOf (h : graph.indexOf d = some i) : i < graph.nodes.length := by
  obtain ⟨hi, -⟩ := List.idxOf?_eq_some_iff.mp h
  exact hi

theorem domainAt_of_indexOf (h : graph.indexOf d = some i) : domainAt graph i = d := by
  obtain ⟨hi, heq, -⟩ := List.idxOf?_eq_some_iff.mp h
  rw [domainAt, List.getElem?_eq_getElem hi, heq]
  rfl

include hplain in
theorem indexOf_domainAt (hi : i < graph.nodes.length) :
    graph.indexOf (domainAt graph i) = some i := by
  rw [domainAt, List.getElem?_eq_getElem hi]
  refine List.idxOf?_eq_some_iff.mpr ⟨hi, rfl, fun j hj heq => ?_⟩
  have := hplain.nodup.getElem_inj_iff.mp heq
  omega

include hplain in
theorem exact_of_plain (hi : i < graph.nodes.length) : Exact graph.Arc i (graph.dijkstra i) :=
  graph.dijkstra_exact hi (hplain.pathSumsFit hi)

include hplain in
theorem connected_of_connectedB {a b : String} (h : connectedB graph a b = true) :
    Connected graph a b := by
  unfold connectedB at h
  split at h
  · next i j hi hj =>
    obtain ⟨n, hn⟩ := Option.isSome_iff_exists.mp h
    exact ⟨i, j, hi, hj,
      ((exact_of_plain hplain (lt_of_indexOf hi)).lookup_eq_some.mp hn).reachable⟩
  · cases h

theorem mem_nodes_of_indexOf (h : graph.indexOf d = some i) : d ∈ graph.nodes := by
  obtain ⟨hi, rfl, -⟩ := List.idxOf?_eq_some_iff.mp h
  exact List.getElem_mem hi

/-! ## The tree over indices -/

theorem segmentTree_eq_some (h : segmentTree graph root = some (rootIdx, spt)) :
    1 < graph.nodes.length ∧ graph.indexOf root = some rootIdx ∧
      computeSpt (graph.dijkstra rootIdx) rootIdx graph = some spt := by
  unfold segmentTree at h
  split at h
  · simp at h
  · next hlen =>
    simp only [bind, Option.bind_eq_some_iff] at h
    obtain ⟨idx, hidx, t, ht, rfl, rfl⟩ := h
    exact ⟨by omega, hidx, ht⟩

theorem exists_segmentTree (hlen : 1 < graph.nodes.length)
    (hroot : graph.indexOf root = some rootIdx) :
    ∃ spt, segmentTree graph root = some (rootIdx, spt) := by
  obtain ⟨spt, hspt⟩ : ∃ spt, computeSpt (graph.dijkstra rootIdx) rootIdx graph = some spt :=
    ⟨_, if_pos (lt_of_indexOf hroot)⟩
  refine ⟨spt, ?_⟩
  rw [segmentTree, if_neg (by omega), hroot]
  simp [hspt]

theorem climb_cases {fuel : Nat} {v : NodeIndex} {pairs : List (NodeIndex × NodeIndex)}
    (h : spt.climb fuel v = some pairs) :
    (v = spt.root ∨ spt.parent v = none) ∧ pairs = [] ∨
      ∃ p rest fuel', spt.parent v = some p ∧ fuel = fuel' + 1 ∧ spt.climb fuel' p = some rest ∧
        pairs = (p, v) :: rest := by
  unfold SptTree.climb at h
  split at h
  · next hv => exact .inl ⟨.inl hv, (Option.some.inj h).symm⟩
  · cases hp : spt.parent v with
    | none =>
      rw [hp] at h
      exact .inl ⟨.inr rfl, (Option.some.inj h).symm⟩
    | some p =>
      cases fuel with
      | zero => simp [hp] at h
      | succ fuel =>
        simp only [hp, Option.map_eq_some_iff] at h
        obtain ⟨rest, hrest, rfl⟩ := h
        exact .inr ⟨p, rest, fuel, rfl, rfl, hrest, rfl⟩

theorem no_edge_above {V : Type*} {parent : V → Option V} {v c p : V} (hv : parent v = none) :
    ¬ (Below parent v c ∧ parent c = some p) := by
  rintro ⟨hbelow, hc⟩
  rcases ReflTransGen.cases_head hbelow with rfl | ⟨w, hw, -⟩
  · rw [hv] at hc
    cases hc
  · rw [hv] at hw
    cases hw

section Tree

variable (ht : segmentTree graph root = some (rootIdx, spt))

include ht

theorem rootIdx_lt : rootIdx < graph.nodes.length := lt_of_indexOf (segmentTree_eq_some ht).2.1

include hplain

theorem segmentTree_isShortestPathTree : spt.IsShortestPathTree graph rootIdx :=
  isShortestPathTree_of_computeSpt (segmentTree_eq_some ht).2.2 hplain.pos
    (hplain.pathSumsFit (rootIdx_lt ht)) (exact_of_plain hplain (rootIdx_lt ht))

theorem parent_isSome_iff :
    (spt.parent i).isSome ↔ i ≠ rootIdx ∧ Reachable graph.Arc rootIdx i := by
  have hspt := segmentTree_isShortestPathTree hplain ht
  constructor
  · intro hsome
    have hne : spt.parents i ≠ [] := fun hnil => by simp [SptTree.parent, hnil] at hsome
    by_contra hnot
    refine hne (hspt.no_parents i ?_)
    by_cases hi : i = rootIdx
    · exact .inl hi
    · exact .inr fun hreach => hnot ⟨hi, hreach⟩
  · rintro ⟨hne, hreach⟩
    obtain ⟨p, hp⟩ := hspt.parents_eq i hne hreach
    simp [SptTree.parent, hp]

theorem parent_eq_none {v : NodeIndex} (hv : v = spt.root ∨ spt.parent v = none) :
    spt.parent v = none := by
  rcases hv with rfl | hv
  · rw [(segmentTree_isShortestPathTree hplain ht).root_eq, ← Option.not_isSome_iff_eq_none,
      parent_isSome_iff hplain ht]
    exact fun h => h.1 rfl
  · exact hv

theorem parent_lt (hp : spt.parent i = some j) : j < graph.nodes.length := by
  obtain ⟨d, dp, -, hdp, -⟩ := dist_parent_lt (segmentTree_eq_some ht).2.2 hplain.pos
    (hplain.pathSumsFit (rootIdx_lt ht)) (exact_of_plain hplain (rootIdx_lt ht)) hp
  exact lt_length_of_reachable (rootIdx_lt ht) hdp.reachable

theorem lt_of_parent (hp : spt.parent i = some j) : i < graph.nodes.length := by
  obtain ⟨-, hreach⟩ := (parent_isSome_iff hplain ht).mp (by rw [hp]; rfl)
  exact lt_length_of_reachable (rootIdx_lt ht) hreach

/-- The pairs of the walk of the installer are the edges above its start. -/
theorem mem_climb {fuel : Nat} {v : NodeIndex} {pairs : List (NodeIndex × NodeIndex)}
    (h : spt.climb fuel v = some pairs) :
    (j, i) ∈ pairs ↔ Below spt.parent v i ∧ spt.parent i = some j := by
  induction fuel generalizing v pairs with
  | zero =>
    rcases climb_cases h with ⟨hv, rfl⟩ | ⟨_, _, _, -, hfuel, -⟩
    · exact iff_of_false (by simp) (no_edge_above (parent_eq_none hplain ht hv))
    · cases hfuel
  | succ fuel ih =>
    rcases climb_cases h with ⟨hv, rfl⟩ | ⟨p, rest, fuel', hp, hfuel, hrest, rfl⟩
    · exact iff_of_false (by simp) (no_edge_above (parent_eq_none hplain ht hv))
    · obtain rfl := Nat.succ.inj hfuel
      have hmem := ih hrest
      rw [List.mem_cons, hmem, Prod.mk.injEq]
      constructor
      · rintro (⟨rfl, rfl⟩ | ⟨hbelow, hi⟩)
        · exact ⟨ReflTransGen.refl, hp⟩
        · exact ⟨ReflTransGen.head hp hbelow, hi⟩
      · rintro ⟨hbelow, hi⟩
        rcases ReflTransGen.cases_head hbelow with rfl | ⟨w, hw, hwi⟩
        · exact .inl ⟨Option.some.inj (hi.symm.trans hp), rfl⟩
        · obtain rfl := Option.some.inj (hp.symm.trans hw)
          exact .inr ⟨hwi, hi⟩

/-! ## The tree over domains -/

omit hplain in
theorem parentDomain_eq_some : parentDomain graph root d = some p ↔
    ∃ i j, graph.indexOf d = some i ∧ spt.parent i = some j ∧ domainAt graph j = p := by
  simp [parentDomain, ht, Option.bind_eq_some_iff]

theorem below_parentDomain_iff {c : String} (hd : graph.indexOf d = some i) :
    Below (parentDomain graph root) d c ↔ ∃ j, graph.indexOf c = some j ∧ Below spt.parent i j := by
  constructor
  · intro h
    induction h with
    | refl => exact ⟨i, hd, ReflTransGen.refl⟩
    | tail _ hstep ih =>
      obtain ⟨j, hj, hbelow⟩ := ih
      obtain ⟨j', k, hj', hk, rfl⟩ := (parentDomain_eq_some ht).mp hstep
      obtain rfl := Option.some.inj (hj.symm.trans hj')
      exact ⟨k, indexOf_domainAt hplain (parent_lt hplain ht hk), hbelow.tail hk⟩
  · rintro ⟨j, hj, hbelow⟩
    induction hbelow generalizing c with
    | refl =>
      obtain rfl : d = c := by rw [← domainAt_of_indexOf hd, domainAt_of_indexOf hj]
      exact ReflTransGen.refl
    | @tail j k hbelow hstep ih =>
      have hj' := indexOf_domainAt hplain (lt_of_parent hplain ht hstep)
      refine (ih hj').tail ((parentDomain_eq_some ht).mpr ⟨j, k, hj', hstep, ?_⟩)
      exact domainAt_of_indexOf hj

end Tree

theorem exists_tree_of_parentDomain (h : parentDomain graph root d = some p) :
    ∃ rootIdx spt, segmentTree graph root = some (rootIdx, spt) := by
  cases ht : segmentTree graph root with
  | none => simp [parentDomain, ht] at h
  | some t => exact ⟨t.1, t.2, rfl⟩

include hplain

theorem rankOf_lt (h : parentDomain graph root d = some p) :
    rankOf graph root p < rankOf graph root d := by
  obtain ⟨rootIdx, spt, ht⟩ := exists_tree_of_parentDomain h
  obtain ⟨i, j, hi, hij, rfl⟩ := (parentDomain_eq_some ht).mp h
  obtain ⟨-, hroot, hspt⟩ := segmentTree_eq_some ht
  have hexact := exact_of_plain hplain (rootIdx_lt ht)
  obtain ⟨n, m, hn, hm, hlt⟩ :=
    dist_parent_lt hspt hplain.pos (hplain.pathSumsFit (rootIdx_lt ht)) hexact hij
  have hj := indexOf_domainAt hplain (parent_lt hplain ht hij)
  simp [rankOf, hroot, hi, hj, hexact.lookup_eq_some.mpr hn, hexact.lookup_eq_some.mpr hm, hlt]

theorem rankOf_le : rankOf graph root d ≤ graph.nodes.length := by
  cases hroot : graph.indexOf root with
  | none => simp [rankOf, hroot]
  | some rootIdx =>
    cases hd : graph.indexOf d with
    | none => simp [rankOf, hd]
    | some i =>
      have hlt := lt_of_indexOf hroot
      cases hlookup : (graph.dijkstra rootIdx).lookup i with
      | none => simp [rankOf, hroot, hd, hlookup]
      | some n =>
        have hdist := (exact_of_plain hplain hlt).lookup_eq_some.mp hlookup
        simpa [rankOf, hroot, hd, hlookup] using (hplain.dist_lt hlt hdist).le

theorem parentDomain_isSome_iff :
    (parentDomain graph root d).isSome ↔ d ≠ root ∧ Connected graph root d := by
  constructor
  · intro h
    obtain ⟨p, hp⟩ := Option.isSome_iff_exists.mp h
    obtain ⟨rootIdx, spt, ht⟩ := exists_tree_of_parentDomain hp
    obtain ⟨i, j, hi, hij, -⟩ := (parentDomain_eq_some ht).mp hp
    obtain ⟨hne, hreach⟩ := (parent_isSome_iff hplain ht).mp (by rw [hij]; rfl)
    have hroot := (segmentTree_eq_some ht).2.1
    refine ⟨?_, rootIdx, i, hroot, hi, hreach⟩
    rintro rfl
    exact hne (Option.some.inj (hi.symm.trans hroot))
  · rintro ⟨hne, rootIdx, i, hroot, hi, hreach⟩
    have hne' : i ≠ rootIdx := by
      rintro rfl
      exact hne (by rw [← domainAt_of_indexOf hi, ← domainAt_of_indexOf hroot])
    -- two domains, so there is a tree
    have hlen : 1 < graph.nodes.length := by
      by_contra hlen
      have hzero : ∀ {k : NodeIndex}, k < graph.nodes.length → k = 0 := fun hk =>
        Nat.lt_one_iff.mp (hk.trans_le (not_lt.mp hlen))
      exact hne' ((hzero (lt_of_indexOf hi)).trans (hzero (lt_of_indexOf hroot)).symm)
    obtain ⟨spt, ht⟩ := exists_segmentTree hlen hroot
    obtain ⟨j, hj⟩ := Option.isSome_iff_exists.mp
      ((parent_isSome_iff hplain ht).mpr ⟨hne', hreach⟩)
    exact Option.isSome_iff_exists.mpr ⟨_, (parentDomain_eq_some ht).mpr ⟨i, j, hi, hj, rfl⟩⟩

/-! ## The routes of the expansions -/

variable {nodes : List Node} {links : List Link} {destNodeId : String} {name : RouteName}
  {r : Route}

/-- Each domain with a parent and a link to it gets a route over this link. -/
theorem mem_upwardRoutes : r ∈ upwardRoutes nodes links destNodeId name graph ↔
    ∃ d p gateway linkId, parentDomain graph (domainOf nodes destNodeId) d = some p ∧
      findInterDomainLinkFromCache d p nodes links = some (gateway, linkId) ∧
      buildRouteForGateway gateway d destNodeId (domainOf nodes destNodeId) linkId name = r := by
  unfold upwardRoutes
  cases ht : segmentTree graph (domainOf nodes destNodeId) with
  | none => simp [parentDomain, ht]
  | some t =>
    simp only [List.mem_filterMap]
    constructor
    · rintro ⟨i, -, h⟩
      simp only [upwardRoute, bind, pure] at h
      split at h
      · cases h
      · simp only [Option.bind_eq_some_iff, Option.some.injEq] at h
        obtain ⟨j, hj, ⟨gateway, linkId⟩, hfind, rfl⟩ := h
        have hi := indexOf_domainAt hplain (lt_of_parent hplain ht hj)
        exact ⟨_, _, gateway, linkId, (parentDomain_eq_some ht).mpr ⟨i, j, hi, hj, rfl⟩, hfind, rfl⟩
    · rintro ⟨d, p, gateway, linkId, hp, hfind, rfl⟩
      obtain ⟨i, j, hi, hj, rfl⟩ := (parentDomain_eq_some ht).mp hp
      obtain ⟨hne, hreach⟩ := (parent_isSome_iff hplain ht).mp (by rw [hj]; rfl)
      refine ⟨i, ((segmentTree_isShortestPathTree hplain ht).mem_nodes i).mpr hreach, ?_⟩
      simp [upwardRoute, if_neg hne, hj, domainAt_of_indexOf hi, hfind]

variable {rootNodeId announcer : String}

/-- Each parent of a domain above the announcer, or of its own, gets a route to it. -/
theorem mem_downwardRoutes : r ∈ downwardRoutes nodes links rootNodeId announcer name graph ↔
    ∃ c p gateway linkId,
      Below (parentDomain graph (domainOf nodes rootNodeId)) (domainOf nodes announcer) c ∧
      parentDomain graph (domainOf nodes rootNodeId) c = some p ∧
      findInterDomainLinkFromCache p c nodes links = some (gateway, linkId) ∧
      buildRouteForGateway gateway p announcer (domainOf nodes announcer) linkId name = r := by
  unfold downwardRoutes
  cases ht : segmentTree graph (domainOf nodes rootNodeId) with
  | none => simp [parentDomain, ht]
  | some t =>
    obtain ⟨rootIdx, spt⟩ := t
    cases hann : graph.indexOf (domainOf nodes announcer) with
    | none =>
      have hnone : parentDomain graph (domainOf nodes rootNodeId) (domainOf nodes announcer) =
          none := by
        simp [parentDomain, hann]
      refine iff_of_false (by simp) ?_
      rintro ⟨c, p, -, -, hbelow, hp, -, -⟩
      exact no_edge_above hnone ⟨hbelow, hp⟩
    | some ann =>
      simp only
      split
      · next hmem =>
        have hspt := segmentTree_isShortestPathTree hplain ht
        obtain ⟨pairs, hpairs⟩ := hspt.climbs ann ((hspt.mem_nodes ann).mp hmem)
        have hclimb := hpairs spt.nodes.length le_rfl
        simp only [hclimb, List.mem_filterMap, Prod.exists]
        constructor
        · rintro ⟨j, i, hji, h⟩
          obtain ⟨hbelow, hj⟩ := (mem_climb hplain ht hclimb).mp hji
          simp only [downwardRoute, bind, pure, Option.bind_eq_some_iff, Option.some.injEq] at h
          obtain ⟨⟨gateway, linkId⟩, hfind, rfl⟩ := h
          have hi := indexOf_domainAt hplain (lt_of_parent hplain ht hj)
          exact ⟨_, _, gateway, linkId, (below_parentDomain_iff hplain ht hann).mpr ⟨i, hi, hbelow⟩,
            (parentDomain_eq_some ht).mpr ⟨i, j, hi, hj, rfl⟩, hfind, rfl⟩
        · rintro ⟨c, p, gateway, linkId, hbelow, hp, hfind, rfl⟩
          obtain ⟨i, j, hi, hj, rfl⟩ := (parentDomain_eq_some ht).mp hp
          obtain ⟨i', hi', hbelow⟩ := (below_parentDomain_iff hplain ht hann).mp hbelow
          obtain rfl := Option.some.inj (hi.symm.trans hi')
          refine ⟨j, i, (mem_climb hplain ht hclimb).mpr ⟨hbelow, hj⟩, ?_⟩
          simp [downwardRoute, domainAt_of_indexOf hi, hfind]
      · next hmem =>
        have hnone : spt.parent ann = none := by
          rw [← Option.not_isSome_iff_eq_none, parent_isSome_iff hplain ht]
          exact fun h => hmem (((segmentTree_isShortestPathTree hplain ht).mem_nodes ann).mpr h.2)
        have hnone' :
            parentDomain graph (domainOf nodes rootNodeId) (domainOf nodes announcer) = none := by
          simp [parentDomain, ht, hann, hnone]
        refine iff_of_false (by simp) ?_
        rintro ⟨c, p, -, -, hbelow, hp, -, -⟩
        exact no_edge_above hnone' ⟨hbelow, hp⟩

end Slim.RouteService
