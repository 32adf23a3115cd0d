import Slim.RouteService.Proof.Routes
import Slim.RouteService.Proof.Tree

/-!
# Gateways

The link over which one domain reaches another, and the node that stands at its end. Node ids are
keys of the store, so a node is in one domain only.
-/

namespace Slim.RouteService

open Db ShortestPath Forwarding

variable {table : Table Node.id} {nodes : List Node} {links : List Link}
  {a b d gateway linkId : String} {nodeId : String} {link : Link}

/-! ## Domains of nodes -/

theorem inDomain_iff : inDomain nodes d nodeId = true ↔
    ∃ n ∈ nodes, n.domainName = some d ∧ n.id = nodeId := by
  simp [inDomain]

theorem inDomain_listNodes {db : Database} : inDomain db.listNodes d nodeId = true ↔
    ∃ n ∈ db.nodes, n.domainName = some d ∧ n.id = nodeId := by
  simp [inDomain]

theorem domainOf_of_inDomain (h : inDomain table.rows d nodeId = true) :
    domainOf table.rows nodeId = d := by
  obtain ⟨n, hn, hdomain, rfl⟩ := inDomain_iff.mp h
  have hfind : (table.rows.find? fun x => x.id = n.id) = some n := Table.get?_of_mem hn
  simp [domainOf, hfind, hdomain]

theorem inDomain_unique (ha : inDomain table.rows a nodeId = true)
    (hb : inDomain table.rows b nodeId = true) : a = b :=
  (domainOf_of_inDomain ha).symm.trans (domainOf_of_inDomain hb)

/-! ## Links between domains -/

def Joins (nodes : List Node) (a b : String) (link : Link) : Prop :=
  inDomain nodes a link.sourceNodeId = true ∧ inDomain nodes b link.destNodeId = true ∨
    inDomain nodes b link.sourceNodeId = true ∧ inDomain nodes a link.destNodeId = true

instance (nodes : List Node) (a b : String) (link : Link) : Decidable (Joins nodes a b link) :=
  inferInstanceAs (Decidable (_ ∨ _))

theorem Joins.symm (h : Joins nodes a b link) : Joins nodes b a link := Or.symm h

def Usable (link : Link) : Prop := link.status = .Applied ∧ link.destNodeId ≠ ""

theorem gatewayOf_eq_some (h : gatewayOf a b nodes link = some (gateway, linkId)) :
    Usable link ∧ Joins nodes a b link ∧ link.linkId = linkId ∧ inDomain nodes a gateway = true ∧
      (gateway = link.sourceNodeId ∨ gateway = link.destNodeId) := by
  unfold gatewayOf at h
  split at h
  · cases h
  · next hstatus =>
    have husable : Usable link := by
      simp only [not_or, not_not, String.isEmpty_iff] at hstatus
      exact hstatus
    split at h
    · next hjoin =>
      rw [Bool.and_eq_true] at hjoin
      obtain ⟨rfl, rfl⟩ := Prod.mk.inj (Option.some.inj h)
      exact ⟨husable, .inl hjoin, rfl, hjoin.1, .inl rfl⟩
    · split at h
      · next hjoin =>
        rw [Bool.and_eq_true] at hjoin
        obtain ⟨rfl, rfl⟩ := Prod.mk.inj (Option.some.inj h)
        exact ⟨husable, .inr hjoin, rfl, hjoin.2, .inr rfl⟩
      · cases h

theorem gatewayOf_isSome (husable : Usable link) (hjoins : Joins nodes a b link) :
    (gatewayOf a b nodes link).isSome := by
  have hstatus : ¬ (link.status ≠ .Applied ∨ link.destNodeId.isEmpty) := by
    simpa [Usable] using husable
  rw [gatewayOf, if_neg hstatus]
  split
  · rfl
  · next hnot =>
    rcases hjoins with hjoin | hjoin
    · exact absurd (by rw [hjoin.1, hjoin.2]; rfl) hnot
    · rw [if_pos (by rw [hjoin.1, hjoin.2]; rfl)]
      rfl

theorem gatewayOf_comm (link : Link) :
    (gatewayOf a b nodes link).map Prod.snd = (gatewayOf b a nodes link).map Prod.snd := by
  unfold gatewayOf
  split
  · rfl
  · cases inDomain nodes a link.sourceNodeId <;> cases inDomain nodes b link.destNodeId <;>
      cases inDomain nodes b link.sourceNodeId <;> cases inDomain nodes a link.destNodeId <;> rfl

theorem map_findSome? {α β γ : Type*} (l : List α) (f : α → Option β) (g : β → γ) :
    (l.findSome? f).map g = l.findSome? fun x => (f x).map g := by
  induction l with
  | nil => rfl
  | cons x l ih =>
    rw [List.findSome?_cons, List.findSome?_cons]
    cases f x with
    | none => exact ih
    | some y => rfl

theorem findInterDomainLink_comm (a b : String) :
    (findInterDomainLinkFromCache a b nodes links).map Prod.snd =
      (findInterDomainLinkFromCache b a nodes links).map Prod.snd := by
  rw [findInterDomainLinkFromCache, findInterDomainLinkFromCache, map_findSome?, map_findSome?]
  exact congrArg (fun f => links.findSome? f) (funext gatewayOf_comm)

theorem findInterDomainLink_swap
    (h : findInterDomainLinkFromCache a b nodes links = some (gateway, linkId)) :
    ∃ gateway', findInterDomainLinkFromCache b a nodes links = some (gateway', linkId) := by
  have hcomm : (findInterDomainLinkFromCache a b nodes links).map Prod.snd = _ :=
    findInterDomainLink_comm a b
  rw [h] at hcomm
  obtain ⟨⟨gateway', _⟩, hfind, rfl⟩ := Option.map_eq_some_iff.mp hcomm.symm
  exact ⟨gateway', hfind⟩

theorem findInterDomainLink_eq_some
    (h : findInterDomainLinkFromCache a b nodes links = some (gateway, linkId)) :
    ∃ link ∈ links, Usable link ∧ Joins nodes a b link ∧ link.linkId = linkId ∧
      inDomain nodes a gateway = true ∧
      (gateway = link.sourceNodeId ∨ gateway = link.destNodeId) := by
  obtain ⟨link, hlink, hgateway⟩ := List.exists_of_findSome?_eq_some h
  exact ⟨link, hlink, gatewayOf_eq_some hgateway⟩

theorem exists_findInterDomainLink (hlink : link ∈ links) (husable : Usable link)
    (hjoins : Joins nodes a b link) :
    ∃ gateway linkId, findInterDomainLinkFromCache a b nodes links = some (gateway, linkId) := by
  have hsome : (findInterDomainLinkFromCache a b nodes links).isSome :=
    List.findSome?_isSome_iff.mpr ⟨link, hlink, gatewayOf_isSome husable hjoins⟩
  obtain ⟨⟨gateway, linkId⟩, h⟩ := Option.isSome_iff_exists.mp hsome
  exact ⟨gateway, linkId, h⟩

theorem Joins.unique {a' b' : String} (h : Joins table.rows a b link)
    (h' : Joins table.rows a' b' link) : a = a' ∧ b = b' ∨ a = b' ∧ b = a' := by
  rcases h with ⟨hs, ht⟩ | ⟨hs, ht⟩ <;> rcases h' with ⟨hs', ht'⟩ | ⟨hs', ht'⟩
  · exact .inl ⟨inDomain_unique hs hs', inDomain_unique ht ht'⟩
  · exact .inr ⟨inDomain_unique hs hs', inDomain_unique ht ht'⟩
  · exact .inr ⟨inDomain_unique ht ht', inDomain_unique hs hs'⟩
  · exact .inl ⟨inDomain_unique ht ht', inDomain_unique hs hs'⟩

/-- A gateway is a node, and told apart from the announcements. -/
theorem OverLink.wellNamed {names : RouteName → Prop} {name : RouteName} {dest : String} {r : Route}
    (h : OverLink nodes links name dest r) (hname : names name)
    (hids : ∀ n ∈ nodes, n.id ≠ ALL_NODES_ID) :
    WellNamed names r ∧ r.sourceNodeId ≠ ALL_NODES_ID := by
  obtain ⟨a, b, gateway, linkId, hfind, rfl⟩ := h
  obtain ⟨-, -, -, -, -, hgateway, -⟩ := findInterDomainLink_eq_some hfind
  obtain ⟨n, hn, -, rfl⟩ := inDomain_iff.mp hgateway
  exact ⟨⟨hname, iff_of_false (hids n hn) (Option.some_ne_none linkId)⟩, hids n hn⟩

/-! ## Edges of the tree -/

/-- The edge between a domain and its parent is one of the graph. -/
theorem edge_of_parentDomain {graph : UnGraph} (hplain : graph.Plain) {root c p : String}
    (h : parentDomain graph root c = some p) : ∃ e ∈ graph.edges,
      domainAt graph e.source = c ∧ domainAt graph e.target = p ∨
        domainAt graph e.source = p ∧ domainAt graph e.target = c := by
  obtain ⟨rootIdx, spt, ht⟩ := exists_tree_of_parentDomain h
  obtain ⟨i, j, hi, hij, rfl⟩ := (parentDomain_eq_some ht).mp h
  have hmem : j ∈ spt.parents i := List.mem_of_getLast? hij
  obtain ⟨e, hfilter, rfl⟩ := List.mem_map.mp hmem
  obtain ⟨he, htarget⟩ := List.mem_filter.mp hfilter
  obtain rfl : e.target = i := by simpa using htarget
  have harc := (segmentTree_isShortestPathTree hplain ht).arc e he
  obtain ⟨e', he', -, ⟨hs, ht⟩ | ⟨ht, hs⟩⟩ := harc
  · exact ⟨e', he', .inr ⟨by rw [hs], by rw [ht, domainAt_of_indexOf hi]⟩⟩
  · exact ⟨e', he', .inl ⟨by rw [hs, domainAt_of_indexOf hi], by rw [ht]⟩⟩

theorem mem_nodes_of_parentDomain {graph : UnGraph} (hplain : graph.Plain) {root c p : String}
    (h : parentDomain graph root c = some p) : c ∈ graph.nodes ∧ p ∈ graph.nodes := by
  obtain ⟨rootIdx, spt, ht⟩ := exists_tree_of_parentDomain h
  obtain ⟨i, j, hi, hij, rfl⟩ := (parentDomain_eq_some ht).mp h
  exact ⟨mem_nodes_of_indexOf hi,
    mem_nodes_of_indexOf (indexOf_domainAt hplain (parent_lt hplain ht hij))⟩

end Slim.RouteService
