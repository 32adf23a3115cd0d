import Slim.RouteService.NodeLifecycle
import Slim.RouteService.Proof.Routes

/-!
# The last node of a domain leaves

If a node leaves and its domain has no other node, its links are removed or marked and so are the
routes that start or end at it; nothing else in the store changes, except that a node that
deregisters is removed (`Departs`). Links and routes of other nodes stay as they are, whether or not
they still lead anywhere: what is expanded again, if anything, is expanded for the same domains as
before.
-/

namespace Slim.RouteService

open Db Fiber Table

variable {E : Env} {x : String} {s : RouteService} {domain : String} (routes : List Route)

def Touches (x : String) (link : Link) : Prop := link.sourceNodeId = x ∨ link.destNodeId = x

instance (x : String) (link : Link) : Decidable (Touches x link) :=
  inferInstanceAs (Decidable (_ ∨ _))

/-! ## Links -/

/-- The links of the node are removed or marked. -/
structure Unlinks (x : String) (s s' : RouteService) : Prop where
  graphs : s'.segmentGraphs = s.segmentGraphs
  nodes : s'.db.nodes = s.db.nodes
  routes : s'.db.routes = s.db.routes
  ticks_le : s.ticks ≤ s'.ticks
  keep : ∀ l ∈ s.db.links, ¬ Touches x l → l ∈ s'.db.links
  source : ∀ l ∈ s'.db.links, l ∈ s.db.links ∧ (Touches x l → l.status = .Deleted) ∨
    l.status = .Deleted ∧
      ∃ l' ∈ s.db.links, Touches x l' ∧
        l = { l' with status := .Deleted, lastUpdated := l.lastUpdated }

/-- What the loop over the links of the node has done once `done` are through. -/
structure Dropped (x : String) (s : RouteService) (done : List Link) (s' : RouteService) :
    Prop where
  state : ∃ links ticks, s.ticks ≤ ticks ∧ s' = { s with db := { s.db with links }, ticks }
  keep : ∀ l ∈ s.db.links, l ∉ done → l ∈ s'.db.links
  source : ∀ l ∈ s'.db.links, l ∈ s.db.links ∧ l ∉ done ∨
    l.status = .Deleted ∧
      ∃ l' ∈ done, l = { l' with status := .Deleted, lastUpdated := l.lastUpdated }

theorem Dropped.step {s' : RouteService} {done : List Link} {link : Link} (h : Dropped x s done s')
    (hlink : link ∈ s.db.links) (hnot : link ∉ done) (hfields : link.missingFields = false) :
    Dropped x s (done ++ [link]) ((dropLink E x link).run s').2 := by
  obtain ⟨⟨links, ticks, hle, rfl⟩, hkeep, hsource⟩ := h
  have hmem : link ∈ links := hkeep link hlink hnot
  have hget : links.get? link.key = some link := Table.get?_of_mem hmem
  -- no other row has the key of the link
  have hkey : ∀ l, l ∈ s.db.links → l ≠ link → l.key ≠ link.key := fun l hl hne heq =>
    hne (s.db.links.eq_of_mem hl hlink heq)
  unfold dropLink
  split
  · simp only [run_bind, run_update, Database.deleteLink, hget]
    refine ⟨⟨_, _, Nat.le_succ_of_le hle, rfl⟩, ?_, ?_⟩
    · intro l hl hl'
      simp only [List.mem_append, List.mem_singleton, not_or] at hl'
      exact Table.mem_erase.mpr ⟨hkeep l hl hl'.1, hkey l hl hl'.2⟩
    · intro l hl
      obtain ⟨hl, hne⟩ := Table.mem_erase.mp hl
      rcases hsource l hl with ⟨hl, hl'⟩ | ⟨hstatus, l', hl', heq⟩
      · refine .inl ⟨hl, ?_⟩
        simp only [List.mem_append, List.mem_singleton, not_or]
        exact ⟨hl', fun heq => hne (heq ▸ rfl)⟩
      · exact .inr ⟨hstatus, l', List.mem_append_left _ hl', heq⟩
  · have hupdate : ({ link with status := .Deleted } : Link).missingFields = false := hfields
    have hget' : links.get? ({ link with status := .Deleted } : Link).key = some link := hget
    simp only [run_bind, run_update, Database.updateLink, hupdate, hget']
    refine ⟨⟨_, _, Nat.le_succ_of_le hle, rfl⟩, ?_, ?_⟩
    · intro l hl hl'
      simp only [List.mem_append, List.mem_singleton, not_or] at hl'
      exact Table.mem_put.mpr (.inr ⟨hkeep l hl hl'.1, hkey l hl hl'.2⟩)
    · intro l hl
      rcases Table.mem_put.mp hl with rfl | ⟨hl, hne⟩
      · exact .inr ⟨rfl, link, by simp, rfl⟩
      · rcases hsource l hl with ⟨hl, hl'⟩ | ⟨hstatus, l', hl', heq⟩
        · refine .inl ⟨hl, ?_⟩
          simp only [List.mem_append, List.mem_singleton, not_or]
          refine ⟨hl', ?_⟩
          rintro rfl
          exact hne rfl
        · exact .inr ⟨hstatus, l', List.mem_append_left _ hl', heq⟩

/-- The domains are those of the segments, or the segments are not rendered at all. -/
def SettledGraph (E : Env) (s : RouteService) : Prop :=
  E.apiManaged = true ∨ (nodeDomains s.db.listNodes).isPerm (graphDomains s.segmentGraphs) = true

theorem run_rebuildLinkGraph_settled {nodes : List Node}
    (h : E.apiManaged = true ∨ (nodeDomains nodes).isPerm (graphDomains s.segmentGraphs) = true) :
    ∃ lastFailedDomains,
      (rebuildLinkGraph E nodes).run s = (false, { s with lastFailedDomains }) := by
  unfold rebuildLinkGraph
  by_cases hapi : E.apiManaged = true
  · exact ⟨s.lastFailedDomains, by simp [hapi]⟩
  · have hperm : (nodeDomains nodes).isPerm (graphDomains s.segmentGraphs) = true :=
      h.resolve_left hapi
    simp only [hapi, Bool.false_eq_true, if_false, run_bind, run_read]
    by_cases hfailed : (s.lastFailedDomains.any fun last => last.isPerm (nodeDomains nodes)) = true
    · exact ⟨s.lastFailedDomains, by simp [hfailed]⟩
    · cases hbuild : E.buildGraph (nodeDomains nodes) with
      | none => exact ⟨_, by simp only [hfailed]; rfl⟩
      | some rebuilt =>
        refine ⟨none, ?_⟩
        simp [hfailed, hperm]

/-! ## Routes -/

/-- The ids of the routes that start or end at the node. -/
def RoutesOf (db : Database) (x : String) (k : RouteId) : Prop :=
  ∃ r ∈ db.routes, (r.sourceNodeId = x ∨ r.destNodeId = x) ∧ k = r.id

theorem run_removeRoutes (s : RouteService) :
    Drops (fun k => ∃ r ∈ routes, k = r.id) s
      ((forEach routes fun route => do
        let _ ← update E fun _ db => db.deleteRoute route.id
        pure ()).run s).2 :=
  run_forEach_drops (fun r s => run_deleteRoute_drops (E := E) r.id s) routes s

theorem run_markRoutes (s : RouteService) :
    Drops (fun k => ∃ r ∈ routes, k = r.id) s
      ((forEach routes fun route => do
        let _ ← update E fun now db => db.markRouteDeleted now route.id
        pure ()).run s).2 :=
  run_forEach_drops (fun r s => run_markRouteDeleted_drops r.id s) routes s

theorem run_markRoutesAndEnqueue (s : RouteService) :
    Drops (fun k => ∃ r ∈ routes, k = r.id) s
      ((forEach routes fun route => do
        match ← update E fun now db => db.markRouteDeleted now route.id with
        | .ok () => enqueue route.sourceNodeId
        | .error _ => pure ()).run s).2 := by
  refine run_forEach_drops (fun r s => ?_) routes s
  have hdrops := run_markRouteDeleted_drops (E := E) r.id s
  simp only [run_bind]
  cases hresult : ((update E fun now db => db.markRouteDeleted now r.id).run s).1 with
  | error e => exact hdrops
  | ok u =>
    obtain ⟨routes, queue, ticks, honly⟩ := hdrops.only
    exact { hdrops with only := ⟨routes, queue ++ [r.sourceNodeId],
      ticks, by rw [run_enqueue, honly]⟩ }

theorem run_cleanupRoutesForNode (s : RouteService) :
    Drops (RoutesOf s.db x) s ((cleanupRoutesForNode E x).run s).2 := by
  simp only [cleanupRoutesForNode, run_bind, run_query]
  refine (((run_removeRoutes _ s).trans (run_markRoutesAndEnqueue _ _)).trans
    (run_markRoutes _ _)).congr fun k => ?_
  constructor
  · rintro ((⟨r, hr, rfl⟩ | ⟨r, hr, rfl⟩) | ⟨r, hr, rfl⟩)
    · obtain ⟨hr, hsource⟩ := mem_filter_relist.mp hr
      exact ⟨r, hr, .inl (of_decide_eq_true hsource), rfl⟩
    · obtain ⟨hr, hends⟩ := mem_filter_relist.mp hr
      simp only [Bool.and_eq_true, decide_eq_true_eq] at hends
      exact ⟨r, hr, .inr hends.1, rfl⟩
    · obtain ⟨hr, hdest⟩ := List.mem_filter.mp hr
      exact ⟨r, (mem_filter_relist.mp hr).1, .inr (of_decide_eq_true hdest), rfl⟩
  · rintro ⟨r, hr, hend, rfl⟩
    rcases hend with hsource | hdest
    · exact .inl (.inl ⟨r, mem_filter_relist.mpr ⟨hr, by simpa using hsource⟩, rfl⟩)
    · by_cases hall : r.sourceNodeId = ALL_NODES_ID
      · exact .inr ⟨r, List.mem_filter.mpr
          ⟨mem_filter_relist.mpr ⟨hr, by simpa using hall⟩, by simpa using hdest⟩, rfl⟩
      · exact .inl (.inr ⟨r, mem_filter_relist.mpr ⟨hr, by simp [hdest, hall]⟩, rfl⟩)

/-! ## The whole departure -/

/-- What the departure of the last node of a domain does. -/
structure Departs (x : String) (s s' : RouteService) : Prop where
  graphs : s'.segmentGraphs = s.segmentGraphs
  nodes : s'.db.nodes = s.db.nodes ∨ s'.db.nodes = s.db.nodes.erase x
  ticks_le : s.ticks ≤ s'.ticks
  keepLinks : ∀ l ∈ s.db.links, ¬ Touches x l → l ∈ s'.db.links
  links : ∀ l ∈ s'.db.links, l ∈ s.db.links ∧ (Touches x l → l.status = .Deleted) ∨
    l.status = .Deleted ∧
      ∃ l' ∈ s.db.links, Touches x l' ∧
        l = { l' with status := .Deleted, lastUpdated := l.lastUpdated }
  keepRoutes : ∀ r ∈ s.db.routes, r.sourceNodeId ≠ x → r.destNodeId ≠ x → r ∈ s'.db.routes
  routes : ∀ r ∈ s'.db.routes, r ∈ s.db.routes ∧ r.sourceNodeId ≠ x ∧ r.destNodeId ≠ x ∨
    r.status = .Deleted ∧
      ∃ r' ∈ s.db.routes, r = { r' with status := .Deleted, lastUpdated := r.lastUpdated }

/-- The node is the only one of its domain, and its links say so. -/
structure LastInDomain (s : RouteService) (x domain : String) : Prop where
  only : ∀ n ∈ s.db.nodes, n.domainName = some domain → n.id = x
  sources : ∀ l ∈ s.db.links, l.sourceNodeId = x → l.sourceDomain = domain
  dests : ∀ l ∈ s.db.links, l.destNodeId = x → l.destDomain = domain
  fields : ∀ l ∈ s.db.links, l.missingFields = false

theorem run_findConnectedNodes_last {nodes : List Node}
    (h : ∀ n ∈ nodes, n.domainName = some domain → n.id = x) (s : RouteService) :
    (findConnectedNodesInDomain domain x nodes).run s = ([], s) := by
  unfold findConnectedNodesInDomain
  induction nodes with
  | nil => rfl
  | cons n nodes ih =>
    have hcond : n.id = x ∨ n.domainName ≠ some domain := by
      by_cases hdomain : n.domainName = some domain
      · exact .inl (h n List.mem_cons_self hdomain)
      · exact .inr hdomain
    rw [run_foldl_cons, if_pos hcond]
    exact ih fun m hm => h m (List.mem_cons_of_mem n hm)

def departingLinks (s : RouteService) (x : String) : List Link :=
  (s.db.getLinksForNode x).filter Link.live

theorem mem_departingLinks {l : Link} :
    l ∈ departingLinks s x ↔ l ∈ s.db.links ∧ l.live = true ∧ Touches x l := by
  simp only [departingLinks, Database.getLinksForNode, List.mem_filter, Database.mem_listAllLinks,
    Bool.or_eq_true, decide_eq_true_eq]
  tauto

theorem nodup_departingLinks (s : RouteService) (x : String) : (departingLinks s x).Nodup :=
  ((s.db.links.relist _).nodup.of_map.filter _).filter _

theorem run_handleLastNodeInDomain (h : LastInDomain s x domain) (hgraph : SettledGraph E s) :
    Unlinks x s ((handleLastNodeInDomain E (departingLinks s x) x).run s).2 := by
  let links := departingLinks s x
  have hlinks : ∀ l, l ∈ links ↔ l ∈ s.db.links ∧ l.live = true ∧ Touches x l :=
    fun l => mem_departingLinks
  have hnodup : links.Nodup := nodup_departingLinks s x
  have hdropped : Dropped x s links ((forEach links (dropLink E x)).run s).2 := by
    refine run_forEach_induction ?_ ?_
    · exact ⟨⟨s.db.links, s.ticks, le_rfl, rfl⟩, fun l hl _ => hl, fun l hl => .inl ⟨hl, by simp⟩⟩
    · intro pre l post s' heq hpre
      have hl : l ∈ s.db.links := ((hlinks l).mp (heq ▸ by simp)).1
      rw [heq] at hnodup
      refine hpre.step hl ?_ (h.fields l hl)
      intro hlpre
      exact (List.nodup_append.mp hnodup).2.2 l hlpre l (by simp) rfl
  obtain ⟨⟨table, ticks, hle, hstate⟩, hkeep, hsource⟩ := hdropped
  have hgraph' : E.apiManaged = true ∨ (nodeDomains
      (((forEach links (dropLink E x)).run s).2.db.listNodes)).isPerm
        (graphDomains ((forEach links (dropLink E x)).run s).2.segmentGraphs) = true := by
    rw [hstate]
    exact hgraph
  obtain ⟨lastFailedDomains, hrebuild⟩ := run_rebuildLinkGraph_settled hgraph'
  have hrun : ((handleLastNodeInDomain E links x).run s).2 =
      { ((forEach links (dropLink E x)).run s).2 with lastFailedDomains } := by
    simp [handleLastNodeInDomain, hrebuild]
  rw [hrun]
  refine ⟨by rw [hstate], by rw [hstate], by rw [hstate], by rw [hstate]; exact hle, ?_, ?_⟩
  · intro l hl hnot
    exact hkeep l hl fun hmem => hnot ((hlinks l).mp hmem).2.2
  · intro l hl
    rcases hsource l hl with ⟨hl, hnot⟩ | ⟨hstatus, l', hl', heq⟩
    · refine .inl ⟨hl, fun htouches => ?_⟩
      by_contra hstatus
      exact hnot ((hlinks l).mpr ⟨hl, by simpa [Link.live] using hstatus, htouches⟩)
    · obtain ⟨hl', -, htouches⟩ := (hlinks l').mp hl'
      exact .inr ⟨hstatus, l', hl', htouches, heq⟩

theorem run_handleLinksForDepartingNode (h : LastInDomain s x domain) (hgraph : SettledGraph E s) :
    Unlinks x s ((handleLinksForDepartingNode E x).run s).2 := by
  rw [handleLinksForDepartingNode, run_bind, run_query]
  change Unlinks x s ((if (departingLinks s x).isEmpty then _ else _ : Svc Unit).run s).2
  by_cases hempty : departingLinks s x = []
  · -- no link of the node is live
    have hrefl : Unlinks x s s := by
      refine ⟨rfl, rfl, rfl, le_rfl, fun l hl _ => hl, fun l hl => .inl ⟨hl, fun htouches => ?_⟩⟩
      by_contra hstatus
      have hmem := mem_departingLinks.mpr ⟨hl, by simpa [Link.live] using hstatus, htouches⟩
      rw [hempty] at hmem
      cases hmem
    rw [if_pos (by simp [hempty])]
    exact hrefl
  · have hdomain : departingDomain x (departingLinks s x) = domain := by
      obtain ⟨l, rest, hcons⟩ := List.exists_cons_of_ne_nil hempty
      obtain ⟨hl, -, htouches⟩ := mem_departingLinks.mp (hcons ▸ List.mem_cons_self)
      rw [hcons]
      show (if l.sourceNodeId = x then l.sourceDomain else l.destDomain) = domain
      split
      · next hsource => exact h.sources l hl hsource
      · next hsource => exact h.dests l hl (htouches.resolve_left hsource)
    have hfind : (findConnectedNodesInDomain domain x s.db.listNodes).run s = ([], s) :=
      run_findConnectedNodes_last (fun n hn => h.only n (s.db.mem_listNodes.mp hn)) s
    rw [if_neg (by simpa using hempty), run_bind, run_query, run_bind]
    rw [show departingDomain x ((s.db.getLinksForNode x).filter Link.live) = domain from hdomain,
      hfind]
    exact run_handleLastNodeInDomain h hgraph

theorem departs_of_unlinks {s' s'' : RouteService} (hunlinks : Unlinks x s s')
    (hdrops : Drops (RoutesOf s'.db x) s' s'') : Departs x s s'' where
  graphs := hdrops.only.segmentGraphs.trans hunlinks.graphs
  nodes := .inl (hdrops.only.nodes.trans hunlinks.nodes)
  ticks_le := hunlinks.ticks_le.trans hdrops.ticks_le
  keepLinks l hl hnot := by
    rw [hdrops.only.links]
    exact hunlinks.keep l hl hnot
  links l hl := by
    rw [hdrops.only.links] at hl
    exact hunlinks.source l hl
  keepRoutes r hr hsource hdest := by
    rw [← hunlinks.routes] at hr
    refine hdrops.keep r hr ?_
    rintro ⟨r', hr', hend, heq⟩
    rw [s'.db.routes.eq_of_mem hr hr' heq] at hsource hdest
    exact hend.elim hsource hdest
  routes r hr := by
    rcases hdrops.source r hr with ⟨hr, hgone⟩ | ⟨-, hstatus, r', hr', heq⟩
    · refine .inl ⟨hunlinks.routes ▸ hr, fun hsource => hgone ⟨r, hr, .inl hsource, rfl⟩,
        fun hdest => hgone ⟨r, hr, .inr hdest, rfl⟩⟩
    · exact .inr ⟨hstatus, r', hunlinks.routes ▸ hr', heq⟩

theorem deleteNode_snd (db : Database) (x : String) :
    ∃ nodes, (nodes = db.nodes ∨ nodes = db.nodes.erase x) ∧
      (db.deleteNode x).2 = { db with nodes } := by
  unfold Database.deleteNode
  cases db.nodes.get? x with
  | none => exact ⟨db.nodes, .inl rfl, rfl⟩
  | some n => exact ⟨db.nodes.erase x, .inr rfl, rfl⟩

theorem run_nodeMutex (s : RouteService) : ∃ m nodeLocks mutexes,
    (nodeMutex x).run s = (m, { s with nodeLocks, mutexes }) := by
  simp only [nodeMutex, run_call]
  cases hlookup : s.nodeLocks.lookup x with
  | none => exact ⟨_, _, _, rfl⟩
  | some m => exact ⟨m, s.nodeLocks, s.mutexes, rfl⟩

theorem run_nodeDisconnected (h : LastInDomain s x domain) (hgraph : SettledGraph E s) :
    Departs x s ((nodeDisconnected E x).run s).2 := by
  obtain ⟨m, nodeLocks, mutexes, hmutex⟩ := run_nodeMutex (x := x) s
  simp only [nodeDisconnected, locked, run_bind, hmutex]
  have h' : LastInDomain { s with nodeLocks, mutexes } x domain := { h with }
  have hunlinks := run_handleLinksForDepartingNode h' hgraph
  have hdeparts := departs_of_unlinks hunlinks (run_cleanupRoutesForNode (E := E) _)
  exact { hdeparts with }

theorem run_nodeDeregistered (h : LastInDomain s x domain) (hgraph : SettledGraph E s) :
    Departs x s ((nodeDeregistered E x).run s).2 := by
  obtain ⟨m, nodeLocks, mutexes, hmutex⟩ := run_nodeMutex (x := x) s
  simp only [nodeDeregistered, locked, run_bind, hmutex, run_lock, run_update]
  have h' : LastInDomain { s with nodeLocks, mutexes } x domain := { h with }
  have hunlinks := run_handleLinksForDepartingNode h' hgraph
  have hdeparts := departs_of_unlinks hunlinks (run_cleanupRoutesForNode (E := E) _)
  have hnodes := (run_cleanupRoutesForNode (E := E) (x := x) _).only.nodes.trans hunlinks.nodes
  obtain ⟨nodes, hor, hdelete⟩ := deleteNode_snd
    (((cleanupRoutesForNode E x).run ((handleLinksForDepartingNode E x).run
      { s with nodeLocks, mutexes }).2).2.db) x
  rw [hnodes] at hor
  rw [hdelete]
  exact { hdeparts with nodes := hor, ticks_le := Nat.le_succ_of_le hdeparts.ticks_le }

end Slim.RouteService
