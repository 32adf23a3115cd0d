import Slim.RouteService.Proof.Reachability
import Slim.RouteService.Proof.Forwarding

/-!
# Announcements, withdrawals and departures

The runs of `routes_reach`: nodes announce and withdraw names, deregister and disconnect. Each kind
of step has a lemma that it keeps `Holds`, the invariant for the names in use. Withdrawals and
departures take away (`NameOk.shrink`); an announcement gives the name its tree if the node is the
first, and one path if it is not.
-/

namespace Slim.RouteService

open Db ShortestPath Forwarding

variable {x : String} {name : RouteName} {nodeId domain : String}

/-! ## Runs -/

inductive Action where
  | announce (nodeId : String) (name : RouteName)
  | withdraw (nodeId : String) (name : RouteName)
  | deregister (nodeId : String)
  | disconnect (nodeId : String)
deriving DecidableEq

def act (E : Env) (s : RouteService) : Action → RouteService
  | .announce nodeId name => ((addRoute E ALL_NODES_ID nodeId ⟨some name, none⟩).run s).2
  | .withdraw nodeId name => ((deleteRoute E ALL_NODES_ID nodeId ⟨some name, none⟩).run s).2
  | .deregister nodeId => ((nodeDeregistered E nodeId).run s).2
  | .disconnect nodeId => ((nodeDisconnected E nodeId).run s).2

/-- The node that the tree of the name is or will be for. -/
def rootFor (db : Database) (name : RouteName) (nodeId : String) : String :=
  (db.getDestinationNodeIdForName name).getD nodeId

/-- The announcer is in a domain `domain` such that it, and every domain with links, is linked to
its parent in the tree of the name, and whatever can reach it can reach the root. -/
structure AnnounceOk (s : RouteService) (nodeId : String) (name : RouteName) (domain : String) :
    Prop where
  inDomain : inDomain s.db.listNodes domain nodeId = true
  attached : ∀ seg ∈ s.segmentGraphs, ∀ d p,
    parentDomain seg.2 (domainOf s.db.listNodes (rootFor s.db name nodeId)) d = some p →
      d = domain ∨ HasLink s seg.2 d → LiveJoin s d p
  covered : ∀ seg ∈ s.segmentGraphs, ∀ d, Connects s seg.2 d domain → d ≠ domain →
    d = domainOf s.db.listNodes (rootFor s.db name nodeId) ∨ ∃ seg' ∈ s.segmentGraphs,
      Connects s seg'.2 d (domainOf s.db.listNodes (rootFor s.db name nodeId))

/-- The first announcer of a name stays until it is the last, and so do domains that others are
linked through; the segments are those of the nodes. -/
structure DepartOk (E : Env) (names : RouteName → Prop) (s : RouteService)
    (nodeId domain : String) : Prop where
  settled : SettledGraph E s
  inDomain : inDomain s.db.listNodes domain nodeId = true
  first : ∀ name, names name → s.db.getDestinationNodeIdForName name = some nodeId →
    ∀ a, Announces s.db name a → a = nodeId
  inner : ∀ name, names name → ∀ root, s.db.getDestinationNodeIdForName name = some root →
    root ≠ nodeId → ∀ seg ∈ s.segmentGraphs, ∀ d,
      parentDomain seg.2 (domainOf s.db.listNodes root) d = some domain → ¬ LiveJoin s d domain

def StepOk (E : Env) (names : RouteName → Prop) (s : RouteService) : Action → Prop
  | .announce nodeId name => names name ∧ ∃ domain, AnnounceOk s nodeId name domain
  | .withdraw nodeId name => s.db.getDestinationNodeIdForName name = some nodeId →
      ∀ a, Announces s.db name a → a = nodeId
  | .deregister nodeId => ∃ domain, DepartOk E names s nodeId domain
  | .disconnect nodeId => ∃ domain, DepartOk E names s nodeId domain

structure Holds (E : Env) (names : RouteName → Prop) (s : RouteService) : Prop where
  network : Network s
  rows : RowsOk names s.db
  timed : Timed E s
  name : ∀ name, names name → NameOk s name

variable {E : Env} {names : RouteName → Prop} {s s' : RouteService}

/-! ## The network -/

theorem Network.of_only (h : Network s) (honly : OnlyRoutes s s') : Network s' := by
  obtain ⟨routes, queue, ticks, rfl⟩ := honly
  exact { h with }

theorem Departs.mem_nodes (h : Departs x s s') {n : Node} (hn : n ∈ s'.db.nodes) :
    n ∈ s.db.nodes := by
  rcases h.nodes with heq | heq
  · rwa [heq] at hn
  · rw [heq] at hn
    exact (Table.mem_erase.mp hn).1

theorem Departs.inDomain_of (h : Departs x s s') (d n : String)
    (hd : inDomain s'.db.listNodes d n = true) : inDomain s.db.listNodes d n = true := by
  obtain ⟨m, hm, hdomain, hid⟩ := inDomain_listNodes.mp hd
  exact inDomain_listNodes.mpr ⟨m, h.mem_nodes hm, hdomain, hid⟩

theorem Departs.link_origin (h : Departs x s s') {l : Link} (hl : l ∈ s'.db.links) :
    ∃ o ∈ s.db.links, l.key = o.key ∧ l.sourceNodeId = o.sourceNodeId ∧
      l.destNodeId = o.destNodeId ∧
      l.linkId = o.linkId ∧ l.sourceDomain = o.sourceDomain ∧ l.destDomain = o.destDomain ∧
      l.missingFields = o.missingFields ∧ (l.status = o.status ∨ l.status = .Deleted) := by
  rcases h.links l hl with ⟨hl, -⟩ | ⟨hstatus, o, ho, -, heq⟩
  · exact ⟨l, hl, rfl, rfl, rfl, rfl, rfl, rfl, rfl, .inl rfl⟩
  · rw [heq]
    exact ⟨o, ho, rfl, rfl, rfl, rfl, rfl, rfl, rfl, .inr rfl⟩

theorem Network.of_departs (h : Network s) (hx : Departs x s s') : Network s' where
  plain := by rw [hx.graphs]; exact h.plain
  oneNode n hn n' hn' := h.oneNode n (hx.mem_nodes hn) n' (hx.mem_nodes hn')
  nodeIds n hn := h.nodeIds n (hx.mem_nodes hn)
  status l hl := by
    obtain ⟨o, ho, -, -, -, -, -, -, -, hstatus⟩ := hx.link_origin hl
    rcases hstatus with hstatus | hstatus
    · rw [hstatus]
      exact h.status o ho
    · exact .inr hstatus
  linkIds l hl l' hl' heq := by
    obtain ⟨o, ho, hkey, -, -, hid, -⟩ := hx.link_origin hl
    obtain ⟨o', ho', hkey', -, -, hid', -⟩ := hx.link_origin hl'
    have hoo : o = o' := h.linkIds o ho o' ho' (hid.symm.trans (heq.trans hid'))
    exact s'.db.links.eq_of_mem hl hl' (hkey.trans ((congrArg Link.key hoo).trans hkey'.symm))
  fields l hl := by
    obtain ⟨o, ho, -, -, -, -, -, -, hfields, -⟩ := hx.link_origin hl
    rw [hfields]
    exact h.fields o ho
  sourceDomain l hl d hd := by
    obtain ⟨o, ho, -, hsource, -, -, hdomain, -⟩ := hx.link_origin hl
    rw [hdomain]
    exact h.sourceDomain o ho d (hsource ▸ hx.inDomain_of d _ hd)
  destDomain l hl d hd := by
    obtain ⟨o, ho, -, -, hdest, -, -, hdomain, -⟩ := hx.link_origin hl
    rw [hdomain]
    exact h.destDomain o ho d (hdest ▸ hx.inDomain_of d _ hd)

/-! ## Withdrawals -/

theorem Drops.timed {gone : RouteId → Prop} (h : Drops gone s s') (hs : Timed E s) :
    Timed E s' := by
  intro x hx
  rcases h.source x hx with ⟨hx, -⟩ | ⟨-, -, r, hr, heq⟩
  · obtain ⟨t, ht, hcreated⟩ := hs x hx
    exact ⟨t, ht.trans_le h.ticks_le, hcreated⟩
  · obtain ⟨t, ht, hcreated⟩ := hs r hr
    exact ⟨t, ht.trans_le h.ticks_le, by rw [heq]; exact hcreated⟩

/-- The routes of the name to the node go; other names are not concerned. -/
theorem Drops.shrinks (h : Drops (NamedTo s.db nodeId name) s s') (name' : RouteName) :
    Shrinks (fun n => n = nodeId ∧ name' = name) (fun _ => False) name' s s' := by
  have hnodes := h.only.listNodes
  refine ⟨h.only.segmentGraphs, fun d n hd => hnodes ▸ hd, fun d n _ hd => hnodes ▸ hd,
    fun l hl _ => ⟨h.only.links ▸ hl, id, id⟩, fun l hl _ _ => h.only.links ▸ hl, ?_, ?_⟩
  · intro r hr hlive hname
    rcases h.source r hr with ⟨hr, hgone⟩ | ⟨-, hstatus, -⟩
    · exact ⟨hr, fun hnow => hgone ⟨r, hr, hnow.1, hname.trans hnow.2, rfl⟩, id⟩
    · exact absurd hstatus hlive
  · intro r hr _ hname hgone _
    refine h.keep r hr ?_
    rintro ⟨r', hr', hdest, hname', hid⟩
    obtain rfl := s.db.routes.eq_of_mem hr hr' hid
    exact hgone ⟨hdest, hname.symm.trans hname'⟩

theorem Holds.withdraw (h : Holds E names s) (hok : StepOk E names s (.withdraw nodeId name)) :
    Holds E names (act E s (.withdraw nodeId name)) := by
  by_cases hempty : nodeId = ""
  · have hsame : act E s (.withdraw nodeId name) = s := by
      subst hempty
      rfl
    rwa [hsame]
  rcases run_deleteRoute_withdraw hempty name none s with ⟨-, hdrops⟩ | ⟨-, hsame⟩
  · have hnet := h.network.of_only hdrops.only
    refine ⟨hnet, hdrops.rowsOk h.rows, hdrops.timed h.timed, fun name' hname' => ?_⟩
    refine (h.name name' hname').shrink h.network hnet (hdrops.shrinks name') (fun _ => False.elim)
      id ?_ ?_
    · rintro root hroot ⟨rfl, rfl⟩ a ha
      exact ⟨hok hroot.query a ha, rfl⟩
    · rintro root - - seg - d p - ⟨n, hn, -⟩
      exact absurd hn id
  · have hsame' : act E s (.withdraw nodeId name) = s := hsame
    rwa [hsame']

/-! ## Departures -/

theorem Departs.shrinks (h : Departs x s s') (name : RouteName) :
    Shrinks (· = x) (· = x) name s s' := by
  refine ⟨h.graphs, h.inDomain_of, ?_, ?_, ?_, ?_, ?_⟩
  · intro d n hn hd
    obtain ⟨m, hm, hdomain, rfl⟩ := inDomain_listNodes.mp hd
    refine inDomain_listNodes.mpr ⟨m, ?_, hdomain, rfl⟩
    rcases h.nodes with heq | heq
    · rwa [heq]
    · rw [heq]
      exact Table.mem_erase.mpr ⟨hm, hn⟩
  · intro l hl hlive
    have hstatus : l.status ≠ .Deleted := by simpa [Link.live] using hlive
    rcases h.links l hl with ⟨hl, htouches⟩ | ⟨hdeleted, -⟩
    · exact ⟨hl, fun hs => hstatus (htouches (.inl hs)), fun hd => hstatus (htouches (.inr hd))⟩
    · exact absurd hdeleted hstatus
  · exact fun l hl hs hd => h.keepLinks l hl fun htouches => htouches.elim hs hd
  · intro r hr hlive _
    rcases h.routes r hr with ⟨hr, hsource, hdest⟩ | ⟨hdeleted, -⟩
    · exact ⟨hr, hdest, hsource⟩
    · exact absurd hdeleted hlive
  · exact fun r hr _ _ hdest hsource => h.keepRoutes r hr hsource hdest

theorem Departs.rowsOk (h : Departs x s s') (hs : RowsOk names s.db) : RowsOk names s'.db := by
  intro r hr
  rcases h.routes r hr with ⟨hr, -⟩ | ⟨-, r', hr', heq⟩
  · exact hs r hr
  · obtain ⟨hid, hnamed⟩ := hs r' hr'
    rw [heq]
    exact ⟨hid, hnamed⟩

theorem Departs.timed (h : Departs x s s') (hs : Timed E s) : Timed E s' := by
  intro r hr
  rcases h.routes r hr with ⟨hr, -⟩ | ⟨-, r', hr', heq⟩
  · obtain ⟨t, ht, hcreated⟩ := hs r hr
    exact ⟨t, ht.trans_le h.ticks_le, hcreated⟩
  · obtain ⟨t, ht, hcreated⟩ := hs r' hr'
    exact ⟨t, ht.trans_le h.ticks_le, by rw [heq]; exact hcreated⟩

theorem Holds.lastInDomain (h : Holds E names s) (hx : inDomain s.db.listNodes domain x = true) :
    LastInDomain s x domain where
  only n hn hdomain := by
    obtain ⟨m, hm, hmdomain, rfl⟩ := inDomain_listNodes.mp hx
    rw [h.network.oneNode n hn m hm domain hdomain hmdomain]
  sources l hl hsource := h.network.sourceDomain l hl domain (hsource ▸ hx)
  dests l hl hdest := h.network.destDomain l hl domain (hdest ▸ hx)
  fields := h.network.fields

theorem Holds.depart (h : Holds E names s) (hok : DepartOk E names s x domain)
    (hx : Departs x s s') : Holds E names s' := by
  have hnet := h.network.of_departs hx
  have hall : ALL_NODES_ID ≠ x := by
    rintro rfl
    obtain ⟨n, hn, -, hid⟩ := inDomain_listNodes.mp hok.inDomain
    exact (h.network.nodeIds n hn).2 hid
  refine ⟨hnet, hx.rowsOk h.rows, hx.timed h.timed, fun name hname => ?_⟩
  refine (h.name name hname).shrink h.network hnet (hx.shrinks name) (fun _ => id) hall ?_ ?_
  · rintro root hroot rfl a ha
    exact hok.first name hname hroot.query a ha
  · rintro root hroot hne seg hseg d p hp ⟨n, rfl, hn⟩
    have hpdomain : p = domain := inDomain_unique hn hok.inDomain
    subst hpdomain
    exact hok.inner name hname root hroot.query hne seg hseg d hp

/-! ## Announcements -/

namespace Network

variable {a b gateway linkId : String}

theorem id_ne (h : Network s) {d n : String} (hd : inDomain s.db.listNodes d n = true) :
    n ≠ "" ∧ n ≠ ALL_NODES_ID := by
  obtain ⟨m, hm, -, rfl⟩ := inDomain_listNodes.mp hd
  exact h.nodeIds m hm

theorem exists_find (h : Network s) (hjoin : LiveJoin s a b) :
    ∃ gateway linkId,
      findInterDomainLinkFromCache a b s.db.listNodes s.db.listAllLinks = some
        (gateway, linkId) := by
  obtain ⟨l, hl, hlive, hjoins⟩ := hjoin
  have hstatus : l.status ≠ .Deleted := by simpa [Link.live] using hlive
  have hdest : l.destNodeId ≠ "" := by
    rcases hjoins with ⟨-, ht⟩ | ⟨-, ht⟩
    · exact (h.id_ne ht).1
    · exact (h.id_ne ht).1
  exact exists_findInterDomainLink (s.db.mem_listAllLinks.mpr hl)
    ⟨(h.status l hl).resolve_right hstatus, hdest⟩ hjoins

theorem link_of_find (h : Network s)
    (hfind : findInterDomainLinkFromCache a b s.db.listNodes s.db.listAllLinks =
      some (gateway, linkId)) :
    inDomain s.db.listNodes a gateway = true ∧
      (∃ l ∈ s.db.links, l.live = true ∧ linkId = l.linkId ∧ Joins s.db.listNodes a b l) ∧
      ∀ l ∈ s.db.links, l.linkId = linkId → Joins s.db.listNodes a b l := by
  obtain ⟨link, hlink, ⟨hstatus, -⟩, hjoins, rfl, hgateway, -⟩ := findInterDomainLink_eq_some hfind
  have hlink := s.db.mem_listAllLinks.mp hlink
  refine ⟨hgateway, ⟨link, hlink, by simp [Link.live, hstatus], rfl, hjoins⟩, fun l hl heq => ?_⟩
  rw [h.linkIds l hl link hlink heq]
  exact hjoins

end Network

section Announce

variable {name : RouteName} {n : String} {root : String} {r : Route}

theorem Network.mem_upwardExpansion (h : Network s) :
    r ∈ upwardExpansion s.segmentGraphs s.db.listNodes s.db.listAllLinks root name ↔
      ∃ seg ∈ s.segmentGraphs, ∃ d p gateway linkId,
        parentDomain seg.2 (domainOf s.db.listNodes root) d = some p ∧
        findInterDomainLinkFromCache d p s.db.listNodes s.db.listAllLinks = some (gateway, linkId) ∧
        buildRouteForGateway gateway d root (domainOf s.db.listNodes root) linkId name = r := by
  rw [upwardExpansion, List.mem_flatMap]
  exact exists_congr fun seg => and_congr_right fun hseg => mem_upwardRoutes (h.plain seg hseg)

theorem Network.mem_downwardExpansion (h : Network s) {announcer : String} :
    r ∈ downwardExpansion s.segmentGraphs s.db.listNodes s.db.listAllLinks root announcer name ↔
    domainOf s.db.listNodes root ≠ domainOf s.db.listNodes announcer ∧ ∃ seg ∈ s.segmentGraphs,
      ∃ c p gateway linkId,
      Below (parentDomain seg.2 (domainOf s.db.listNodes root))
        (domainOf s.db.listNodes announcer) c ∧
      parentDomain seg.2 (domainOf s.db.listNodes root) c = some p ∧
      findInterDomainLinkFromCache p c s.db.listNodes s.db.listAllLinks = some (gateway, linkId) ∧
      buildRouteForGateway gateway p announcer (domainOf s.db.listNodes announcer) linkId name =
        r := by
  unfold downwardExpansion
  split
  · next heq => simp [heq]
  · next hne =>
    rw [List.mem_flatMap, and_iff_right hne]
    exact exists_congr fun seg => and_congr_right fun hseg => mem_downwardRoutes (h.plain seg hseg)

theorem Network.wellNamed_expansion (h : Network s) (hname : names name)
    (hr : r ∈ announcementExpansion s n name) : WellNamed names r ∧ r.sourceNodeId ≠ ALL_NODES_ID :=
  (overLink_announcementExpansion hr).wellNamed hname fun n hn =>
    (h.nodeIds n (s.db.mem_listNodes.mp hn)).2

theorem not_below_of_root {graph : UnGraph} (hplain : graph.Plain) {c p : String}
    (hbelow : Below (parentDomain graph root) root c) (hp : parentDomain graph root c = some p) :
    False := by
  have hnone : parentDomain graph root root = none := by
    rw [← Option.not_isSome_iff_eq_none]
    exact fun hsome => ((parentDomain_isSome_iff hplain).mp hsome).1 rfl
  rcases Relation.ReflTransGen.cases_head hbelow with rfl | ⟨y, hy, -⟩
  · rw [hnone] at hp
    cases hp
  · rw [hnone] at hy
    cases hy

/-- The step of an announcement, in a network where names are told apart. -/
structure Announced (E : Env) (names : RouteName → Prop) (n : String) (name : RouteName)
    (s s' : RouteService) : Prop where
  network : Network s
  distinguished : Distinguished names
  named : names name
  rows : RowsOk names s.db
  adds : Adds E (announcementRoute s.db n name :: announcementExpansion s n name) s s'

namespace Announced

section
variable (h : Announced E names n name s s') {domain : String}

include h

theorem network' : Network s' := h.network.of_only h.adds.only

theorem wellNamed :
    ∀ r ∈ announcementRoute s.db n name :: announcementExpansion s n name, WellNamed names r := by
  intro r hr
  rcases List.mem_cons.mp hr with rfl | hr
  · exact ⟨h.named, iff_of_true rfl rfl⟩
  · exact (h.network.wellNamed_expansion h.named hr).1

theorem rows' : RowsOk names s'.db := h.adds.rowsOk h.rows h.wellNamed

theorem row_cases {x : Route} (hx : x ∈ s'.db.routes) :
    x ∈ s.db.routes ∨ (x.sourceNodeId = ALL_NODES_ID ∧ x.destNodeId = n ∧ x.name = name) ∨
      ∃ r ∈ announcementExpansion s n name, x.sourceNodeId ≠ ALL_NODES_ID ∧ x.name = name ∧
        x.sourceNodeId = r.sourceNodeId ∧ x.destNodeId = r.destNodeId ∧ x.linkId = r.linkId := by
  rcases h.adds.source x hx with hx | ⟨r, hr, t, -, -, -, rfl⟩
  · exact .inl hx
  · rcases List.mem_cons.mp hr with rfl | hr
    · exact .inr (.inl ⟨rfl, rfl, rfl⟩)
    · exact .inr (.inr ⟨r, hr, (h.network.wellNamed_expansion h.named hr).2,
        (overLink_announcementExpansion hr).name_eq, rfl, rfl, rfl⟩)

theorem announces_iff {a : String} : Announces s'.db name a ↔ Announces s.db name a ∨ a = n := by
  simp only [RouteService.announces_iff]
  constructor
  · rintro ⟨x, hx, hsource, hlive, hname, rfl⟩
    rcases h.row_cases hx with hx | ⟨-, hdest, -⟩ | ⟨r, -, hne, -⟩
    · exact .inl ⟨x, hx, hsource, hlive, hname, rfl⟩
    · exact .inr hdest
    · exact absurd hsource hne
  · rintro (⟨x, hx, hsource, hlive, hname, rfl⟩ | rfl)
    · exact ⟨x, h.adds.keep x hx hlive, hsource, hlive, hname, rfl⟩
    · obtain ⟨x, hx, hlive, hsource, hdest, hname, -⟩ := h.rows'.exists_row h.distinguished
        (h.wellNamed _ List.mem_cons_self) (h.adds.added _ List.mem_cons_self)
      exact ⟨x, hx, hsource, hlive, hname, hdest⟩

theorem exists_over {a b gateway linkId dest destDomain : String}
    (hr : buildRouteForGateway gateway a dest destDomain linkId name ∈ announcementExpansion s n
      name)
    (hfind : findInterDomainLinkFromCache a b s.db.listNodes s.db.listAllLinks =
      some (gateway, linkId)) :
    ∃ x, Over s' name x a b ∧ inDomain s'.db.listNodes a x.sourceNodeId = true ∧
      x.destNodeId = dest := by
  have hmem := List.mem_cons_of_mem (announcementRoute s.db n name) hr
  obtain ⟨x, hx, hlive, hsource, hdest, hname, hlink⟩ :=
    h.rows'.exists_row h.distinguished (h.wellNamed _ hmem) (h.adds.added _ hmem)
  obtain ⟨hgateway, ⟨l, hl, hllive, rfl, hjoins⟩, -⟩ := h.network.link_of_find hfind
  obtain ⟨routes, queue, ticks, rfl⟩ := h.adds.only
  refine ⟨x, ⟨hx, hlive, hname, l, hl, hllive, hlink, hjoins⟩, ?_, hdest⟩
  rw [hsource]
  exact hgateway

theorem shrinks {name' : RouteName} (hne : name' ≠ name) :
    Shrinks (fun _ => False) (fun _ => False) name' s s' := by
  have hrows : ∀ r ∈ s'.db.routes, r.name = name' → r ∈ s.db.routes := by
    rintro r hr rfl
    rcases h.row_cases hr with hr | ⟨-, -, hname⟩ | ⟨-, -, -, hname, -⟩
    · exact hr
    · exact absurd hname hne
    · exact absurd hname hne
  have hkeep := h.adds.keep
  obtain ⟨routes, queue, ticks, rfl⟩ := h.adds.only
  exact ⟨rfl, fun _ _ => id, fun _ _ _ => id, fun l hl _ => ⟨hl, id, id⟩, fun l hl _ _ => hl,
    fun r hr _ hname => ⟨hrows r hr hname, id, id⟩, fun r hr hlive _ _ _ => hkeep r hr hlive⟩

theorem treeOk_first (hok : AnnounceOk s n name domain) (hold : NameOk s name)
    (hroot : s.db.getDestinationNodeIdForName name = none) (hnone : ∀ a, ¬ Announces s.db name a) :
    TreeOk s' name n := by
  have hexpansion : announcementExpansion s n name =
      upwardExpansion s.segmentGraphs s.db.listNodes s.db.listAllLinks n name := by
    rw [announcementExpansion, hroot]
  have hdomain : domainOf s.db.listNodes n = domain := domainOf_of_inDomain hok.inDomain
  have hrootFor : rootFor s.db name n = n := by rw [rootFor, hroot, Option.getD_none]
  have hattached := hok.attached
  have hann := fun a => h.announces_iff (a := a)
  have hcases := fun x (hx : x ∈ s'.db.routes) => h.row_cases hx
  have hover := @exists_over _ _ _ _ _ _ h
  rw [hrootFor] at hattached
  rw [hexpansion] at hcases hover
  obtain ⟨routes, queue, ticks, rfl⟩ := h.adds.only
  -- no one else announces the name
  have honly : ∀ a, Announces _ name a → a = n :=
    fun a ha => ((hann a).mp ha).resolve_left (hnone a)
  refine ⟨?_, ?_, ?_, ?_, ?_⟩
  · intro x hx hlive hname hsource l hl hllive hlink
    rcases hcases x hx with hx | ⟨hall, -⟩ | ⟨r, hr, -, -, hxsource, -, hxlink⟩
    · exact absurd (hold.dests x hx hlive hname hsource) (hnone _)
    · exact absurd hall hsource
    · obtain ⟨seg, hseg, d, p, gateway, linkId, hp, hfind, rfl⟩ :=
        h.network.mem_upwardExpansion.mp hr
      obtain ⟨hgateway, -, hjoins⟩ := h.network.link_of_find hfind
      have hlinkId : l.linkId = linkId := Option.some.inj (hlink.symm.trans hxlink)
      refine ⟨seg, hseg, d, p, hp, hjoins l hl hlinkId, .inl ?_⟩
      rw [hxsource]
      exact hgateway
  · intro seg hseg c p hp hjoin
    obtain ⟨gateway, linkId, hfind⟩ := h.network.exists_find hjoin
    exact hover
      (h.network.mem_upwardExpansion.mpr ⟨seg, hseg, c, p, gateway, linkId, hp, hfind, rfl⟩) hfind
  · intro seg hseg a c p ha hbelow hp
    rw [honly a ha] at hbelow
    exact (not_below_of_root (h.network.plain seg hseg) hbelow hp).elim
  · intro seg hseg d p hp hd
    refine hattached seg hseg d p hp (hd.imp_left ?_)
    rintro ⟨a, ha, rfl⟩
    rw [honly a ha]
    exact hdomain
  · intro a ha seg hseg d hconnects _
    rw [honly a ha] at hconnects
    exact .inr ⟨seg, hseg, hconnects⟩

theorem treeOk_later (hok : AnnounceOk s n name domain) (hold : NameOk s name)
    (hroot : Leads s.db name root) : TreeOk s' name root := by
  have htree := hold.tree root hroot
  have hexpansion : announcementExpansion s n name =
      downwardExpansion s.segmentGraphs s.db.listNodes s.db.listAllLinks root n name := by
    rw [announcementExpansion, hroot.query]
  have hdomain : domainOf s.db.listNodes n = domain := domainOf_of_inDomain hok.inDomain
  have hrootFor : rootFor s.db name n = root := by rw [rootFor, hroot.query, Option.getD_some]
  have hattached := hok.attached
  have hcovered := hok.covered
  have hann := fun a => h.announces_iff (a := a)
  have hcases := fun x (hx : x ∈ s'.db.routes) => h.row_cases hx
  have hover := @exists_over _ _ _ _ _ _ h
  have hkeep := h.adds.keep
  rw [hrootFor] at hattached hcovered
  rw [hexpansion] at hcases hover
  obtain ⟨routes, queue, ticks, rfl⟩ := h.adds.only
  have hoverKeep : ∀ r c p, Over s name r c p → Over _ name r c p := fun r c p hr =>
    ⟨hkeep r hr.mem hr.live, hr.live, hr.name_eq, hr.link⟩
  refine ⟨?_, ?_, ?_, ?_, ?_⟩
  · intro x hx hlive hname hsource l hl hllive hlink
    rcases hcases x hx with hx | ⟨hall, -⟩ | ⟨r, hr, -, -, hxsource, hxdest, hxlink⟩
    · exact htree.sound x hx hlive hname hsource l hl hllive hlink
    · exact absurd hall hsource
    · obtain ⟨-, seg, hseg, c, p, gateway, linkId, hbelow, hp, hfind, rfl⟩ :=
        h.network.mem_downwardExpansion.mp hr
      obtain ⟨hgateway, -, hjoins⟩ := h.network.link_of_find hfind
      have hlinkId : l.linkId = linkId := Option.some.inj (hlink.symm.trans hxlink)
      refine ⟨seg, hseg, c, p, hp, (hjoins l hl hlinkId).symm, .inr ?_⟩
      rw [hxsource, hxdest]
      exact ⟨hgateway, hbelow⟩
  · intro seg hseg c p hp hjoin
    obtain ⟨r, hr, hin, hdest⟩ := htree.up seg hseg c p hp hjoin
    exact ⟨r, hoverKeep r c p hr, hin, hdest⟩
  · intro seg hseg a c p ha hbelow hp hjoin
    rcases (hann a).mp ha with ha | rfl
    · obtain ⟨r, hr, hin, hdest⟩ := htree.down seg hseg a c p ha hbelow hp hjoin
      exact ⟨r, hoverKeep r c p hr, hin, hdest⟩
    · have hne : domainOf s.db.listNodes root ≠ domainOf s.db.listNodes a := by
        intro heq
        have hself : Below (parentDomain seg.2 (domainOf s.db.listNodes root))
            (domainOf s.db.listNodes a) c := hbelow
        rw [← heq] at hself
        exact not_below_of_root (h.network.plain seg hseg) hself hp
      have hjoin' : LiveJoin s p c := LiveJoin.symm hjoin
      obtain ⟨gateway, linkId, hfind⟩ := h.network.exists_find hjoin'
      obtain ⟨x, hx, hin, hdest⟩ := hover (h.network.mem_downwardExpansion.mpr
        ⟨hne, seg, hseg, c, p, gateway, linkId, hbelow, hp, hfind, rfl⟩) hfind
      obtain ⟨l, hl, hllive, hlink, hjoins⟩ := hx.link
      exact ⟨x, ⟨hx.mem, hx.live, hx.name_eq, l, hl, hllive, hlink, hjoins.symm⟩, hin, hdest⟩
  · intro seg hseg d p hp hd
    rcases hd with ⟨a, ha, rfl⟩ | hd
    · rcases (hann a).mp ha with ha | rfl
      · exact htree.attached seg hseg _ p hp (.inl ⟨a, ha, rfl⟩)
      · exact hattached seg hseg _ p hp (.inl hdomain)
    · exact hattached seg hseg d p hp (.inr hd)
  · intro a ha seg hseg d hconnects hne
    rcases (hann a).mp ha with ha | rfl
    · exact htree.covered a ha seg hseg d hconnects hne
    · have hdomain' : domainOf s.db.listNodes a = domain := hdomain
      refine hcovered seg hseg d ?_ ?_
      · rw [← hdomain']
        exact hconnects
      · rw [← hdomain']
        exact hne

theorem nameOk (hclock : StrictMono E.clock) (htimed : Timed E s) (hok : AnnounceOk s n name domain)
    (hold : NameOk s name) : NameOk s' name := by
  have hdests : ∀ r ∈ s'.db.routes, r.status ≠ .Deleted → r.name = name →
      r.sourceNodeId ≠ ALL_NODES_ID → Announces s'.db name r.destNodeId := by
    intro r hr hlive hname hsource
    rw [h.announces_iff]
    rcases h.row_cases hr with hr | ⟨hall, -⟩ | ⟨x, hx, -, -, -, hdest, -⟩
    · exact .inl (hold.dests r hr hlive hname hsource)
    · exact absurd hall hsource
    · -- an expansion is for the announcer
      refine .inr (hdest.trans ?_)
      obtain ⟨_, _, _, _, -, rfl⟩ := overLink_announcementExpansion hx
      rfl
  have hregistered : ∀ a, Announces s'.db name a → ∃ d, inDomain s'.db.listNodes d a = true := by
    intro a ha
    rw [h.adds.only.listNodes]
    rcases h.announces_iff.mp ha with ha | rfl
    · exact hold.registered a ha
    · exact ⟨domain, hok.inDomain⟩
  -- the root is the one before, or the announcer
  have htree : ∃ root, Leads s'.db name root ∧ TreeOk s' name root := by
    by_cases hany : ∃ a, Announces s.db name a
    · obtain ⟨root, hroot⟩ := hold.leads hany
      exact ⟨root, h.adds.leads hclock htimed hroot, h.treeOk_later hok hold hroot⟩
    · have hnone : s.db.announcements name = [] := by
        rw [List.eq_nil_iff_forall_not_mem]
        exact fun r hr => hany ⟨_, r, hr, rfl⟩
      have hquery : s.db.getDestinationNodeIdForName name = none := by
        rw [Database.getDestinationNodeIdForName, hnone]
        rfl
      exact ⟨n, h.adds.leads_first h.distinguished h.rows h.named
        (fun r hr => h.network.wellNamed_expansion h.named hr) hnone,
        h.treeOk_first hok hold hquery fun a ha => hany ⟨a, ha⟩⟩
  obtain ⟨root, hroot, htree⟩ := htree
  refine ⟨hdests, hregistered, fun _ => ⟨root, hroot⟩, fun root' hroot' => ?_⟩
  rwa [Option.some.inj (hroot'.query.symm.trans hroot.query)]

end

end Announced

end Announce

theorem Holds.announce (h : Holds E names s) (hclock : StrictMono E.clock)
    (hnames : Distinguished names) {n : String} (hok : StepOk E names s (.announce n name)) :
    Holds E names (act E s (.announce n name)) := by
  obtain ⟨hname, domain, hok⟩ := hok
  obtain ⟨hempty, hall⟩ := h.network.id_ne hok.inDomain
  obtain ⟨r, s', hrun, hadds⟩ := run_addRoute_announce hempty hall name none s
  have hs' : act E s (.announce n name) = s' := by rw [act, hrun]
  rw [hs']
  have hann : Announced E names n name s s' := ⟨h.network, hnames, hname, h.rows, hadds⟩
  refine ⟨hann.network', hann.rows', hadds.timed h.timed, fun name' hname' => ?_⟩
  by_cases heq : name' = name
  · subst heq
    exact hann.nameOk hclock h.timed hok (h.name name' hname')
  · refine (h.name name' hname').shrink h.network hann.network' (hann.shrinks heq) (fun _ => id) id
      ?_ ?_
    · exact fun _ _ hgone => hgone.elim
    · rintro root - - seg - d p - ⟨_, hdead, -⟩
      exact hdead.elim

/-! ## Whole runs -/

theorem Holds.step (hclock : StrictMono E.clock) (hnames : Distinguished names) (s : RouteService)
    (a : Action) (h : Holds E names s) (hok : StepOk E names s a) : Holds E names (act E s a) := by
  cases a with
  | announce n name => exact h.announce hclock hnames hok
  | withdraw n name => exact h.withdraw hok
  | deregister x =>
    obtain ⟨domain, hok⟩ := hok
    exact h.depart hok (run_nodeDeregistered (h.lastInDomain hok.inDomain) hok.settled)
  | disconnect x =>
    obtain ⟨domain, hok⟩ := hok
    exact h.depart hok (run_nodeDisconnected (h.lastInDomain hok.inDomain) hok.settled)

theorem Holds.init (hnet : Network s) (hroutes : s.db.routes = ∅) : Holds E names s := by
  have hempty : ∀ r, r ∉ s.db.routes := fun r => by rw [hroutes]; exact Table.not_mem_empty r
  have hnone : ∀ name a, ¬ Announces s.db name a := by
    intro name a ha
    obtain ⟨r, hr, -⟩ := announces_iff.mp ha
    exact hempty r hr
  refine ⟨hnet, fun r hr => absurd hr (hempty r), fun r hr => absurd hr (hempty r),
    fun name _ => ?_⟩
  exact ⟨fun r hr => absurd hr (hempty r), fun a ha => absurd ha (hnone name a),
    fun ⟨a, ha⟩ => absurd ha (hnone name a), fun root hroot => absurd hroot.announces
      (hnone name root)⟩

/-- In every run whose steps meet the condition, a domain has a route for a name exactly if a
segment connects it with another domain that has an announcer. -/
theorem routes_reach (hclock : StrictMono E.clock) (hnames : Distinguished names) (hnet : Network s)
    (hroutes : s.db.routes = ∅) {as : List Action} (h : Run.Meets (act E) (StepOk E names) s as)
    {name : RouteName} (hname : names name) : RoutesReach (as.foldl (act E) s) name := by
  have hholds := h.invariant (Holds.step hclock hnames) (Holds.init hnet hroutes)
  exact (hholds.name name hname).routesReach hholds.network fun r hr hall =>
    (hholds.rows r hr).2.2.mp hall

/-! ## A chain of three domains -/

/-- Every domain of a segment is linked to its parent. -/
def spannedB (s : RouteService) (root : String) : Bool :=
  s.segmentGraphs.all fun seg => seg.2.nodes.all fun d => d == root ||
    (parentDomain seg.2 root d).any fun p =>
      s.db.links.rows.any fun l => l.live && decide (Joins s.db.listNodes d p l)

theorem announceOk_of_spannedB (hnet : Network s) {n : String}
    (hin : inDomain s.db.listNodes domain n = true)
    (h : spannedB s (domainOf s.db.listNodes (rootFor s.db name n)) = true) :
    AnnounceOk s n name domain := by
  have hspanned : ∀ seg ∈ s.segmentGraphs, ∀ d ∈ seg.2.nodes,
      d = domainOf s.db.listNodes (rootFor s.db name n) ∨
        ∃ p, parentDomain seg.2 (domainOf s.db.listNodes (rootFor s.db name n)) d = some p ∧
          LiveJoin s d p := by
    intro seg hseg d hd
    have hcheck := List.all_eq_true.mp (List.all_eq_true.mp h seg hseg) d hd
    rcases Bool.or_eq_true _ _ ▸ hcheck with heq | hany
    · exact .inl (by simpa using heq)
    · refine .inr ?_
      obtain ⟨p, hp, hjoin⟩ := (Option.any_eq_true _ _).mp hany
      obtain ⟨l, hl, hboth⟩ := List.any_eq_true.mp hjoin
      rw [Bool.and_eq_true, decide_eq_true_iff] at hboth
      exact ⟨p, hp, l, hl, hboth.1, hboth.2⟩
  have hattached : ∀ seg ∈ s.segmentGraphs, ∀ d p,
      parentDomain seg.2 (domainOf s.db.listNodes (rootFor s.db name n)) d = some p →
        LiveJoin s d p := by
    intro seg hseg d p hp
    have hplain := hnet.plain seg hseg
    rcases hspanned seg hseg d (mem_nodes_of_parentDomain hplain hp).1 with rfl | ⟨p', hp', hjoin⟩
    · exact (not_below_of_root hplain Relation.ReflTransGen.refl hp).elim
    · rwa [Option.some.inj (hp.symm.trans hp')]
  refine ⟨hin, fun seg hseg d p hp _ => hattached seg hseg d p hp,
    fun seg hseg d hconnects hne => ?_⟩
  have hplain := hnet.plain seg hseg
  obtain ⟨y, hstep, -⟩ := (Relation.ReflTransGen.cases_head hconnects).resolve_left hne
  obtain ⟨i, hi⟩ := hstep.1.mem hplain
  rcases hspanned seg hseg d (mem_nodes_of_indexOf hi) with heq | ⟨p, hp, hjoin⟩
  · exact .inl heq
  · have hall : Attached s name (rootFor s.db name n) := fun seg hseg d p hp _ =>
      hattached seg hseg d p hp
    exact .inr ⟨seg, hseg, hall.connects hnet hseg (by rw [hp]; rfl)
      (.inr ⟨p, edge_of_parentDomain hplain hp, hjoin⟩)⟩

def sampleName : RouteName := ⟨"org", "ns", "svc", none⟩

theorem sampleChain_network : Network sampleChain where
  plain := by
    intro seg hseg
    obtain rfl : seg = ("default", sampleChainGraph) := List.mem_singleton.mp hseg
    exact sampleChain_soleSegment.plain
  oneNode := sampleChain_soleSegment.oneNode
  nodeIds := sampleChain_soleSegment.nodeIds
  status l hl := .inl (sampleChain_soleSegment.applied l hl)
  linkIds := sampleChain_soleSegment.linkIds
  fields := by decide +kernel
  sourceDomain l hl d hd := by
    have hall : ∀ l ∈ sampleChain.db.links,
        inDomain sampleChain.db.listNodes l.sourceDomain l.sourceNodeId = true := by decide +kernel
    exact inDomain_unique (hall l hl) hd
  destDomain l hl d hd := by
    have hall : ∀ l ∈ sampleChain.db.links,
        inDomain sampleChain.db.listNodes l.destDomain l.destNodeId = true := by decide +kernel
    exact inDomain_unique (hall l hl) hd

/-- A second announcer comes, withdraws and leaves. -/
def sampleActions : List Action :=
  [.announce "node-a" sampleName, .announce "node-c" sampleName, .withdraw "node-c" sampleName,
    .disconnect "node-c"]

theorem routes_reach_chain :
    RoutesReach (sampleActions.foldl (act Env.plain) sampleChain) sampleName := by
  have hnames : Distinguished (· = sampleName) := fun n n' hn hn' _ _ _ _ => hn.trans hn'.symm
  have h₀ : Holds Env.plain (· = sampleName) sampleChain := Holds.init sampleChain_network rfl
  have hok₁ : StepOk Env.plain (· = sampleName) sampleChain (.announce "node-a" sampleName) :=
    ⟨rfl, "a", announceOk_of_spannedB h₀.network (by decide +kernel) (by decide +kernel)⟩
  have h₁ := Holds.step Env.plain_clock hnames _ _ h₀ hok₁
  have hok₂ : StepOk Env.plain (· = sampleName)
      (act Env.plain sampleChain (.announce "node-a" sampleName)) (.announce "node-c" sampleName) :=
    ⟨rfl, "c", announceOk_of_spannedB h₁.network (by decide +kernel) (by decide +kernel)⟩
  have h₂ := Holds.step Env.plain_clock hnames _ _ h₁ hok₂
  have hroot₃ :
      ((sampleActions.take 3).foldl (act Env.plain) sampleChain).db.getDestinationNodeIdForName
      sampleName = some "node-a" := by decide +kernel
  have hok₃ : StepOk Env.plain (· = sampleName)
      ((sampleActions.take 2).foldl (act Env.plain) sampleChain)
      (.withdraw "node-c" sampleName) := fun hroot =>
    absurd hroot (by decide)
  have h₃ := Holds.step Env.plain_clock hnames _ _ h₂ hok₃
  have hok₄ : StepOk Env.plain (· = sampleName)
      ((sampleActions.take 3).foldl (act Env.plain) sampleChain) (.disconnect "node-c") := by
    refine ⟨"c", .inl rfl, by decide +kernel, ?_, ?_⟩
    · rintro _ rfl hroot
      exact absurd hroot (by decide)
    · rintro _ rfl root hroot - seg hseg d hp -
      obtain rfl := Option.some.inj (hroot₃.symm.trans hroot)
      have hleaf : ∀ seg ∈ ((sampleActions.take 3).foldl (act Env.plain) sampleChain).segmentGraphs,
          ∀ d ∈ seg.2.nodes,
            parentDomain seg.2 (domainOf ((sampleActions.take 3).foldl (act Env.plain)
            sampleChain).db.listNodes "node-a") d ≠ some "c" := by decide +kernel
      exact hleaf seg hseg d (mem_nodes_of_parentDomain (h₃.network.plain seg hseg) hp).1 hp
  have hmeets : Run.Meets (act Env.plain) (StepOk Env.plain (· = sampleName)) sampleChain
      sampleActions :=
    ⟨hok₁, hok₂, hok₃, hok₄, trivial⟩
  exact routes_reach Env.plain_clock hnames sampleChain_network rfl hmeets rfl

/-- The first announcer withdraws, and the other one can no longer be reached from everywhere. -/
def rootWithdrawn : RouteService :=
  [Action.announce "node-b" sampleName, .announce "node-c" sampleName,
    .withdraw "node-b" sampleName].foldl (act Env.plain) sampleChain

theorem not_routesReach_rootWithdrawn :
    Network sampleChain ∧ (∀ l ∈ sampleChain.db.links, l.status = .Applied) ∧
      sampleChain.db.routes = ∅ ∧ ¬ RoutesReach rootWithdrawn sampleName := by
  refine ⟨sampleChain_network, sampleChain_soleSegment.applied, rfl, fun h => ?_⟩
  have hjoin : ∀ pair ∈ [("a", "b"), ("b", "c")], ∃ l ∈ rootWithdrawn.db.links, l.live = true ∧
      Joins rootWithdrawn.db.listNodes pair.1 pair.2 l := by decide +kernel
  have hab : LinkStep rootWithdrawn sampleChainGraph "a" "b" :=
    ⟨⟨⟨0, 1, 1⟩, by decide, .inl (by decide +kernel)⟩, hjoin ("a", "b") (by simp)⟩
  have hbc : LinkStep rootWithdrawn sampleChainGraph "b" "c" :=
    ⟨⟨⟨1, 2, 1⟩, by decide, .inl (by decide +kernel)⟩, hjoin ("b", "c") (by simp)⟩
  have hann : ∃ r ∈ rootWithdrawn.db.announcements sampleName, r.destNodeId = "node-c" := by
    decide +kernel
  have hseg : ("default", sampleChainGraph) ∈ rootWithdrawn.segmentGraphs :=
    List.mem_singleton.mpr rfl
  have hroute : HasRoute rootWithdrawn.db sampleName "a" := by
    refine (h "a").mpr ⟨("default", sampleChainGraph), hseg, "node-c", hann, ?_, ?_⟩
    · decide
    · exact (Relation.ReflTransGen.single hab).tail hbc
  have hnone : ¬ HasRoute rootWithdrawn.db sampleName "a" := by
    unfold HasRoute
    decide +kernel
  exact hnone hroute

end Slim.RouteService
