import Slim.RouteService.Proof.Gateways
import Slim.RouteService.Proof.Root

/-!
# Forwarding along the installed routes

In one connected segment with all links established and one node in each domain, announcements
install routes to the parents in the tree of the first announcer and down to each later one. A
message for the name then visits no domain twice and comes to every announcer, wherever it starts
(`forward_visits_once`). The routes are an instance of the routes on a tree of the forwarding
library.
-/

namespace Slim.RouteService

open Db ShortestPath Forwarding

variable {db : Database} {linkId : String} {routes : List Route}

/-! ## Forwarding between domains -/

/-- Where a link leads to, seen from a domain. -/
def farDomain (nodes : List Node) (links : List Link) (d linkId : String) : Option String :=
  links.findSome? fun l =>
    if l.linkId = linkId then
      if inDomain nodes d l.sourceNodeId then some (domainOf nodes l.destNodeId)
      else if inDomain nodes d l.destNodeId then some (domainOf nodes l.sourceNodeId)
      else none
    else none

/-- The links over which the nodes of a domain have a route for the name. -/
def routedLinks (db : Database) (name : RouteName) (d : String) : List String :=
  ((db.routes.rows.filter fun r => r.status ≠ .Deleted && r.name = name &&
    inDomain db.listNodes d r.sourceNodeId).filterMap Route.linkId).dedup

/-- The links that a message for the name is sent over, and where they lead to. -/
def hops (db : Database) (name : RouteName) (d : String) : List (String × String) :=
  (routedLinks db name d).filterMap fun linkId =>
    (farDomain db.listNodes db.listAllLinks d linkId).map (linkId, ·)

/-- The domains that a message for the name visits from a domain on; `none` if `fuel` hops did not
do. -/
def forward (db : Database) (name : RouteName) (fuel : Nat) (d : String) : Option (List String) :=
  visits (hops db name) fuel d none

theorem mem_routedLinks {name : RouteName} {d : String} :
    linkId ∈ routedLinks db name d ↔ ∃ r ∈ db.routes, r.status ≠ .Deleted ∧ r.name = name ∧
      inDomain db.listNodes d r.sourceNodeId = true ∧ r.linkId = some linkId := by
  simp [routedLinks, Table.mem_def, and_assoc]

theorem mem_hops {name : RouteName} {d w : String} :
    (linkId, w) ∈ hops db name d ↔ linkId ∈ routedLinks db name d ∧
      farDomain db.listNodes db.listAllLinks d linkId = some w := by
  simp [hops]

theorem nodup_hops (db : Database) (name : RouteName) (d : String) : (hops db name d).Nodup := by
  refine List.Nodup.filterMap ?_ (List.nodup_dedup _)
  intro l l' hop hl hl'
  obtain ⟨_, -, rfl⟩ := Option.map_eq_some_iff.mp hl
  obtain ⟨_, -, heq⟩ := Option.map_eq_some_iff.mp hl'
  exact (Prod.mk.inj heq).1.symm

/-- Link ids are told apart: each leads to the other end of its link. -/
theorem farDomain_eq {table : Table Node.id} {links : List Link} {link : Link} {a b : String}
    (hids : ∀ l ∈ links, ∀ l' ∈ links, l.linkId = l'.linkId → l = l') (hlink : link ∈ links)
    (hjoins : Joins table.rows a b link) (hne : a ≠ b) :
    farDomain table.rows links a link.linkId = some b := by
  have hvalue : (if inDomain table.rows a link.sourceNodeId then
        some (domainOf table.rows link.destNodeId)
      else if inDomain table.rows a
        link.destNodeId then some (domainOf table.rows link.sourceNodeId)
      else none) = some b := by
    rcases hjoins with ⟨hs, hd⟩ | ⟨hs, hd⟩
    · rw [if_pos hs, domainOf_of_inDomain hd]
    · have hnot : ¬ inDomain table.rows a link.sourceNodeId = true :=
        fun ha => hne (inDomain_unique ha hs)
      rw [if_neg hnot, if_pos hd, domainOf_of_inDomain hs]
  cases hfar : farDomain table.rows links a link.linkId with
  | none =>
    have hnone := List.findSome?_eq_none_iff.mp hfar link hlink
    rw [if_pos rfl, hvalue] at hnone
    cases hnone
  | some w =>
    obtain ⟨l, hl, hw⟩ := List.exists_of_findSome?_eq_some hfar
    split at hw
    · next hid =>
      obtain rfl := hids l hl link hlink hid
      exact hw.symm.trans hvalue
    · cases hw

/-! ## The segment -/

/-- One connected segment with all links established, one node in each domain, and no routes yet. -/
structure SoleSegment (s : RouteService) (graph : UnGraph) : Prop where
  segment : ∃ name, s.segmentGraphs = [(name, graph)]
  plain : graph.Plain
  connected : ∀ a ∈ graph.nodes, ∀ b ∈ graph.nodes, Connected graph a b
  hasNode : ∀ d ∈ graph.nodes, ∃ n ∈ s.db.nodes, n.domainName = some d
  oneNode : ∀ n ∈ s.db.nodes, ∀ n' ∈ s.db.nodes, ∀ d, n.domainName = some d →
    n'.domainName = some d → n = n'
  nodeIds : ∀ n ∈ s.db.nodes, n.id ≠ "" ∧ n.id ≠ ALL_NODES_ID
  linked : ∀ e ∈ graph.edges, e.source ≠ e.target → ∃ l ∈ s.db.links,
    Joins s.db.listNodes (domainAt graph e.source) (domainAt graph e.target) l
  applied : ∀ l ∈ s.db.links, l.status = .Applied
  linkIds : ∀ l ∈ s.db.links, ∀ l' ∈ s.db.links, l.linkId = l'.linkId → l = l'
  noRoutes : s.db.routes = ∅

def InSegment (s : RouteService) (graph : UnGraph) (nodeId : String) : Prop :=
  ∃ d ∈ graph.nodes, inDomain s.db.listNodes d nodeId = true

def announceAll (E : Env) (name : RouteName) (nodeIds : List String) : Svc Unit :=
  Fiber.forEach nodeIds fun nodeId => do
    let _ ← addRoute E ALL_NODES_ID nodeId ⟨some name, none⟩
    pure ()

namespace SoleSegment

variable {s : RouteService} {graph : UnGraph} (h : SoleSegment s graph) {root : String}
  {name : RouteName} {r : Route}

include h

theorem id_ne {d nodeId : String} (hd : inDomain s.db.listNodes d nodeId = true) :
    nodeId ≠ "" ∧ nodeId ≠ ALL_NODES_ID := by
  obtain ⟨n, hn, -, rfl⟩ := inDomain_listNodes.mp hd
  exact h.nodeIds n hn

theorem usable {a b : String} {l : Link} (hl : l ∈ s.db.links)
    (hjoins : Joins s.db.listNodes a b l) : Usable l := by
  refine ⟨h.applied l hl, ?_⟩
  rcases hjoins with ⟨-, hd⟩ | ⟨-, hd⟩
  · exact (h.id_ne hd).1
  · exact (h.id_ne hd).1

/-- A domain and its parent have a link, over which each reaches the other. -/
theorem exists_link {c p : String} (hp : parentDomain graph root c = some p) :
    ∃ link ∈ s.db.links, Joins s.db.listNodes c p link ∧
      (∃ gateway, inDomain s.db.listNodes c gateway = true ∧
        findInterDomainLinkFromCache c p s.db.listNodes s.db.listAllLinks =
          some (gateway, link.linkId)) ∧
      ∃ gateway, inDomain s.db.listNodes p gateway = true ∧
        findInterDomainLinkFromCache p c s.db.listNodes s.db.listAllLinks =
          some (gateway, link.linkId) := by
  have hne : c ≠ p := by
    rintro rfl
    exact lt_irrefl _ (rankOf_lt h.plain hp)
  obtain ⟨e, he, hends⟩ := edge_of_parentDomain h.plain hp
  obtain ⟨l, hl, hjoins⟩ := h.linked e he (by
    intro heq
    rw [heq] at hends
    rcases hends with ⟨hc, hp⟩ | ⟨hp, hc⟩
    · exact hne (hc.symm.trans hp)
    · exact hne (hc.symm.trans hp))
  have hjoins' : Joins s.db.listNodes c p l := by
    rcases hends with ⟨hc, hp⟩ | ⟨hp, hc⟩
    · rwa [hc, hp] at hjoins
    · rw [hc, hp] at hjoins
      exact hjoins.symm
  obtain ⟨gateway, linkId, hfind⟩ :=
    exists_findInterDomainLink (s.db.mem_listAllLinks.mpr hl) (h.usable hl hjoins') hjoins'
  obtain ⟨link, hlink, -, hjoins, rfl, hgateway, -⟩ := findInterDomainLink_eq_some hfind
  obtain ⟨gateway', hfind'⟩ := findInterDomainLink_swap hfind
  obtain ⟨_, -, -, -, -, hgateway', -⟩ := findInterDomainLink_eq_some hfind'
  exact ⟨link, s.db.mem_listAllLinks.mp hlink, hjoins, ⟨gateway, hgateway, hfind⟩, gateway',
    hgateway', hfind'⟩

theorem mem_upwardExpansion :
    r ∈ upwardExpansion s.segmentGraphs s.db.listNodes s.db.listAllLinks root name ↔
      r ∈ upwardRoutes s.db.listNodes s.db.listAllLinks root name graph := by
  obtain ⟨_, hsegment⟩ := h.segment
  simp [upwardExpansion, hsegment]

theorem mem_downwardExpansion {announcer : String} :
    r ∈ downwardExpansion s.segmentGraphs s.db.listNodes s.db.listAllLinks root announcer name ↔
      domainOf s.db.listNodes root ≠ domainOf s.db.listNodes announcer ∧
        r ∈ downwardRoutes s.db.listNodes s.db.listAllLinks root announcer name graph := by
  obtain ⟨_, hsegment⟩ := h.segment
  by_cases heq : domainOf s.db.listNodes root = domainOf s.db.listNodes announcer
  · simp [downwardExpansion, heq]
  · simp [downwardExpansion, hsegment]

theorem wellNamed {dest : String} (hr : OverLink s.db.listNodes s.db.listAllLinks name dest r) :
    WellNamed (· = name) r ∧ r.sourceNodeId ≠ ALL_NODES_ID :=
  hr.wellNamed rfl fun n hn => (h.nodeIds n (s.db.mem_listNodes.mp hn)).2

end SoleSegment

/-! ## The routes that are installed -/

def firstRoutes (s : RouteService) (name : RouteName) (root : String) : List Route :=
  announcementRoute s.db root name ::
    upwardExpansion s.segmentGraphs s.db.listNodes s.db.listAllLinks root name

def laterRoutes (s : RouteService) (name : RouteName) (root announcer : String) : List Route :=
  announcementRoute s.db announcer name ::
    downwardExpansion s.segmentGraphs s.db.listNodes s.db.listAllLinks root announcer name

variable {E : Env} {s s' : RouteService} {graph : UnGraph} {name : RouteName} {root : String}
  {others : List String}

/-- One later announcement: the first announcer is the root. -/
theorem run_announce_later {announcer : String} (h : SoleSegment s graph)
    (hannouncer : InSegment s graph announcer) (hadds : Adds E routes s s')
    (hleads : Leads s'.db name root) :
    ∃ r s'', (addRoute E ALL_NODES_ID announcer ⟨some name, none⟩).run s' = (.ok r, s'') ∧
      Adds E (laterRoutes s name root announcer) s' s'' := by
  obtain ⟨d, -, hd⟩ := hannouncer
  obtain ⟨hempty, hall⟩ := h.id_ne hd
  obtain ⟨r, s'', hrun, hadds'⟩ := run_addRoute_announce hempty hall name none s'
  refine ⟨r, s'', hrun, ?_⟩
  have hannouncement : announcementRoute s'.db announcer name = announcementRoute s.db announcer
      name := by
    simp [announcementRoute, Database.getNode, hadds.only.nodes]
  have hexpansion : announcementExpansion s' announcer name =
      downwardExpansion s.segmentGraphs s.db.listNodes s.db.listAllLinks root announcer name := by
    simp [announcementExpansion, hleads.query, hadds.only.listNodes, hadds.only.listAllLinks,
      hadds.only.segmentGraphs]
  rwa [hannouncement, hexpansion] at hadds'

theorem run_announceAll_later (hclock : StrictMono E.clock) (h : SoleSegment s graph)
    (hothers : ∀ a ∈ others, InSegment s graph a) (hadds : Adds E routes s s') (htimed : Timed E s')
    (hleads : Leads s'.db name root) :
    Adds E (routes ++ others.flatMap (laterRoutes s name root)) s
      ((announceAll E name others).run s').2 := by
  induction others generalizing s' routes with
  | nil => simpa [announceAll] using hadds
  | cons a others ih =>
    obtain ⟨r, s'', hrun, hadds'⟩ :=
      run_announce_later h (hothers a List.mem_cons_self) hadds hleads
    have hrest := ih (fun b hb => hothers b (List.mem_cons_of_mem a hb)) (hadds.trans hadds')
      (hadds'.timed htimed) (hadds'.leads hclock htimed hleads)
    have heq : ((announceAll E name (a :: others)).run s').2 =
        ((announceAll E name others).run s'').2 := by
      simp [announceAll, hrun]
    rw [heq, List.flatMap_cons, ← List.append_assoc]
    exact hrest

theorem run_announceAll (hclock : StrictMono E.clock) (h : SoleSegment s graph)
    (hroot : InSegment s graph root) (hothers : ∀ a ∈ others, InSegment s graph a) :
    Adds E (firstRoutes s name root ++ others.flatMap (laterRoutes s name root)) s
      ((announceAll E name (root :: others)).run s).2 := by
  obtain ⟨d, -, hd⟩ := hroot
  obtain ⟨hempty, hall⟩ := h.id_ne hd
  obtain ⟨r, s', hrun, hadds⟩ := run_addRoute_announce (E := E) hempty hall name none s
  have hnone : s.db.announcements name = [] :=
    List.eq_nil_iff_forall_not_mem.mpr (by simp [mem_announcements, h.noRoutes])
  have hexpansion : announcementExpansion s root name =
      upwardExpansion s.segmentGraphs s.db.listNodes s.db.listAllLinks root name := by
    simp [announcementExpansion, Database.getDestinationNodeIdForName, hnone]
  rw [hexpansion] at hadds
  have hrows : RowsOk (· = name) s.db := by simp [RowsOk, h.noRoutes]
  have htimed : Timed E s := by simp [Timed, h.noRoutes]
  have hleads : Leads s'.db name root :=
    hadds.leads_first (fun _ _ hn hn' _ _ _ _ => hn.trans hn'.symm) hrows rfl
      (fun r hr => h.wellNamed (overLink_upwardExpansion hr)) hnone
  have heq : ((announceAll E name (root :: others)).run s).2 =
      ((announceAll E name others).run s').2 := by
    simp [announceAll, hrun]
  rw [heq]
  exact run_announceAll_later hclock h hothers hadds (hadds.timed htimed) hleads

/-- A domain has a route over a link if one was added. -/
theorem mem_routedLinks_of_adds (h : SoleSegment s graph) (hadds : Adds E routes s s')
    (hroutes : ∀ r ∈ routes, WellNamed (· = name) r) {d : String} :
    linkId ∈ routedLinks s'.db name d ↔
      ∃ r ∈ routes, inDomain s.db.listNodes d r.sourceNodeId = true ∧ r.linkId = some linkId := by
  have hrows : RowsOk (· = name) s'.db :=
    hadds.rowsOk (by simp [RowsOk, h.noRoutes]) hroutes
  rw [mem_routedLinks, hadds.only.listNodes]
  constructor
  · rintro ⟨x, hx, -, -, hd, hlink⟩
    rcases hadds.source x hx with hx | ⟨r, hr, t, -, -, -, rfl⟩
    · simp [h.noRoutes] at hx
    · exact ⟨r, hr, hd, hlink⟩
  · rintro ⟨r, hr, hd, hlink⟩
    obtain ⟨x, hx, hlive, hsource, -, hname, hxlink⟩ :=
      hrows.exists_row (fun _ _ hn hn' _ _ _ _ => hn.trans hn'.symm) (hroutes r hr)
        (hadds.added r hr)
    exact ⟨x, hx, hlive, hname.trans (hroutes r hr).1, hsource ▸ hd, hxlink.trans hlink⟩

/-- The link from a domain to its parent. -/
def upLink (s : RouteService) (graph : UnGraph) (root c : String) : String :=
  ((parentDomain graph root c).bind fun p =>
    (findInterDomainLinkFromCache c p s.db.listNodes s.db.listAllLinks).map Prod.snd).getD ""

theorem upLink_eq {c p gateway : String} (hp : parentDomain graph root c = some p)
    (hfind : findInterDomainLinkFromCache c p s.db.listNodes s.db.listAllLinks =
      some (gateway, linkId)) :
    upLink s graph root c = linkId := by
  simp [upLink, hp, hfind]

namespace SoleSegment

variable (h : SoleSegment s graph)

include h

theorem far_eq {a b : String} {link : Link} (hlink : link ∈ s.db.links)
    (hjoins : Joins s.db.listNodes a b link) (hne : a ≠ b) :
    farDomain s.db.listNodes s.db.listAllLinks a link.linkId = some b :=
  farDomain_eq (by simpa using h.linkIds) (s.db.mem_listAllLinks.mpr hlink) hjoins hne

theorem upLink_injective {c c' : String} (hc : (parentDomain graph root c).isSome)
    (hc' : (parentDomain graph root c').isSome)
    (heq : upLink s graph root c = upLink s graph root c') : c = c' := by
  obtain ⟨p, hp⟩ := Option.isSome_iff_exists.mp hc
  obtain ⟨p', hp'⟩ := Option.isSome_iff_exists.mp hc'
  obtain ⟨link, hlink, hjoins, ⟨gateway, -, hfind⟩, -⟩ := h.exists_link hp
  obtain ⟨link', hlink', hjoins', ⟨gateway', -, hfind'⟩, -⟩ := h.exists_link hp'
  rw [upLink_eq hp hfind, upLink_eq hp' hfind'] at heq
  obtain rfl := h.linkIds link hlink link' hlink' heq
  rcases hjoins.unique hjoins' with ⟨hcc, -⟩ | ⟨hcp, hpc⟩
  · exact hcc
  · -- each would be the other's parent
    have hlt := rankOf_lt h.plain hp
    have hlt' := rankOf_lt h.plain hp'
    rw [hcp, hpc] at hlt
    omega

theorem below_root (hroot : root ∈ graph.nodes) {d : String} (hd : d ∈ graph.nodes) :
    Below (parentDomain graph root) d root := by
  induction hrank : rankOf graph root d using Nat.strong_induction_on generalizing d with
  | _ n ih =>
    by_cases hne : d = root
    · rw [hne]
      exact Relation.ReflTransGen.refl
    · obtain ⟨p, hp⟩ := Option.isSome_iff_exists.mp
        ((parentDomain_isSome_iff h.plain).mpr ⟨hne, h.connected root hroot d hd⟩)
      have hlt := rankOf_lt h.plain hp
      have hpmem := (mem_nodes_of_parentDomain h.plain hp).2
      exact Relation.ReflTransGen.head hp (ih _ (hrank ▸ hlt) hpmem rfl)

theorem wellNamed_installed {r : Route}
    (hr : r ∈ firstRoutes s name root ++ others.flatMap (laterRoutes s name root)) :
    WellNamed (· = name) r := by
  have hannouncement : ∀ a, WellNamed (· = name) (announcementRoute s.db a name) := fun a =>
    ⟨rfl, iff_of_true rfl rfl⟩
  rcases List.mem_append.mp hr with hr | hr
  · rcases List.mem_cons.mp hr with rfl | hr
    · exact hannouncement root
    · exact (h.wellNamed (overLink_upwardExpansion hr)).1
  · obtain ⟨a, -, hr⟩ := List.mem_flatMap.mp hr
    rcases List.mem_cons.mp hr with rfl | hr
    · exact hannouncement a
    · exact (h.wellNamed (overLink_downwardExpansion hr)).1

/-- The routes that were added over links: to the parents, and down to later announcers. -/
theorem mem_installed {d : String} :
    (∃ r ∈ firstRoutes s name root ++ others.flatMap (laterRoutes s name root),
      inDomain s.db.listNodes d r.sourceNodeId = true ∧ r.linkId = some linkId) ↔
    (∃ p gateway, parentDomain graph (domainOf s.db.listNodes root) d = some p ∧
      findInterDomainLinkFromCache d p s.db.listNodes s.db.listAllLinks = some (gateway, linkId)) ∨
    ∃ a ∈ others, ∃ c gateway, domainOf s.db.listNodes root ≠ domainOf s.db.listNodes a ∧
      Below (parentDomain graph (domainOf s.db.listNodes root)) (domainOf s.db.listNodes a) c ∧
      parentDomain graph (domainOf s.db.listNodes root) c = some d ∧
      findInterDomainLinkFromCache d c s.db.listNodes s.db.listAllLinks = some
        (gateway, linkId) := by
  constructor
  · rintro ⟨r, hr, hd, hlink⟩
    rcases List.mem_append.mp hr with hr | hr
    · rcases List.mem_cons.mp hr with rfl | hr
      · cases hlink
      · obtain ⟨d', p, gateway, linkId', hp, hfind, rfl⟩ :=
          (mem_upwardRoutes h.plain).mp (h.mem_upwardExpansion.mp hr)
        obtain ⟨_, -, -, -, -, hgateway, -⟩ := findInterDomainLink_eq_some hfind
        obtain rfl := inDomain_unique hgateway hd
        obtain rfl := Option.some.inj hlink
        exact .inl ⟨p, gateway, hp, hfind⟩
    · obtain ⟨a, ha, hr⟩ := List.mem_flatMap.mp hr
      rcases List.mem_cons.mp hr with rfl | hr
      · cases hlink
      · obtain ⟨hne, hr⟩ := h.mem_downwardExpansion.mp hr
        obtain ⟨c, p, gateway, linkId', hbelow, hp, hfind, rfl⟩ :=
          (mem_downwardRoutes h.plain).mp hr
        obtain ⟨_, -, -, -, -, hgateway, -⟩ := findInterDomainLink_eq_some hfind
        obtain rfl := inDomain_unique hgateway hd
        obtain rfl := Option.some.inj hlink
        exact .inr ⟨a, ha, c, gateway, hne, hbelow, hp, hfind⟩
  · rintro (⟨p, gateway, hp, hfind⟩ | ⟨a, ha, c, gateway, hne, hbelow, hp, hfind⟩)
    · obtain ⟨_, -, -, -, -, hgateway, -⟩ := findInterDomainLink_eq_some hfind
      refine ⟨_, List.mem_append_left _ (List.mem_cons_of_mem _ (h.mem_upwardExpansion.mpr
        ((mem_upwardRoutes h.plain).mpr ⟨d, p, gateway, linkId, hp, hfind, rfl⟩))), hgateway, rfl⟩
    · obtain ⟨_, -, -, -, -, hgateway, -⟩ := findInterDomainLink_eq_some hfind
      refine ⟨_, List.mem_append_right _ (List.mem_flatMap.mpr ⟨a, ha, List.mem_cons_of_mem _
        (h.mem_downwardExpansion.mpr ⟨hne, (mem_downwardRoutes h.plain).mpr
          ⟨c, d, gateway, linkId, hbelow, hp, hfind, rfl⟩⟩)⟩), hgateway, rfl⟩

theorem mem_hops_installed
    (hadds : Adds E (firstRoutes s name root ++ others.flatMap (laterRoutes s name root)) s s')
    {d w : String} : (linkId, w) ∈ hops s'.db name d ↔
      parentDomain graph (domainOf s.db.listNodes root) d = some w ∧
        linkId = upLink s graph (domainOf s.db.listNodes root) d ∨
      parentDomain graph (domainOf s.db.listNodes root) w = some d ∧
        linkId = upLink s graph (domainOf s.db.listNodes root) w ∧
        ∃ a ∈ others, domainOf s.db.listNodes root ≠ domainOf s.db.listNodes a ∧
          Below (parentDomain graph (domainOf s.db.listNodes root))
            (domainOf s.db.listNodes a) w := by
  have hne : ∀ {c p : String}, parentDomain graph (domainOf s.db.listNodes root) c = some p →
      c ≠ p := by
    rintro c p hp rfl
    exact lt_irrefl _ (rankOf_lt h.plain hp)
  rw [mem_hops, hadds.only.listNodes, hadds.only.listAllLinks,
    mem_routedLinks_of_adds h hadds fun r => h.wellNamed_installed, h.mem_installed]
  constructor
  · rintro ⟨⟨p, gateway, hp, hfind⟩ | ⟨a, ha, c, gateway, hroot, hbelow, hp, hfind⟩, hfar⟩
    · obtain ⟨link, hlink, -, hjoins, rfl, -, -⟩ := findInterDomainLink_eq_some hfind
      obtain rfl := Option.some.inj
        ((h.far_eq (s.db.mem_listAllLinks.mp hlink) hjoins (hne hp)).symm.trans hfar)
      exact .inl ⟨hp, (upLink_eq hp hfind).symm⟩
    · obtain ⟨link, hlink, -, hjoins, rfl, -, -⟩ := findInterDomainLink_eq_some hfind
      obtain rfl := Option.some.inj
        ((h.far_eq (s.db.mem_listAllLinks.mp hlink) hjoins (hne hp).symm).symm.trans hfar)
      obtain ⟨gateway', hfind'⟩ := findInterDomainLink_swap hfind
      exact .inr ⟨hp, (upLink_eq hp hfind').symm, a, ha, hroot, hbelow⟩
  · rintro (⟨hp, rfl⟩ | ⟨hp, rfl, a, ha, hroot, hbelow⟩)
    · obtain ⟨link, hlink, hjoins, ⟨gateway, -, hfind⟩, -⟩ := h.exists_link hp
      rw [upLink_eq hp hfind]
      exact ⟨.inl ⟨w, gateway, hp, hfind⟩, h.far_eq hlink hjoins (hne hp)⟩
    · obtain ⟨link, hlink, hjoins, ⟨gateway, -, hfind⟩, gateway', -, hfind'⟩ := h.exists_link hp
      rw [upLink_eq hp hfind]
      exact ⟨.inr ⟨a, ha, w, gateway', hroot, hbelow, hp, hfind'⟩,
        h.far_eq hlink hjoins.symm (hne hp).symm⟩

/-- The installed routes are routes on the tree of the first announcer. -/
theorem oriented (hroot : domainOf s.db.listNodes root ∈ graph.nodes)
    (hothers : ∀ a ∈ others, domainOf s.db.listNodes a ∈ graph.nodes)
    (hadds : Adds E (firstRoutes s name root ++ others.flatMap (laterRoutes s name root)) s s') :
    Oriented (hops s'.db name) (parentDomain graph (domainOf s.db.listNodes root))
      (upLink s graph (domainOf s.db.listNodes root))
      (rankOf graph (domainOf s.db.listNodes root)) graph.nodes.length (· ∈ graph.nodes)
      (fun x => ∃ a ∈ root :: others, domainOf s.db.listNodes a = x) := by
  have hmem : ∀ d linkId w, (linkId, w) ∈ hops s'.db name d ↔ _ := fun d linkId w =>
    h.mem_hops_installed hadds
  have hnone : parentDomain graph (domainOf s.db.listNodes root) (domainOf s.db.listNodes root) =
      none := by
    rw [← Option.not_isSome_iff_eq_none, parentDomain_isSome_iff h.plain]
    exact fun hsome => hsome.1 rfl
  exact
    { rank_lt := fun c p hp => rankOf_lt h.plain hp
      rank_le := fun d => rankOf_le h.plain
      up_inj := fun c c' hc hc' heq => h.upLink_injective hc hc' heq
      nodup := fun d => nodup_hops _ _ _
      hop := by
        intro d linkId w hhop
        rcases (hmem d linkId w).mp hhop with hup | ⟨hp, hlink, -⟩
        · exact .inl hup
        · exact .inr ⟨hp, hlink⟩
      upward := fun d p _ hp => (hmem d _ p).mpr (.inl ⟨hp, rfl⟩)
      downward := by
        rintro _ c d ⟨a, ha, rfl⟩ hbelow hp
        have hne : domainOf s.db.listNodes root ≠ domainOf s.db.listNodes a := by
          intro heq
          rw [← heq] at hbelow
          exact no_edge_above hnone ⟨hbelow, hp⟩
        rcases List.mem_cons.mp ha with rfl | ha
        · exact absurd rfl hne
        · exact (hmem d _ c).mpr (.inr ⟨hp, rfl, a, ha, hne, hbelow⟩)
      closed := by
        rintro d - ⟨linkId, w⟩ hhop
        rcases (hmem d linkId w).mp hhop with ⟨hp, -⟩ | ⟨hp, -⟩
        · exact (mem_nodes_of_parentDomain h.plain hp).2
        · exact (mem_nodes_of_parentDomain h.plain hp).1
      top := by
        rintro d hd hparent _ ⟨a, ha, rfl⟩
        -- a domain without a parent is the root
        have hdroot : d = domainOf s.db.listNodes root := by
          by_contra hne
          have hsome := (parentDomain_isSome_iff h.plain).mpr ⟨hne, h.connected _ hroot d hd⟩
          rw [hparent] at hsome
          cases hsome
        rw [hdroot]
        refine h.below_root hroot ?_
        rcases List.mem_cons.mp ha with rfl | ha
        · exact hroot
        · exact hothers a ha }

end SoleSegment

/-- Once some nodes of the segment have announced a name, one after the other: a message for the
name visits no domain twice, from whichever domain it starts, and comes to every announcer. -/
theorem forward_visits_once (hclock : StrictMono E.clock) (h : SoleSegment s graph)
    (announcers : List String) (hannouncers : ∀ a ∈ announcers, InSegment s graph a) (d : String)
    (hd : d ∈ graph.nodes) :
    ∃ fuel visited,
      (∀ fuel', fuel ≤ fuel' →
        forward ((announceAll E name announcers).run s).2.db name fuel' d = some visited) ∧
      visited.Nodup ∧
      ∀ a ∈ announcers, domainOf s.db.listNodes a ≠ d → domainOf s.db.listNodes a ∈ visited := by
  have hdomain : ∀ a ∈ announcers, domainOf s.db.listNodes a ∈ graph.nodes := by
    intro a ha
    obtain ⟨d, hd, hin⟩ := hannouncers a ha
    rwa [show domainOf s.db.listNodes a = d from domainOf_of_inDomain hin]
  cases announcers with
  | nil =>
    -- without routes the message stays where it is
    have hhops : ∀ x, hops s.db name x = [] := by
      intro x
      simp [hops, routedLinks, h.noRoutes]
    refine ⟨1, [d], ?_, by simp, by simp⟩
    intro fuel hfuel
    obtain ⟨fuel, rfl⟩ : ∃ n, fuel = n + 1 := ⟨fuel - 1, by omega⟩
    simp [forward, visits, announceAll, hhops]
  | cons root others =>
    have hadds : Adds E (firstRoutes s name root ++ others.flatMap (laterRoutes s name root)) s _ :=
      run_announceAll hclock h (hannouncers root List.mem_cons_self)
        fun a ha => hannouncers a (List.mem_cons_of_mem root ha)
    have horiented := h.oriented (hdomain root List.mem_cons_self)
      (fun a ha => hdomain a (List.mem_cons_of_mem root ha)) hadds
    obtain ⟨fuel, visited, hvisits, hnodup, hwanted⟩ := horiented.visits_eq hd
    exact ⟨fuel, visited, hvisits, hnodup, fun a ha _ => hwanted _ ⟨a, ha, rfl⟩⟩

def sampleChainGraph : UnGraph :=
  .ofEdges ["a", "b", "c"] [⟨0, 1, 1⟩, ⟨1, 2, 1⟩] (by decide)

def sampleChain : RouteService where
  db :=
    { nodes := ⟨[⟨"node-a", some "a", [], 0, 0⟩, ⟨"node-b", some "b", [], 0, 0⟩,
        ⟨"node-c", some "c", [], 0, 0⟩], by decide⟩
      links := ⟨[sampleLink "node-a" "a" "node-b" "b", sampleLink "node-b" "b" "node-c" "c"],
        by decide +kernel⟩ }
  segmentGraphs := [("default", sampleChainGraph)]

theorem sampleChainGraph_plain : sampleChainGraph.Plain := ⟨by decide, by decide, by decide⟩

theorem sampleChain_soleSegment : SoleSegment sampleChain sampleChainGraph where
  segment := ⟨"default", rfl⟩
  plain := sampleChainGraph_plain
  connected a ha b hb := connected_of_connectedB sampleChainGraph_plain <| (by decide +kernel :
    ∀ a ∈ sampleChainGraph.nodes, ∀ b ∈ sampleChainGraph.nodes, connectedB sampleChainGraph a b =
      true) a ha b hb
  hasNode := by decide +kernel
  oneNode := by simp [sampleChain, Table.mem_def]
  nodeIds := by decide +kernel
  linked := by decide +kernel
  applied := by decide +kernel
  linkIds := by decide +kernel
  noRoutes := rfl

theorem forward_visits_once_chain : ∃ fuel visited,
    (∀ fuel', fuel ≤ fuel' → forward ((announceAll Env.plain ⟨"org", "ns", "svc", none⟩
      ["node-a", "node-c", "node-a"]).run sampleChain).2.db ⟨"org", "ns", "svc", none⟩ fuel' "b" =
        some visited) ∧
    visited.Nodup ∧
    ∀ a ∈ ["node-a", "node-c", "node-a"], domainOf sampleChain.db.listNodes a ≠ "b" →
      domainOf sampleChain.db.listNodes a ∈ visited :=
  forward_visits_once Env.plain_clock sampleChain_soleSegment ["node-a", "node-c", "node-a"]
    (by unfold InSegment; decide +kernel) "b" (by decide)

example : forward ((announceAll Env.plain ⟨"org", "ns", "svc", none⟩
    ["node-a", "node-c", "node-a"]).run sampleChain).2.db ⟨"org", "ns", "svc", none⟩ 3 "b" =
      some ["b", "a", "c"] := by decide +kernel

end Slim.RouteService
