import Slim.RouteService.Proof.Departure
import Slim.RouteService.Proof.Gateways
import Slim.RouteService.Proof.Root

/-!
# Which domains have a route

A domain should have a route for a name exactly if a segment connects it with the domain of a node
that announces the name (`RoutesReach`). The routes of a name are those of the tree of its first
announcer and of the paths down to the others, so this holds as long as

* every domain that can reach an announcer can reach the first one, also in other segments;
* the first announcer does not go while others remain: nothing is expanded again then;
* no domain with others below it leaves.

`routes_reach` is the induction over whole runs, with these conditions on the steps. What a step
that only takes away does to the routes of one name is `NameOk.shrink`; it is used for withdrawals,
departures, and steps about other names.
-/

namespace Slim.RouteService

open Db ShortestPath Forwarding Relation

/-! ## What is asked for -/

def LiveJoin (s : RouteService) (a b : String) : Prop :=
  ∃ l ∈ s.db.links, l.live = true ∧ Joins s.db.listNodes a b l

def Adjacent (graph : UnGraph) (a b : String) : Prop :=
  ∃ e ∈ graph.edges, domainAt graph e.source = a ∧ domainAt graph e.target = b ∨
    domainAt graph e.source = b ∧ domainAt graph e.target = a

def LinkStep (s : RouteService) (graph : UnGraph) (a b : String) : Prop :=
  Adjacent graph a b ∧ LiveJoin s a b

def Connects (s : RouteService) (graph : UnGraph) : String → String → Prop :=
  ReflTransGen (LinkStep s graph)

def Announces (db : Database) (name : RouteName) (nodeId : String) : Prop :=
  ∃ r ∈ db.announcements name, r.destNodeId = nodeId

/-- The gateway of the domain has a route for the name, over a link that is not deleted. -/
def HasRoute (db : Database) (name : RouteName) (d : String) : Prop :=
  ∃ r ∈ db.routes, r.status ≠ .Deleted ∧ r.name = name ∧ inDomain db.listNodes d r.sourceNodeId =
    true ∧ ∃ l ∈ db.links, l.live = true ∧ r.linkId = some l.linkId

/-- A domain has a route exactly if a segment connects it with another domain that has an
announcer. -/
def RoutesReach (s : RouteService) (name : RouteName) : Prop :=
  ∀ d, HasRoute s.db name d ↔ ∃ seg ∈ s.segmentGraphs, ∃ a, Announces s.db name a ∧
    domainOf s.db.listNodes a ≠ d ∧ Connects s seg.2 d (domainOf s.db.listNodes a)

theorem announces_iff {db : Database} {name : RouteName} {nodeId : String} :
    Announces db name nodeId ↔ ∃ r ∈ db.routes, r.sourceNodeId = ALL_NODES_ID ∧
      r.status ≠ .Deleted ∧ r.name = name ∧ r.destNodeId = nodeId := by
  simp [Announces, mem_announcements, and_assoc]

section Links

variable {s : RouteService} {graph : UnGraph} {a b : String}

theorem LiveJoin.symm (h : LiveJoin s a b) : LiveJoin s b a := by
  obtain ⟨l, hl, hlive, hjoins⟩ := h
  exact ⟨l, hl, hlive, hjoins.symm⟩

theorem Adjacent.symm (h : Adjacent graph a b) : Adjacent graph b a := by
  obtain ⟨e, he, hends⟩ := h
  exact ⟨e, he, hends.symm⟩

theorem LinkStep.symm (h : LinkStep s graph a b) : LinkStep s graph b a := ⟨h.1.symm, h.2.symm⟩

theorem Connects.symm (h : Connects s graph a b) : Connects s graph b a := by
  induction h with
  | refl => exact .refl
  | tail _ hstep ih => exact .head hstep.symm ih

section
variable (hplain : graph.Plain)
include hplain

theorem Adjacent.connected {r : String} (h : Adjacent graph a b)
    (hr : Connected graph r a) : Connected graph r b := by
  obtain ⟨i, j, hi, hj, hreach⟩ := hr
  obtain ⟨e, he, hends⟩ := h
  obtain ⟨hs, ht⟩ := graph.inBounds e he
  obtain ⟨n, hn⟩ := hreach
  rcases hends with ⟨rfl, rfl⟩ | ⟨rfl, rfl⟩
  · obtain rfl := Option.some.inj ((indexOf_domainAt hplain hs).symm.trans hj)
    exact ⟨i, e.target, hi, indexOf_domainAt hplain ht, _,
      hn.snoc ⟨e, he, rfl, .inl ⟨rfl, rfl⟩⟩⟩
  · obtain rfl := Option.some.inj ((indexOf_domainAt hplain ht).symm.trans hj)
    have harc : graph.Arc e.source e.target e.weight :=
      ⟨e, he, rfl, .inl ⟨rfl, rfl⟩⟩
    exact ⟨i, e.source, hi, indexOf_domainAt hplain hs, _, hn.snoc harc.symm⟩

theorem Adjacent.mem (h : Adjacent graph a b) : ∃ i, graph.indexOf a = some i := by
  obtain ⟨e, he, hends⟩ := h
  obtain ⟨hs, ht⟩ := graph.inBounds e he
  rcases hends with ⟨rfl, -⟩ | ⟨-, rfl⟩
  · exact ⟨_, indexOf_domainAt hplain hs⟩
  · exact ⟨_, indexOf_domainAt hplain ht⟩

theorem Connects.parent_isSome {root : String} (h : Connects s graph a root)
    (hne : a ≠ root) : (parentDomain graph root a).isSome := by
  refine (parentDomain_isSome_iff hplain).mpr ⟨hne, ?_⟩
  have hsymm := h.symm
  -- walk from the root; the first step shows that it is in the graph
  suffices hwalk : ∀ {b : String}, Connects s graph root b → b ≠ root → Connected graph root b from
    hwalk hsymm hne
  intro b hb
  induction hb with
  | refl => exact fun hne => absurd rfl hne
  | @tail y z hwalk hstep ih =>
    intro _
    by_cases hy : y = root
    · subst hy
      obtain ⟨i, hi⟩ := hstep.1.mem hplain
      exact hstep.1.connected hplain ⟨i, i, hi, hi, 0, .nil⟩
    · exact hstep.1.connected hplain (ih hy)

theorem parent_root_or_isSome {root d p : String}
    (h : parentDomain graph root d = some p) : p = root ∨ (parentDomain graph root p).isSome := by
  by_cases hp : p = root
  · exact .inl hp
  · refine .inr ((parentDomain_isSome_iff hplain).mpr ⟨hp, ?_⟩)
    obtain ⟨-, hd⟩ := (parentDomain_isSome_iff hplain).mp (by rw [h]; rfl)
    have hadj : Adjacent graph d p := edge_of_parentDomain hplain h
    exact hadj.connected hplain hd

end

end Links

/-! ## What the steps keep -/

/-- The nodes, links and segments: one node in each domain, and links that are established until
they are deleted. -/
structure Network (s : RouteService) : Prop where
  plain : ∀ seg ∈ s.segmentGraphs, seg.2.Plain
  oneNode : ∀ n ∈ s.db.nodes, ∀ n' ∈ s.db.nodes, ∀ d, n.domainName = some d →
    n'.domainName = some d → n = n'
  nodeIds : ∀ n ∈ s.db.nodes, n.id ≠ "" ∧ n.id ≠ ALL_NODES_ID
  status : ∀ l ∈ s.db.links, l.status = .Applied ∨ l.status = .Deleted
  linkIds : ∀ l ∈ s.db.links, ∀ l' ∈ s.db.links, l.linkId = l'.linkId → l = l'
  fields : ∀ l ∈ s.db.links, l.missingFields = false
  sourceDomain : ∀ l ∈ s.db.links, ∀ d, inDomain s.db.listNodes d l.sourceNodeId = true →
    l.sourceDomain = d
  destDomain : ∀ l ∈ s.db.links, ∀ d, inDomain s.db.listNodes d l.destNodeId = true →
    l.destDomain = d

def HasLink (s : RouteService) (graph : UnGraph) (d : String) : Prop := ∃ y, LinkStep s graph d y

/-- The route `r` for the name is over a live link between `c` and `p`. -/
structure Over (s : RouteService) (name : RouteName) (r : Route) (c p : String) : Prop where
  mem : r ∈ s.db.routes
  live : r.status ≠ .Deleted
  name_eq : r.name = name
  link : ∃ l ∈ s.db.links, l.live = true ∧ r.linkId = some l.linkId ∧ Joins s.db.listNodes c p l

/-- Announcers, and domains with any link of a segment, are linked to their parents. -/
def Attached (s : RouteService) (name : RouteName) (root : String) : Prop :=
  ∀ seg ∈ s.segmentGraphs, ∀ d p, parentDomain seg.2 (domainOf s.db.listNodes root) d = some p →
    (∃ a, Announces s.db name a ∧ domainOf s.db.listNodes a = d) ∨ HasLink s seg.2 d →
      LiveJoin s d p

/-- The routes of the name are those of the tree of `root`. -/
structure TreeOk (s : RouteService) (name : RouteName) (root : String) : Prop where
  /-- A route leads to the parent, or to a child above the announcer that it is for. -/
  sound : ∀ r ∈ s.db.routes, r.status ≠ .Deleted → r.name = name → r.sourceNodeId ≠ ALL_NODES_ID →
    ∀ l ∈ s.db.links, l.live = true → r.linkId = some l.linkId →
    ∃ seg ∈ s.segmentGraphs, ∃ c p,
      parentDomain seg.2 (domainOf s.db.listNodes root) c = some p ∧ Joins s.db.listNodes c p l ∧
      (inDomain s.db.listNodes c r.sourceNodeId = true ∨
        inDomain s.db.listNodes p r.sourceNodeId = true ∧
          Below (parentDomain seg.2 (domainOf s.db.listNodes root))
            (domainOf s.db.listNodes r.destNodeId) c)
  up : ∀ seg ∈ s.segmentGraphs, ∀ c p,
    parentDomain seg.2 (domainOf s.db.listNodes root) c = some p → LiveJoin s c p →
    ∃ r, Over s name r c p ∧ inDomain s.db.listNodes c r.sourceNodeId = true ∧ r.destNodeId = root
  down : ∀ seg ∈ s.segmentGraphs, ∀ a c p, Announces s.db name a →
    Below (parentDomain seg.2 (domainOf s.db.listNodes root)) (domainOf s.db.listNodes a) c →
    parentDomain seg.2 (domainOf s.db.listNodes root) c = some p → LiveJoin s c p →
    ∃ r, Over s name r c p ∧ inDomain s.db.listNodes p r.sourceNodeId = true ∧ r.destNodeId = a
  attached : Attached s name root
  /-- What can reach an announcer can reach the root. -/
  covered : ∀ a, Announces s.db name a → ∀ seg ∈ s.segmentGraphs, ∀ d,
    Connects s seg.2 d (domainOf s.db.listNodes a) → d ≠ domainOf s.db.listNodes a →
    d = domainOf s.db.listNodes root ∨
      ∃ seg' ∈ s.segmentGraphs, Connects s seg'.2 d (domainOf s.db.listNodes root)

/-- What holds of each name. -/
structure NameOk (s : RouteService) (name : RouteName) : Prop where
  dests : ∀ r ∈ s.db.routes, r.status ≠ .Deleted → r.name = name → r.sourceNodeId ≠ ALL_NODES_ID →
    Announces s.db name r.destNodeId
  registered : ∀ a, Announces s.db name a → ∃ d, inDomain s.db.listNodes d a = true
  leads : (∃ a, Announces s.db name a) → ∃ root, Leads s.db name root
  tree : ∀ root, Leads s.db name root → TreeOk s name root

/-! ## The routes reach -/

section Reach

variable {s : RouteService} {name : RouteName} {root : String} {seg : Segment} {d : String}

theorem Leads.announces (h : Leads s.db name root) : Announces s.db name root := by
  obtain ⟨first, hmem, hdest, -⟩ := h
  exact ⟨first, hmem, hdest⟩

/-- A domain in the tree that is attached is connected with the root. -/
theorem Attached.connects (hnet : Network s) (h : Attached s name root)
    (hseg : seg ∈ s.segmentGraphs)
    (hd : (parentDomain seg.2 (domainOf s.db.listNodes root) d).isSome)
    (hattached : (∃ a, Announces s.db name a ∧ domainOf s.db.listNodes a = d) ∨ HasLink s seg.2 d) :
    Connects s seg.2 d (domainOf s.db.listNodes root) := by
  have hplain := hnet.plain seg hseg
  induction hrank : rankOf seg.2 (domainOf s.db.listNodes root) d using Nat.strong_induction_on
    generalizing d with
  | _ n ih =>
    obtain ⟨p, hp⟩ := Option.isSome_iff_exists.mp hd
    have hstep : LinkStep s seg.2 d p :=
      ⟨edge_of_parentDomain hplain hp, h seg hseg d p hp hattached⟩
    rcases parent_root_or_isSome hplain hp with rfl | hparent
    · exact .single hstep
    · exact .head hstep
        (ih _ (hrank ▸ rankOf_lt hplain hp) hparent (.inr ⟨d, hstep.symm⟩) rfl)

/-- Every edge of the tree above an announcer is linked. -/
theorem TreeOk.connects_below (hnet : Network s) (h : TreeOk s name root)
    (hseg : seg ∈ s.segmentGraphs) {a c : String} (ha : Announces s.db name a)
    (hbelow : Below (parentDomain seg.2 (domainOf s.db.listNodes root)) (domainOf s.db.listNodes a)
      c) :
    Connects s seg.2 (domainOf s.db.listNodes a) c ∧
      (c = domainOf s.db.listNodes a ∨ HasLink s seg.2 c) := by
  have hplain := hnet.plain seg hseg
  induction hbelow with
  | refl => exact ⟨.refl, .inl rfl⟩
  | @tail y z _ hparent ih =>
    obtain ⟨hconnects, hy⟩ := ih
    have hattached : (∃ a, Announces s.db name a ∧ domainOf s.db.listNodes a = y) ∨
        HasLink s seg.2 y := by
      rcases hy with rfl | hy
      · exact .inl ⟨a, ha, rfl⟩
      · exact .inr hy
    have hstep : LinkStep s seg.2 y z :=
      ⟨edge_of_parentDomain hplain hparent, h.attached seg hseg y z hparent hattached⟩
    exact ⟨hconnects.tail hstep, .inr ⟨y, hstep.symm⟩⟩

theorem Over.hasRoute {r : Route} {c p : String} (h : Over s name r c p)
    (hd : inDomain s.db.listNodes d r.sourceNodeId = true) : HasRoute s.db name d := by
  obtain ⟨l, hl, hlive, hlink, -⟩ := h.link
  exact ⟨r, h.mem, h.live, h.name_eq, hd, l, hl, hlive, hlink⟩

theorem TreeOk.hasRoute (hnet : Network s) (h : TreeOk s name root) (hseg : seg ∈ s.segmentGraphs)
    (hne : d ≠ domainOf s.db.listNodes root)
    (hconnects : Connects s seg.2 d (domainOf s.db.listNodes root)) : HasRoute s.db name d := by
  obtain ⟨p, hp⟩ := Option.isSome_iff_exists.mp (hconnects.parent_isSome (hnet.plain seg hseg) hne)
  have hlink : HasLink s seg.2 d := by
    rcases ReflTransGen.cases_head hconnects with heq | ⟨y, hstep, -⟩
    · exact absurd heq hne
    · exact ⟨y, hstep⟩
  obtain ⟨r, hover, hd, -⟩ := h.up seg hseg d p hp (h.attached seg hseg d p hp (.inr hlink))
  exact hover.hasRoute hd

/-- The root has a route if it is connected with another announcer. -/
theorem TreeOk.hasRoute_root (hnet : Network s) (h : TreeOk s name root)
    (hseg : seg ∈ s.segmentGraphs) {a : String} (ha : Announces s.db name a)
    (hne : domainOf s.db.listNodes a ≠ domainOf s.db.listNodes root)
    (hconnects : Connects s seg.2 (domainOf s.db.listNodes a) (domainOf s.db.listNodes root)) :
    HasRoute s.db name (domainOf s.db.listNodes root) := by
  have hplain := hnet.plain seg hseg
  have hsome := hconnects.parent_isSome hplain hne
  -- the announcer is below a child of the root
  have hroot : Below (parentDomain seg.2 (domainOf s.db.listNodes root)) (domainOf s.db.listNodes a)
      (domainOf s.db.listNodes root) := by
    generalize domainOf s.db.listNodes a = d at hsome
    induction hrank : rankOf seg.2 (domainOf s.db.listNodes root) d using Nat.strong_induction_on
      generalizing d with
    | _ n ih =>
      obtain ⟨p, hp⟩ := Option.isSome_iff_exists.mp hsome
      rcases parent_root_or_isSome hplain hp with rfl | hparent
      · exact .single hp
      · exact .head hp (ih _ (hrank ▸ rankOf_lt hplain hp) p hparent rfl)
  obtain ⟨c, hc, hbelow⟩ := hroot.child hne
  obtain ⟨-, hlinked⟩ := h.connects_below hnet hseg ha hbelow
  have hjoin : LiveJoin s c (domainOf s.db.listNodes root) := by
    refine h.attached seg hseg c _ hc ?_
    rcases hlinked with rfl | hlinked
    · exact .inl ⟨a, ha, rfl⟩
    · exact .inr hlinked
  obtain ⟨r, hover, hd, -⟩ := h.down seg hseg a c _ ha hbelow hc hjoin
  exact hover.hasRoute hd

/-- What the steps keep says which domains have a route. -/
theorem NameOk.routesReach (hnet : Network s) (h : NameOk s name)
    (hrows : ∀ r ∈ s.db.routes, r.sourceNodeId = ALL_NODES_ID → r.linkId = none) :
    RoutesReach s name := by
  intro d
  constructor
  · rintro ⟨r, hr, hlive, hname, hd, l, hl, hllive, hlink⟩
    have hall : r.sourceNodeId ≠ ALL_NODES_ID := fun hall => by simp [hrows r hr hall] at hlink
    have hdest := h.dests r hr hlive hname hall
    obtain ⟨root, hroot⟩ := h.leads ⟨_, hdest⟩
    have htree := h.tree root hroot
    obtain ⟨seg, hseg, c, p, hp, hjoins, hend⟩ :=
      htree.sound r hr hlive hname hall l hl hllive hlink
    have hplain := hnet.plain seg hseg
    have hstep : LinkStep s seg.2 c p := ⟨edge_of_parentDomain hplain hp, l, hl, hllive, hjoins⟩
    rcases hend with hc | ⟨hp', hbelow⟩
    · -- up: the root is reached
      obtain rfl := inDomain_unique hc hd
      have hsome : (parentDomain seg.2 (domainOf s.db.listNodes root) c).isSome := by rw [hp]; rfl
      refine ⟨seg, hseg, root, hroot.announces, ?_,
        htree.attached.connects hnet hseg hsome (.inr ⟨p, hstep⟩)⟩
      exact ((parentDomain_isSome_iff hplain).mp hsome).1.symm
    · -- down: the announcer of the route is reached
      obtain rfl := inDomain_unique hp' hd
      obtain ⟨hconnects, -⟩ := htree.connects_below hnet hseg hdest hbelow
      refine ⟨seg, hseg, r.destNodeId, hdest, ?_, .head hstep.symm hconnects.symm⟩
      intro heq
      rw [heq] at hbelow
      exact not_below_child (fun _ _ => rankOf_lt hplain) hp hbelow
  · rintro ⟨seg, hseg, a, ha, hne, hconnects⟩
    obtain ⟨root, hroot⟩ := h.leads ⟨a, ha⟩
    have htree := h.tree root hroot
    by_cases hd : d = domainOf s.db.listNodes root
    · subst hd
      exact htree.hasRoute_root hnet hseg ha hne hconnects.symm
    · rcases htree.covered a ha seg hseg d hconnects hne.symm with heq | ⟨seg', hseg', hconnects'⟩
      · exact absurd heq hd
      · exact htree.hasRoute hnet hseg' hd hconnects'

end Reach

/-! ## Steps that only take away -/

/-- The routes of the name to nodes in `gone` go, and the links and routes of nodes in `dead`. -/
structure Shrinks (gone dead : String → Prop) (name : RouteName) (s s' : RouteService) : Prop where
  graphs : s'.segmentGraphs = s.segmentGraphs
  node_of : ∀ d n, inDomain s'.db.listNodes d n = true → inDomain s.db.listNodes d n = true
  node_keep : ∀ d n, ¬ dead n → inDomain s.db.listNodes d n = true →
    inDomain s'.db.listNodes d n = true
  link_of : ∀ l ∈ s'.db.links, l.live = true →
    l ∈ s.db.links ∧ ¬ dead l.sourceNodeId ∧ ¬ dead l.destNodeId
  link_keep : ∀ l ∈ s.db.links, ¬ dead l.sourceNodeId → ¬ dead l.destNodeId → l ∈ s'.db.links
  route_of : ∀ r ∈ s'.db.routes, r.status ≠ .Deleted → r.name = name →
    r ∈ s.db.routes ∧ ¬ gone r.destNodeId ∧ ¬ dead r.sourceNodeId
  route_keep : ∀ r ∈ s.db.routes, r.status ≠ .Deleted → r.name = name → ¬ gone r.destNodeId →
    ¬ dead r.sourceNodeId → r ∈ s'.db.routes

def DeadDomain (dead : String → Prop) (s : RouteService) (d : String) : Prop :=
  ∃ n, dead n ∧ inDomain s.db.listNodes d n = true

namespace Shrinks

variable {gone dead : String → Prop} {name : RouteName} {s s' : RouteService} {a b d : String}

section
variable (h : Shrinks gone dead name s s')
include h

theorem domainOf_eq {n : String} (hn : ¬ dead n) (hd : inDomain s.db.listNodes d n = true) :
    domainOf s'.db.listNodes n = domainOf s.db.listNodes n :=
  (domainOf_of_inDomain (h.node_keep d n hn hd)).trans (domainOf_of_inDomain hd).symm

theorem announces_iff (hall : ¬ dead ALL_NODES_ID) {n : String} :
    Announces s'.db name n ↔ Announces s.db name n ∧ ¬ gone n := by
  simp only [RouteService.announces_iff]
  constructor
  · rintro ⟨r, hr, hsource, hlive, hname, rfl⟩
    obtain ⟨hr, hgone, -⟩ := h.route_of r hr hlive hname
    exact ⟨⟨r, hr, hsource, hlive, hname, rfl⟩, hgone⟩
  · rintro ⟨⟨r, hr, hsource, hlive, hname, rfl⟩, hgone⟩
    exact ⟨r, h.route_keep r hr hlive hname hgone (hsource ▸ hall), hsource, hlive, hname, rfl⟩

theorem liveJoin_of (hjoin : LiveJoin s' a b) : LiveJoin s a b := by
  obtain ⟨l, hl, hlive, hjoins⟩ := hjoin
  refine ⟨l, (h.link_of l hl hlive).1, hlive, ?_⟩
  exact hjoins.imp (fun ⟨hs, ht⟩ => ⟨h.node_of _ _ hs, h.node_of _ _ ht⟩)
    (fun ⟨hs, ht⟩ => ⟨h.node_of _ _ hs, h.node_of _ _ ht⟩)

theorem joins_keep {l : Link} (hsource : ¬ dead l.sourceNodeId)
    (hdest : ¬ dead l.destNodeId) (hjoins : Joins s.db.listNodes a b l) :
    Joins s'.db.listNodes a b l :=
  hjoins.imp (fun ⟨hs, ht⟩ => ⟨h.node_keep _ _ hsource hs, h.node_keep _ _ hdest ht⟩)
    (fun ⟨hs, ht⟩ => ⟨h.node_keep _ _ hsource hs, h.node_keep _ _ hdest ht⟩)

end

theorem not_dead_ends {l : Link} (ha : ¬ DeadDomain dead s a) (hb : ¬ DeadDomain dead s b)
    (hjoins : Joins s.db.listNodes a b l) : ¬ dead l.sourceNodeId ∧ ¬ dead l.destNodeId := by
  rcases hjoins with ⟨hs, ht⟩ | ⟨hs, ht⟩
  · exact ⟨fun hdead => ha ⟨_, hdead, hs⟩, fun hdead => hb ⟨_, hdead, ht⟩⟩
  · exact ⟨fun hdead => hb ⟨_, hdead, hs⟩, fun hdead => ha ⟨_, hdead, ht⟩⟩

theorem liveJoin_keep (h : Shrinks gone dead name s s') (ha : ¬ DeadDomain dead s a)
    (hb : ¬ DeadDomain dead s b) (hjoin : LiveJoin s a b) : LiveJoin s' a b := by
  obtain ⟨l, hl, hlive, hjoins⟩ := hjoin
  obtain ⟨hsource, hdest⟩ := not_dead_ends ha hb hjoins
  exact ⟨l, h.link_keep l hl hsource hdest, hlive, h.joins_keep hsource hdest hjoins⟩

theorem not_deadDomain (hnet : Network s) {n : String} (hn : ¬ dead n)
    (hd : inDomain s.db.listNodes d n = true) : ¬ DeadDomain dead s d := by
  rintro ⟨n', hdead, hd'⟩
  obtain ⟨m, hm, hmdomain, rfl⟩ := inDomain_listNodes.mp hd
  obtain ⟨m', hm', hmdomain', rfl⟩ := inDomain_listNodes.mp hd'
  rw [hnet.oneNode m hm m' hm' d hmdomain hmdomain'] at hn
  exact hn hdead

section
variable (h : Shrinks gone dead name s s')
include h

theorem not_deadDomain_of_liveJoin (hnet : Network s)
    (hjoin : LiveJoin s' a b) : ¬ DeadDomain dead s a ∧ ¬ DeadDomain dead s b := by
  obtain ⟨l, hl, hlive, hjoins⟩ := hjoin
  obtain ⟨-, hsource, hdest⟩ := h.link_of l hl hlive
  rcases hjoins with ⟨hs, ht⟩ | ⟨hs, ht⟩
  · exact ⟨not_deadDomain hnet hsource (h.node_of _ _ hs),
      not_deadDomain hnet hdest (h.node_of _ _ ht)⟩
  · exact ⟨not_deadDomain hnet hdest (h.node_of _ _ ht),
      not_deadDomain hnet hsource (h.node_of _ _ hs)⟩

theorem linkStep_of {graph : UnGraph} (hstep : LinkStep s' graph a b) : LinkStep s graph a b :=
  ⟨hstep.1, h.liveJoin_of hstep.2⟩

theorem connects_of {graph : UnGraph}
    (hconnects : Connects s' graph a b) : Connects s graph a b := by
  induction hconnects with
  | refl => exact .refl
  | tail _ hstep ih => exact .tail ih (h.linkStep_of hstep)

theorem over_keep {r : Route} (ha : ¬ DeadDomain dead s a)
    (hb : ¬ DeadDomain dead s b) (hover : Over s name r a b) (hgone : ¬ gone r.destNodeId)
    (hdead : ¬ dead r.sourceNodeId) : Over s' name r a b := by
  obtain ⟨l, hl, hlive, hlink, hjoins⟩ := hover.link
  obtain ⟨hsource, hdest⟩ := not_dead_ends ha hb hjoins
  exact ⟨h.route_keep r hover.mem hover.live hover.name_eq hgone hdead, hover.live, hover.name_eq,
    l, h.link_keep l hl hsource hdest, hlive, hlink, h.joins_keep hsource hdest hjoins⟩

theorem leads_keep (hall : ¬ dead ALL_NODES_ID) {root : String}
    (hroot : Leads s.db name root) (hgone : ¬ gone root) : Leads s'.db name root := by
  obtain ⟨first, hmem, rfl, hfirst⟩ := hroot
  obtain ⟨hrow, hsource, hlive, hname⟩ := mem_announcements.mp hmem
  have hrow' := h.route_keep first hrow hlive hname hgone (hsource ▸ hall)
  refine ⟨first, mem_announcements.mpr ⟨hrow', hsource, hlive, hname⟩, rfl, fun x hx => ?_⟩
  obtain ⟨hxrow, hxsource, hxlive, hxname⟩ := mem_announcements.mp hx
  exact hfirst x
    (mem_announcements.mpr ⟨(h.route_of x hxrow hxlive hxname).1, hxsource, hxlive, hxname⟩)

end

end Shrinks

section Shrink

variable {gone dead : String → Prop} {name : RouteName} {s s' : RouteService} {root : String}

theorem TreeOk.shrink (hnet : Network s) (h : Shrinks gone dead name s s')
    (hnet' : Network s') (hname : NameOk s name) (hroot : Leads s.db name root)
    (hdead : ∀ n, dead n → gone n) (hall : ¬ dead ALL_NODES_ID) (hgone : ¬ gone root)
    (hinner : ∀ seg ∈ s.segmentGraphs, ∀ d p,
      parentDomain seg.2 (domainOf s.db.listNodes root) d = some p → DeadDomain dead s p →
        ¬ LiveJoin s d p) : TreeOk s' name root := by
  have htree := hname.tree root hroot
  -- announcers that stay are where they were
  have hstays : ∀ a, Announces s'.db name a → Announces s.db name a ∧ ¬ gone a ∧
      domainOf s'.db.listNodes a = domainOf s.db.listNodes a ∧
      ¬ DeadDomain dead s (domainOf s.db.listNodes a) := by
    intro a ha
    obtain ⟨ha, hagone⟩ := (h.announces_iff hall).mp ha
    obtain ⟨d, hd⟩ := hname.registered a ha
    have hadead : ¬ dead a := fun hadead => hagone (hdead a hadead)
    refine ⟨ha, hagone, h.domainOf_eq hadead hd, ?_⟩
    have hdomain : domainOf s.db.listNodes a = d := domainOf_of_inDomain hd
    rw [hdomain]
    exact Shrinks.not_deadDomain hnet hadead hd
  have hrootEq : domainOf s'.db.listNodes root = domainOf s.db.listNodes root :=
    (hstays root ((h.announces_iff hall).mpr ⟨hroot.announces, hgone⟩)).2.2.1
  have hattached : Attached s' name root := by
    intro seg hseg d p hp hd
    rw [h.graphs] at hseg
    rw [hrootEq] at hp
    have hdstays : ¬ DeadDomain dead s d ∧
        ((∃ a, Announces s.db name a ∧ domainOf s.db.listNodes a = d) ∨ HasLink s seg.2 d) := by
      rcases hd with ⟨a, ha, rfl⟩ | ⟨y, hstep⟩
      · obtain ⟨ha, -, heq, hnot⟩ := hstays a ha
        rw [heq]
        exact ⟨hnot, .inl ⟨a, ha, rfl⟩⟩
      · exact ⟨(h.not_deadDomain_of_liveJoin hnet hstep.2).1, .inr ⟨y, h.linkStep_of hstep⟩⟩
    have hjoin := htree.attached seg hseg d p hp hdstays.2
    exact h.liveJoin_keep hdstays.1 (fun hp' => hinner seg hseg d p hp hp' hjoin) hjoin
  refine ⟨?_, ?_, ?_, hattached, ?_⟩
  · -- sound
    intro r hr hlive hrname hsource l hl hllive hlink
    obtain ⟨hr, hrgone, hrdead⟩ := h.route_of r hr hlive hrname
    obtain ⟨hl, hlsource, hldest⟩ := h.link_of l hl hllive
    obtain ⟨seg, hseg, c, p, hp, hjoins, hend⟩ :=
      htree.sound r hr hlive hrname hsource l hl hllive hlink
    rw [hrootEq, (hstays _ ((h.announces_iff hall).mpr
      ⟨hname.dests r hr hlive hrname hsource, hrgone⟩)).2.2.1]
    refine ⟨seg, h.graphs ▸ hseg, c, p, hp, h.joins_keep hlsource hldest hjoins, ?_⟩
    exact hend.imp (h.node_keep c _ hrdead)
      (fun ⟨hin, hbelow⟩ => ⟨h.node_keep p _ hrdead hin, hbelow⟩)
  · -- up
    intro seg hseg c p hp hjoin
    rw [h.graphs] at hseg
    rw [hrootEq] at hp
    obtain ⟨hc, hpdead⟩ := h.not_deadDomain_of_liveJoin hnet hjoin
    obtain ⟨r, hover, hin, hdest⟩ := htree.up seg hseg c p hp (h.liveJoin_of hjoin)
    have hrdead : ¬ dead r.sourceNodeId := fun hrdead => hc ⟨_, hrdead, hin⟩
    exact ⟨r, h.over_keep hc hpdead hover (hdest ▸ hgone) hrdead, h.node_keep c _ hrdead hin, hdest⟩
  · -- down
    intro seg hseg a c p ha hbelow hp hjoin
    rw [h.graphs] at hseg
    obtain ⟨ha, hagone, haeq, -⟩ := hstays a ha
    rw [hrootEq, haeq] at hbelow
    rw [hrootEq] at hp
    obtain ⟨hc, hpdead⟩ := h.not_deadDomain_of_liveJoin hnet hjoin
    obtain ⟨r, hover, hin, hdest⟩ := htree.down seg hseg a c p ha hbelow hp (h.liveJoin_of hjoin)
    have hrdead : ¬ dead r.sourceNodeId := fun hrdead => hpdead ⟨_, hrdead, hin⟩
    exact ⟨r, h.over_keep hc hpdead hover (hdest ▸ hagone) hrdead, h.node_keep p _ hrdead hin,
      hdest⟩
  · -- covered: the domain still has a link, so it is still attached where it was
    intro a ha seg hseg d hconnects hne
    obtain ⟨ha, -, haeq, -⟩ := hstays a ha
    rw [haeq] at hconnects hne
    have hconnects' := h.connects_of hconnects
    rw [h.graphs] at hseg ⊢
    rw [hrootEq]
    by_cases hd : d = domainOf s.db.listNodes root
    · exact .inl hd
    rcases htree.covered a ha seg hseg d hconnects' hne with heq | ⟨seg', hseg', hreach⟩
    · exact absurd heq hd
    obtain ⟨y, hstep, -⟩ := (ReflTransGen.cases_head hconnects).resolve_left hne
    have hddead := (h.not_deadDomain_of_liveJoin hnet hstep.2).1
    have hsome := hreach.parent_isSome (hnet.plain seg' hseg') hd
    obtain ⟨p, hp⟩ := Option.isSome_iff_exists.mp hsome
    obtain ⟨y', hstep', -⟩ := (ReflTransGen.cases_head hreach).resolve_left hd
    have hjoin := htree.attached seg' hseg' d p hp (.inr ⟨y', hstep'⟩)
    have hjoin' : LiveJoin s' d p :=
      h.liveJoin_keep hddead (fun hp' => hinner seg' hseg' d p hp hp' hjoin) hjoin
    refine .inr ⟨seg', hseg', ?_⟩
    rw [← hrootEq] at hsome ⊢
    exact hattached.connects hnet' (h.graphs ▸ hseg') hsome
      (.inr ⟨p, edge_of_parentDomain (hnet.plain seg' hseg') hp, hjoin'⟩)

/-- A step that takes away keeps what holds of a name, unless the first announcer goes before others
or a domain goes that others are linked through. -/
theorem NameOk.shrink (hnet : Network s) (hnet' : Network s') (h : Shrinks gone dead name s s')
    (hname : NameOk s name) (hdead : ∀ n, dead n → gone n) (hall : ¬ dead ALL_NODES_ID)
    (hfirst : ∀ root, Leads s.db name root → gone root → ∀ a, Announces s.db name a → gone a)
    (hinner : ∀ root, Leads s.db name root → ¬ gone root → ∀ seg ∈ s.segmentGraphs, ∀ d p,
      parentDomain seg.2 (domainOf s.db.listNodes root) d = some p → DeadDomain dead s p →
        ¬ LiveJoin s d p) : NameOk s' name := by
  have hstays : ∀ a, Announces s'.db name a → ∃ root, Leads s.db name root ∧ ¬ gone root := by
    intro a ha
    obtain ⟨ha, hagone⟩ := (h.announces_iff hall).mp ha
    obtain ⟨root, hroot⟩ := hname.leads ⟨a, ha⟩
    exact ⟨root, hroot, fun hgone => hagone (hfirst root hroot hgone a ha)⟩
  refine ⟨?_, ?_, ?_, ?_⟩
  · intro r hr hlive hrname hsource
    obtain ⟨hr, hgone, -⟩ := h.route_of r hr hlive hrname
    exact (h.announces_iff hall).mpr ⟨hname.dests r hr hlive hrname hsource, hgone⟩
  · intro a ha
    obtain ⟨ha, hgone⟩ := (h.announces_iff hall).mp ha
    obtain ⟨d, hd⟩ := hname.registered a ha
    exact ⟨d, h.node_keep d a (fun hadead => hgone (hdead a hadead)) hd⟩
  · rintro ⟨a, ha⟩
    obtain ⟨root, hroot, hgone⟩ := hstays a ha
    exact ⟨root, h.leads_keep hall hroot hgone⟩
  · intro root hroot
    obtain ⟨root', hroot', hgone⟩ := hstays root hroot.announces
    obtain rfl : root' = root :=
      Option.some.inj ((h.leads_keep hall hroot' hgone).query.symm.trans hroot.query)
    exact TreeOk.shrink hnet h hnet' hname hroot' hdead hall hgone (hinner root' hroot' hgone)

end Shrink

end Slim.RouteService
