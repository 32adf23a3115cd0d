import Slim.RouteService.NodeLifecycle
import Slim.RouteService.Proof.Routes

/-!
# The links that a node's domain lacks

What `ensure_links_for_node` adds, seen from the parties of the links (`Seen`): for each domain that
is allowed and not linked yet, a link with the first candidate in the order of the shuffle that is
not taken for a peer and that one side can reach (`run_ensureLinksForNode`). A new link takes no
other's place in the store, since its id is fresh or that of a link with the same destination
(`IdsOk`).
-/

namespace Slim.RouteService

open Db Fiber

variable {E : Env} {s : RouteService} {src : Node} {nodes : List Node} {dst : Node}

/-! ## Links as their parties see them -/

structure LinkView where
  source : String
  sourceDomain : String
  dest : String
  destDomain : String
  deriving DecidableEq

def viewOf (l : Link) : LinkView := ⟨l.sourceNodeId, l.sourceDomain, l.destNodeId, l.destDomain⟩

/-- There is such a link that is not deleted. -/
def Seen (s : RouteService) (v : LinkView) : Prop := ∃ l ∈ s.db.links, l.live = true ∧ viewOf l = v

theorem seen_of_mem {l : Link} (hl : l ∈ s.db.links) (hlive : l.live = true) :
    Seen s (viewOf l) := ⟨l, hl, hlive, rfl⟩

/-- UUIDs are new each time. -/
structure Uuids (E : Env) : Prop where
  injective : Function.Injective E.uuid
  nonempty : ∀ n, E.uuid n ≠ ""

/-- Links with the same id have the same destination, and ids to come are not in use. -/
structure IdsOk (E : Env) (s : RouteService) : Prop where
  sameDest : ∀ l ∈ s.db.links, l.live = true → ∀ l' ∈ s.db.links, l'.live = true →
    l.linkId = l'.linkId → l.destDomain = l'.destDomain
  fresh : ∀ l ∈ s.db.links, ∀ t, s.ticks ≤ t → l.linkId ≠ E.uuid t
  nonempty : ∀ l ∈ s.db.links, l.linkId ≠ ""

/-- The source domain of a link is that of its source. -/
def SourcesOk (nodes : List Node) (s : RouteService) : Prop :=
  ∀ v, Seen s v → ∀ n ∈ nodes, n.id = v.source → v.sourceDomain = domainNameOf n

/-! ## One link -/

theorem append_ne_empty {a b : String} (h : a ≠ "") : a ++ b ≠ "" := by
  intro heq
  have hlen := congrArg String.length heq
  have ha : a.length ≠ 0 := by simpa using h
  rw [String.length_append, String.length_empty] at hlen
  omega

theorem computeClientConfig_ok (hext : hasExternal dst = true)
    (hne : domainNameOf src ≠ domainNameOf dst) :
    ∃ endpoint config, computeClientConfig src dst = .ok (endpoint, config) ∧ endpoint ≠ "" := by
  have hdomain : dst.domainName ≠ src.domainName :=
    fun heq => hne (by rw [domainNameOf, domainNameOf, heq])
  unfold hasExternal at hext
  unfold computeClientConfig
  cases hdetails : dst.connDetails with
  | nil => simp [hdetails] at hext
  | cons first rest =>
    rw [hdetails, List.any_eq_true] at hext
    have hfind : ((first :: rest).find? fun conn => conn.external.isSome).isSome :=
      List.find?_isSome.mpr hext
    obtain ⟨conn, hconn⟩ := Option.isSome_iff_exists.mp hfind
    obtain ⟨endpoint, hendpoint⟩ :=
      Option.isSome_iff_exists.mp (by simpa using List.find?_some hconn)
    simp only [selectConnection, hdomain, if_false, hdetails, hconn, Option.getD_some,
      generateConfigData, hendpoint]
    refine ⟨_, _, rfl, ?_⟩
    split
    · exact append_ne_empty (by decide)
    · exact append_ne_empty (by decide)

/-- The id of a new link is fresh, or that of a link from the same source to the same domain. -/
theorem run_linkParameters (hext : hasExternal dst = true)
    (hne : domainNameOf src ≠ domainNameOf dst) (s : RouteService) :
    ∃ endpoint config linkId, endpoint ≠ "" ∧
      (((linkParameters E src dst [] true).run s =
          (some (endpoint, config, linkId, .Pending), { s with ticks := s.ticks + 1 }) ∧
          linkId = E.uuid s.ticks) ∨
        (linkParameters E src dst [] true).run s = (some (endpoint, config, linkId, .Pending), s) ∧
          ∃ l ∈ s.db.links, l.live = true ∧ l.sourceNodeId = src.id ∧
            l.destDomain = domainNameOf dst ∧ l.linkId = linkId) := by
  obtain ⟨endpoint, config, hconfig, hendpoint⟩ := computeClientConfig_ok hext hne
  unfold linkParameters
  have hnone : findReportedConnectionForDest [] dst = none := rfl
  simp only [hnone, hconfig, if_true, run_bind, run_query]
  cases hfind : (s.db.getLinkForSourceAndEndpoint src.id endpoint).filter
      fun l => l.destDomain = domainNameOf dst with
  | none => exact ⟨endpoint, config, _, hendpoint, .inl ⟨rfl, rfl⟩⟩
  | some l =>
    obtain ⟨hl, hdomain⟩ := Option.filter_eq_some_iff.mp hfind
    obtain ⟨hmem, hpred⟩ := Table.mem_filter_relist.mp (List.argmax_mem hl)
    simp only [Bool.and_eq_true, decide_eq_true_eq] at hpred hdomain
    exact ⟨endpoint, config, _, hendpoint, .inr ⟨rfl, l, hmem, hpred.1.2, hpred.1.1, hdomain, rfl⟩⟩

/-- What `find_or_create_link` makes of a link without destination. -/
theorem findOrCreateLink_seen (uuids : Uuids E) (hids : IdsOk E s) (link : Link) {t : Nat}
    (ht : t = s.ticks ∨ t = s.ticks + 1) (hlive : link.live = true) (hdest : link.destNodeId = "")
    (hsource : link.sourceNodeId ≠ "") (hendpoint : link.destEndpoint ≠ "")
    (hsources : ∀ v, Seen s v → v.source = link.sourceNodeId → v.sourceDomain = link.sourceDomain)
    (hnew : (link.linkId = E.uuid s.ticks ∧ t = s.ticks + 1) ∨ ∃ l ∈ s.db.links, l.live = true ∧
      l.sourceNodeId = link.sourceNodeId ∧ l.destDomain = link.destDomain ∧ l.linkId = link.linkId)
    (now : Nat) :
    ∃ found created, (s.db.findOrCreateLink now link).1 = .ok (found, created) ∧
      ∀ s' : RouteService, s'.db = (s.db.findOrCreateLink now link).2 → t + 1 ≤ s'.ticks →
        IdsOk E s' ∧ ∀ v, Seen s' v ↔ Seen s v ∨ v = viewOf link := by
  have hid : link.linkId ≠ "" := by
    rcases hnew with ⟨hfresh, -⟩ | ⟨l, hl, -, -, -, hid⟩
    · exact hfresh ▸ uuids.nonempty _
    · exact hid ▸ hids.nonempty l hl
  have hfields : link.missingFields = false := by simp [Link.missingFields, hsource, hendpoint, hid]
  have hempty : link.destNodeId.isEmpty = true := by simp [hdest]
  unfold Database.findOrCreateLink
  simp only [hfields, Bool.false_eq_true, if_false, hempty, if_true]
  cases hfind : s.db.findUnclaimedLink link.sourceNodeId link.destDomain with
  | some found =>
    -- the link is there already
    have hmem : found ∈ s.db.links := Table.mem_of_find?_relist hfind
    have hpred := List.find?_some hfind
    simp only [Bool.and_eq_true, decide_eq_true_eq, String.isEmpty_iff] at hpred
    obtain ⟨⟨⟨hfsource, hflive⟩, hfdest⟩, hfdomain⟩ := hpred
    refine ⟨found, false, rfl, fun s' hdb hticks => ?_⟩
    have hlinks : s'.db.links = s.db.links := by rw [hdb]
    have hseen : ∀ v, Seen s' v ↔ Seen s v := fun v => by rw [Seen, Seen, hlinks]
    refine ⟨⟨hlinks ▸ hids.sameDest, fun l hl n hn => hids.fresh l (hlinks ▸ hl) n ?_,
      hlinks ▸ hids.nonempty⟩, fun v => ?_⟩
    · rcases ht with rfl | rfl <;> omega
    · rw [hseen]
      refine ⟨.inl, fun h => h.elim id ?_⟩
      rintro rfl
      have hfsourceDomain : found.sourceDomain = link.sourceDomain :=
        hsources _ (seen_of_mem hmem hflive) hfsource
      have hview : viewOf found = viewOf link := by
        rw [viewOf, viewOf, hfsource, hfsourceDomain, hfdest, hfdomain, hdest]
      exact hview ▸ seen_of_mem hmem hflive
  | none =>
    have hnone : ∀ l ∈ s.db.links, l.live = true → l.sourceNodeId = link.sourceNodeId →
        l.destNodeId = "" → l.destDomain ≠ link.destDomain := by
      intro l hl hllive hlsource hldest hldomain
      have hnot := List.find?_eq_none.mp hfind l (s.db.mem_listAllLinks.mpr hl)
      simp [hllive, hlsource, hldest, hldomain] at hnot
    -- every live link with the id of the new one has its destination
    have hsame : ∀ l ∈ s.db.links, l.live = true → l.linkId = link.linkId →
        l.destDomain = link.destDomain := by
      intro l hl hllive hlid
      rcases hnew with ⟨hfresh, -⟩ | ⟨l', hl', hlive', -, hdomain', hid'⟩
      · exact absurd (hlid.trans hfresh) (hids.fresh l hl _ le_rfl)
      · rw [hids.sameDest l hl hllive l' hl' hlive' (hlid.trans hid'.symm), hdomain']
    refine ⟨{ link with lastUpdated := now }, true, rfl, fun s' hdb hticks => ?_⟩
    have hmem : ∀ l, l ∈ s'.db.links ↔ l = { link with lastUpdated := now } ∨
        l ∈ s.db.links ∧ l.key ≠ link.key := fun l => by rw [hdb]; exact Table.mem_put
    refine ⟨⟨?_, ?_, ?_⟩, fun v => ?_⟩
    · have hsameNew : ∀ l ∈ s'.db.links, l.live = true → l.linkId = link.linkId →
          l.destDomain = link.destDomain := by
        intro l hl hllive hlid
        rcases (hmem l).mp hl with rfl | ⟨hl, -⟩
        · rfl
        · exact hsame l hl hllive hlid
      intro l hl hllive l' hl' hlive' heq
      rcases (hmem l).mp hl with rfl | ⟨hl₀, -⟩
      · exact (hsameNew l' hl' hlive' heq.symm).symm
      · rcases (hmem l').mp hl' with rfl | ⟨hl₀', -⟩
        · exact hsame l hl₀ hllive heq
        · exact hids.sameDest l hl₀ hllive l' hl₀' hlive' heq
    · intro l hl n hn
      have hle : s.ticks ≤ n := by rcases ht with rfl | rfl <;> omega
      rcases (hmem l).mp hl with rfl | ⟨hl, -⟩
      · rcases hnew with ⟨hfresh, ht'⟩ | ⟨l', hl', -, -, -, hid'⟩
        · rw [hfresh]
          intro heq
          have := uuids.injective heq
          omega
        · rw [← hid']
          exact hids.fresh l' hl' n hle
      · exact hids.fresh l hl n hle
    · intro l hl
      rcases (hmem l).mp hl with rfl | ⟨hl, -⟩
      · exact hid
      · exact hids.nonempty l hl
    · constructor
      · rintro ⟨l, hl, hllive, rfl⟩
        rcases (hmem l).mp hl with rfl | ⟨hl, -⟩
        · exact .inr rfl
        · exact .inl (seen_of_mem hl hllive)
      · rintro (⟨l, hl, hllive, rfl⟩ | rfl)
        · refine ⟨l, (hmem l).mpr (.inr ⟨hl, fun hkey => ?_⟩), hllive, rfl⟩
          -- a live link in its place would have been found
          refine hnone l hl hllive (congrArg LinkKey.sourceNodeId hkey) ?_
            (hsame l hl hllive (congrArg LinkKey.linkId hkey))
          rw [show l.destNodeId = link.destNodeId from congrArg LinkKey.destNodeId hkey, hdest]
        · exact ⟨_, (hmem _).mpr (.inl rfl), hlive, rfl⟩

/-- The link that `ensure_link_internal` sees to. -/
def ensuredView (src dst : Node) : LinkView := ⟨src.id, domainNameOf src, "", domainNameOf dst⟩

theorem run_ensureLinkInternal (uuids : Uuids E) (hids : IdsOk E s) (hext : hasExternal dst = true)
    (hne : domainNameOf src ≠ domainNameOf dst) (hid : src.id ≠ "")
    (hsources : ∀ v, Seen s v → v.source = src.id → v.sourceDomain = domainNameOf src) :
    ∃ link s', (ensureLinkInternal E src dst [] true).run s = (some (src.id, link), s') ∧
      IdsOk E s' ∧ ∀ v, Seen s' v ↔ Seen s v ∨ v = ensuredView src dst := by
  obtain ⟨endpoint, config, linkId, hendpoint, hrun⟩ := run_linkParameters hext hne s
  have hstep : ∀ t, (t = s.ticks ∨ t = s.ticks + 1) →
      ((linkId = E.uuid s.ticks ∧ t = s.ticks + 1) ∨ ∃ l ∈ s.db.links, l.live = true ∧
        l.sourceNodeId = src.id ∧ l.destDomain = domainNameOf dst ∧ l.linkId = linkId) →
      (linkParameters E src dst [] true).run s =
        (some (endpoint, config, linkId, .Pending), { s with ticks := t }) →
      ∃ link s', (ensureLinkInternal E src dst [] true).run s = (some (src.id, link), s') ∧
        IdsOk E s' ∧ ∀ v, Seen s' v ↔ Seen s v ∨ v = ensuredView src dst := by
    intro t ht hnew hrun
    let link : Link :=
      { linkId, sourceNodeId := src.id, sourceDomain := domainNameOf src, destNodeId := "",
        destDomain := domainNameOf dst, destEndpoint := endpoint, connConfigData := config,
        status := .Pending, createdAt := E.clock t }
    obtain ⟨found, created, hok, hafter⟩ := findOrCreateLink_seen uuids hids link ht rfl rfl hid
      hendpoint hsources hnew (E.clock t)
    obtain ⟨hids', hseen⟩ := hafter
      { s with db := (s.db.findOrCreateLink (E.clock t) link).2, ticks := t + 1 } rfl le_rfl
    refine ⟨if created then some found else none, _, ?_, hids', hseen⟩
    rw [ensureLinkInternal, run_bind, hrun]
    simp only [run_bind, run_update]
    rw [hok]
    rfl
  rcases hrun with ⟨hrun, hlinkId⟩ | ⟨hrun, hreused⟩
  · exact hstep _ (.inr rfl) (.inl ⟨hlinkId, rfl⟩) hrun
  · exact hstep s.ticks (.inl rfl) (.inr hreused) hrun

/-! ## The candidates -/

/-- The links of the store, for the nodes that are considered. -/
structure LinksOk (E : Env) (nodes : List Node) (s : RouteService) : Prop extends IdsOk E s where
  sources : SourcesOk nodes s

/-- Nodes are told apart by ids that are not empty. -/
structure NodesOk (nodes : List Node) : Prop where
  unique : ∀ n ∈ nodes, ∀ m ∈ nodes, n.id = m.id → n = m
  named : ∀ n ∈ nodes, n.id ≠ ""

/-- A node that `src` can be linked with, as far as its links say. -/
def eligible (src : Node) (peers : List String) (allowedPairs : List (String × String)) (c : Node) :
    Bool :=
  c.id ≠ src.id && decide (c.id ∉ peers) && domainNameOf src ≠ domainNameOf c &&
    decide ((domainNameOf src, domainNameOf c) ∈ allowedPairs) && (hasExternal c || hasExternal src)

/-- The link that is created with a candidate: towards an external endpoint. -/
def newView (src c : Node) : LinkView :=
  if hasExternal c then ensuredView src c else ensuredView c src

theorem LinksOk.ensure (hnodes : NodesOk nodes) {s' : RouteService} (h : LinksOk E nodes s)
    (hids : IdsOk E s') (hsrc : src ∈ nodes)
    (hseen : ∀ v, Seen s' v ↔ Seen s v ∨ v = ensuredView src dst) : LinksOk E nodes s' := by
  refine ⟨hids, fun v hv n hn hid => ?_⟩
  rcases (hseen v).mp hv with hv | rfl
  · exact h.sources v hv n hn hid
  · rw [hnodes.unique n hn src hsrc hid]
    rfl

theorem run_considerCandidate (uuids : Uuids E) (hnodes : NodesOk nodes) (h : LinksOk E nodes s)
    {c : Node} (hsrc : src ∈ nodes) (hc : c ∈ nodes) (peers : List String)
    (allowedPairs : List (String × String)) (scan : LinkScan) :
    ∃ scan' s', (considerCandidate E src peers [] allowedPairs scan c).run s = (scan', s') ∧
      LinksOk E nodes s' ∧
      if eligible src peers allowedPairs c = true ∧ domainNameOf c ∉ scan.linkedDomains then
        scan'.linkedDomains = domainNameOf c :: scan.linkedDomains ∧
          ∀ v, Seen s' v ↔ Seen s v ∨ v = newView src c
      else scan'.linkedDomains = scan.linkedDomains ∧ ∀ v, Seen s' v ↔ Seen s v := by
  unfold considerCandidate
  by_cases hskip : c.id = src.id ∨ c.id ∈ peers ∨ domainNameOf src = domainNameOf c ∨
      domainNameOf c ∈ scan.linkedDomains ∨ (domainNameOf src, domainNameOf c) ∉ allowedPairs
  · have hnot :
        ¬ (eligible src peers allowedPairs c = true ∧ domainNameOf c ∉ scan.linkedDomains) := by
      simp only [eligible, Bool.and_eq_true, decide_eq_true_eq]
      tauto
    rw [if_pos hskip]
    exact ⟨scan, s, rfl, h, by rw [if_neg hnot]; exact ⟨rfl, fun _ => Iff.rfl⟩⟩
  · simp only [not_or, not_not] at hskip
    obtain ⟨hid, hpeer, hdomain, hlinked, hallowed⟩ := hskip
    rw [if_neg (by simp only [not_or, not_not]; exact ⟨hid, hpeer, hdomain, hlinked, hallowed⟩)]
    cases hext : hasExternal c with
    | true =>
      have helig : eligible src peers allowedPairs c = true := by
        simp [eligible, hid, hpeer, hdomain, hallowed, hext]
      obtain ⟨link, s', hrun, hids, hseen⟩ := run_ensureLinkInternal uuids h.toIdsOk hext hdomain
        (hnodes.named src hsrc) fun v hv heq => h.sources v hv src hsrc heq.symm
      refine ⟨⟨scan.affected.insert src.id, scan.newLinks ++ link.toList,
        domainNameOf c :: scan.linkedDomains⟩, s', ?_, h.ensure hnodes hids hsrc hseen, ?_⟩
      · simp only [if_true]
        rw [run_bind, hrun]
        rfl
      · rw [if_pos ⟨helig, hlinked⟩, newView, if_pos hext]
        exact ⟨rfl, hseen⟩
    | false =>
      cases hext' : hasExternal src with
      | true =>
        have helig : eligible src peers allowedPairs c = true := by
          simp [eligible, hid, hpeer, hdomain, hallowed, hext']
        obtain ⟨link, s', hrun, hids, hseen⟩ := run_ensureLinkInternal uuids h.toIdsOk hext'
          (Ne.symm hdomain) (hnodes.named c hc) fun v hv heq => h.sources v hv c hc heq.symm
        refine ⟨⟨scan.affected.insert c.id, scan.newLinks ++ link.toList,
          domainNameOf c :: scan.linkedDomains⟩, s', ?_, h.ensure hnodes hids hc hseen, ?_⟩
        · simp only [Bool.false_eq_true, if_false, if_true]
          rw [run_bind, hrun]
          rfl
        · rw [if_pos ⟨helig, hlinked⟩, newView, if_neg (by simp [hext])]
          exact ⟨rfl, hseen⟩
      | false =>
        have helig : ¬ (eligible src peers allowedPairs c = true ∧
            domainNameOf c ∉ scan.linkedDomains) := by simp [eligible, hext, hext']
        refine ⟨scan, s, rfl, h, ?_⟩
        rw [if_neg helig]
        exact ⟨rfl, fun _ => Iff.rfl⟩

/-- The candidates that get a link, in the order in which they are considered: the first of each
domain that is not linked. -/
def chosen (p : Node → Bool) (linked : List String) : List Node → List Node
  | [] => []
  | c :: rest =>
    if p c = true ∧ domainNameOf c ∉ linked then c :: chosen p (domainNameOf c :: linked) rest
    else chosen p linked rest

section Chosen

variable {p : Node → Bool} {linked : List String} {order : List Node} {c : Node}

theorem of_mem_chosen (h : c ∈ chosen p linked order) :
    c ∈ order ∧ p c = true ∧ domainNameOf c ∉ linked := by
  induction order generalizing linked with
  | nil => cases h
  | cons d rest ih =>
    unfold chosen at h
    split at h
    · next hd =>
      rcases List.mem_cons.mp h with rfl | h
      · exact ⟨List.mem_cons_self, hd⟩
      · obtain ⟨hmem, hp, hlinked⟩ := ih h
        exact ⟨List.mem_cons_of_mem d hmem, hp, fun hl => hlinked (List.mem_cons_of_mem _ hl)⟩
    · obtain ⟨hmem, hp, hlinked⟩ := ih h
      exact ⟨List.mem_cons_of_mem d hmem, hp, hlinked⟩

theorem exists_mem_chosen (hmem : c ∈ order) (hp : p c = true) (hlinked : domainNameOf c ∉ linked) :
    ∃ d ∈ chosen p linked order, domainNameOf d = domainNameOf c := by
  induction order generalizing linked with
  | nil => cases hmem
  | cons d rest ih =>
    unfold chosen
    split
    · by_cases hdomain : domainNameOf d = domainNameOf c
      · exact ⟨d, List.mem_cons_self, hdomain⟩
      · rcases List.mem_cons.mp hmem with rfl | hmem
        · exact absurd rfl hdomain
        · have hlinked' : domainNameOf c ∉ domainNameOf d :: linked := by
            simp only [List.mem_cons, not_or]
            exact ⟨Ne.symm hdomain, hlinked⟩
          obtain ⟨e, he, heq⟩ := ih hmem hlinked'
          exact ⟨e, List.mem_cons_of_mem d he, heq⟩
    · next hd =>
      rcases List.mem_cons.mp hmem with rfl | hmem
      · exact absurd ⟨hp, hlinked⟩ hd
      · exact ih hmem hlinked

/-- If candidates are considered by rank, the chosen one has the lowest of its domain. -/
theorem rank_le_of_mem_chosen {rank : Node → Nat}
    (horder : order.Pairwise fun a b => rank a ≤ rank b)
    (h : c ∈ chosen p linked order) {d : Node} (hmem : d ∈ order) (hp : p d = true)
    (hdomain : domainNameOf d = domainNameOf c) : rank c ≤ rank d := by
  induction order generalizing linked with
  | nil => cases h
  | cons e rest ih =>
    obtain ⟨hfirst, hrest⟩ := List.pairwise_cons.mp horder
    unfold chosen at h
    split at h
    · rcases List.mem_cons.mp h with rfl | h
      · rcases List.mem_cons.mp hmem with rfl | hmem
        · exact le_rfl
        · exact hfirst d hmem
      · rcases List.mem_cons.mp hmem with rfl | hmem
        · exact absurd (hdomain ▸ List.mem_cons_self) (of_mem_chosen h).2.2
        · exact ih hrest h hmem
    · next hd =>
      rcases List.mem_cons.mp hmem with rfl | hmem
      · exact absurd ⟨hp, hdomain ▸ (of_mem_chosen h).2.2⟩ hd
      · exact ih hrest h hmem

end Chosen

theorem run_considerCandidates (uuids : Uuids E) (hnodes : NodesOk nodes) (hsrc : src ∈ nodes)
    (peers : List String) (allowedPairs : List (String × String)) {order : List Node}
    (horder : ∀ c ∈ order, c ∈ nodes) (h : LinksOk E nodes s) (scan : LinkScan) :
    ∃ scan' s', (foldl (considerCandidate E src peers [] allowedPairs) scan order).run s =
        (scan', s') ∧ LinksOk E nodes s' ∧
      ∀ v, Seen s' v ↔ Seen s v ∨
        ∃ c ∈ chosen (eligible src peers allowedPairs) scan.linkedDomains order,
          v = newView src c := by
  induction order generalizing s scan with
  | nil => exact ⟨scan, s, rfl, h, fun v => by simp [chosen]⟩
  | cons c rest ih =>
    obtain ⟨scan₁, s₁, hrun, h₁, hstep⟩ := run_considerCandidate uuids hnodes h hsrc
      (horder c List.mem_cons_self) peers allowedPairs scan
    obtain ⟨scan₂, s₂, hrun', h₂, hseen⟩ :=
      ih (fun d hd => horder d (List.mem_cons_of_mem c hd)) h₁ scan₁
    refine ⟨scan₂, s₂, by rw [run_foldl_cons, hrun, hrun'], h₂, fun v => ?_⟩
    rw [hseen v, chosen]
    split at hstep
    · next htakes =>
      rw [if_pos htakes, hstep.1, hstep.2 v, or_assoc]
      simp
    · next htakes => rw [if_neg htakes, hstep.1, hstep.2 v]

theorem run_ensureLinksForNode (uuids : Uuids E) (hnodes : NodesOk nodes) (hsrc : src ∈ nodes)
    (existing allLinks : List Link) (allowedPairs : List (String × String))
    (h : LinksOk E nodes s) :
    ∃ r s', (ensureLinksForNode E src.id existing nodes allLinks [] allowedPairs).run s = (r, s') ∧
      LinksOk E nodes s' ∧ ∀ v, Seen s' v ↔ Seen s v ∨
        ∃ c ∈ chosen (eligible src (connectedPeers src.id existing) allowedPairs)
          (linkedDomains (domainNameOf src) allLinks) (E.shuffle s.ticks nodes),
            v = newView src c := by
  have hfind : (nodes.find? fun n => n.id = src.id) = some src := by
    cases hfind : nodes.find? fun n => n.id = src.id with
    | none => simpa using List.find?_eq_none.mp hfind src hsrc
    | some n =>
      have hid : n.id = src.id := by simpa using List.find?_some hfind
      rw [hnodes.unique n (List.mem_of_find?_eq_some hfind) src hsrc hid]
  have hshuffled : LinksOk E nodes { s with ticks := s.ticks + 1 } :=
    ⟨⟨h.sameDest, fun l hl t ht => h.fresh l hl t (Nat.le_of_succ_le ht), h.nonempty⟩, h.sources⟩
  obtain ⟨scan, s', hrun, h', hseen⟩ := run_considerCandidates uuids hnodes hsrc
    (connectedPeers src.id existing) allowedPairs
    (fun c hc => (E.shuffle_perm s.ticks nodes).mem_iff.mp hc) hshuffled
    ⟨[src.id], [], linkedDomains (domainNameOf src) allLinks⟩
  refine ⟨(scan.affected, scan.newLinks), s', ?_, h', hseen⟩
  simp only [ensureLinksForNode, hfind, run_bind, shuffled, run_call, run_pure]
  rw [hrun]

/-! ## Frame -/

/-- Work on links leaves the connection status alone. -/
def SameConnected (s s' : RouteService) : Prop := s'.connected = s.connected

theorem within_linkParameters (src dst : Node) (reported : List ReportedConnection) (reuse : Bool) :
    (linkParameters E src dst reported reuse).Within SameConnected := by
  have huuid : (freshUuid E).Within SameConnected := ⟨fun _ => rfl, fun _ => trivial⟩
  have hquery : ∀ (f : Database → Option Link), (query f).Within SameConnected :=
    fun _ => ⟨fun _ => rfl, fun _ => trivial⟩
  unfold linkParameters
  split
  · exact within_pure _
  · split
    · exact within_pure _
    · dsimp only
      split
      case' isTrue => refine (hquery _).bind fun existing => ?_
      case' isFalse => refine (within_pure _).bind fun existing => ?_
      all_goals
        split
        · exact within_pure _
        · exact huuid.bind fun _ => within_pure _

theorem within_ensureLinkInternal (src dst : Node) (reported : List ReportedConnection)
    (reuse : Bool) : (ensureLinkInternal E src dst reported reuse).Within SameConnected := by
  refine (within_linkParameters src dst reported reuse).bind fun parameters => ?_
  split
  · exact within_pure _
  · refine Fiber.Within.bind ⟨fun _ => rfl, fun _ => trivial⟩ fun created => ?_
    split <;> exact within_pure _

theorem within_ensureLinksForNode (nodeId : String) (existing : List Link) (allNodes : List Node)
    (allLinks : List Link) (reported : List ReportedConnection)
    (allowedPairs : List (String × String)) :
    (ensureLinksForNode E nodeId existing allNodes allLinks reported allowedPairs).Within
      SameConnected := by
  unfold ensureLinksForNode
  split
  · exact within_pure _
  · refine Fiber.Within.bind ⟨fun _ => rfl, fun _ => trivial⟩ fun candidates => ?_
    refine Fiber.Within.bind (gives_foldl trivial fun scan _ other _ => ?_) fun _ => within_pure _
    unfold considerCandidate
    split
    · exact within_pure _
    · dsimp only
      split
      case' isTrue => refine (within_ensureLinkInternal _ other reported true).bind fun _ => ?_
      case' isFalse =>
        split
        case' isTrue => refine (within_ensureLinkInternal other _ reported true).bind fun _ => ?_
        case' isFalse => exact within_pure _
      all_goals split <;> exact within_pure _

end Slim.RouteService
