import Slim.RouteService.Proof.Failover

/-!
# Which domains stay linked when a gateway leaves

A pair of domains that had a link through the departing node should have one afterwards, between
connected nodes, if both domains still have connected nodes and one side can be reached
(`KeepsLinked`). An outgoing link is always replaced, an incoming one not always: the sources that
create it again take every source of a link for a node they are connected with, and they pick any
registered node, connected or not. `Replaceable` says when the new link comes about whatever is
picked.
-/

namespace Slim.RouteService

open Db Fiber

variable {E : Env} {x g domain : String} {s s' : RouteService}

/-! ## The property -/

/-- A link that is not deleted joins the domains; its source is connected, and so is its destination
once it has been claimed. -/
def LinkedUp (s : RouteService) (a b : String) : Prop :=
  ∃ l ∈ s.db.links, l.live = true ∧ l.betweenDomains a b = true ∧ l.sourceNodeId ∈ s.connected ∧
    (l.destNodeId = "" ∨ l.destNodeId ∈ s.connected)

/-- The domains may be linked, and they have connected nodes of which one can be reached from
outside. -/
structure Linkable (E : Env) (s : RouteService) (x a b : String) : Prop where
  allowed : (a, b) ∈ allowedAfter E s x
  domains : a ≠ "" ∧ b ≠ ""
  nodes : ∃ m ∈ s.db.nodes, ∃ n ∈ s.db.nodes,
    (m.id ≠ x ∧ m.domainName = some a ∧ m.id ∈ s.connected) ∧
    (n.id ≠ x ∧ n.domainName = some b ∧ n.id ∈ s.connected) ∧
    (hasExternal m = true ∨ hasExternal n = true)

/-- What had a link through the node has one now. -/
def KeepsLinked (E : Env) (x : String) (s s' : RouteService) : Prop :=
  ∀ l ∈ s.db.links, l.live = true → Touches x l → Linkable E s x l.sourceDomain l.destDomain →
    LinkedUp s' l.sourceDomain l.destDomain

/-! ## The condition -/

/-- A node `c` of domain `d` that the source `a` of a removed link may be linked with, if `g` is the
new gateway: no link starts at it. -/
def Candidate (s : RouteService) (x g d : String) (a c : Node) : Prop :=
  c.id ≠ x ∧ domainNameOf c = d ∧ (hasExternal c = true ∨ hasExternal a = true) ∧
    (∀ l ∈ s.db.links, l.live = true → ¬ Touches x l → l.sourceNodeId ≠ c.id) ∧
    (c.id = g → ∀ l ∈ s.db.links, l.live = true → l.sourceNodeId ≠ x)

/-- The side that connects is connected. -/
def CanConnect (s : RouteService) (a c : Node) : Prop :=
  if hasExternal c then a.id ∈ s.connected else c.id ∈ s.connected

/-- An incoming link is replaced if `g` is the new gateway, whatever else is picked at random: by a
link that exists, by an outgoing link that is moved, or by one that a source of the same domain
creates. -/
def Replaceable (s : RouteService) (x g : String) (l : Link) : Prop :=
  (∃ l' ∈ s.db.links, l'.live = true ∧ ¬ Touches x l' ∧
    l'.betweenDomains l.sourceDomain l.destDomain = true ∧ l'.sourceNodeId ∈ s.connected ∧
    (l'.destNodeId = "" ∨ l'.destNodeId ∈ s.connected)) ∨
  (∃ l' ∈ s.db.links, l'.live = true ∧ l'.sourceNodeId = x ∧ l'.destDomain = l.sourceDomain) ∨
  (∀ l' ∈ s.db.links, l'.live = true → ¬ Touches x l' →
    l'.betweenDomains l.sourceDomain l.destDomain = false) ∧
  ∃ a ∈ s.db.nodes, domainNameOf a = l.sourceDomain ∧
    (∃ l' ∈ s.db.links, l'.live = true ∧ l'.destNodeId = x ∧ l'.sourceNodeId = a.id) ∧
    (∃ c ∈ s.db.nodes, Candidate s x g l.destDomain a c) ∧
    ∀ c ∈ s.db.nodes, Candidate s x g l.destDomain a c → CanConnect s a c

/-! ## Links after the moves -/

/-- The link joins the domains, in either direction. -/
def LinkView.Joins (v : LinkView) (a b : String) : Prop :=
  v.sourceDomain = a ∧ v.destDomain = b ∨ v.sourceDomain = b ∧ v.destDomain = a

theorem betweenDomains_iff {l : Link} {a b : String} :
    l.betweenDomains a b = true ↔ (viewOf l).Joins a b := by
  simp [Link.betweenDomains, LinkView.Joins, viewOf]

theorem linkedUp_iff {a b : String} : LinkedUp s a b ↔
    ∃ v, Seen s v ∧ v.Joins a b ∧ v.source ∈ s.connected ∧
      (v.dest = "" ∨ v.dest ∈ s.connected) := by
  constructor
  · rintro ⟨l, hl, hlive, hjoins, hends⟩
    exact ⟨viewOf l, seen_of_mem hl hlive, betweenDomains_iff.mp hjoins, hends⟩
  · rintro ⟨_, ⟨l, hl, hlive, rfl⟩, hjoins, hends⟩
    exact ⟨l, hl, hlive, betweenDomains_iff.mpr hjoins, hends⟩

theorem mem_linkedDomains {a b : String} (hb : b ≠ "") (hne : a ≠ b) :
    b ∈ linkedDomains a s.db.listAllLinks ↔ ∃ v, Seen s v ∧ v.Joins a b := by
  simp only [linkedDomains, List.mem_filterMap, List.mem_filter, Database.mem_listAllLinks]
  constructor
  · rintro ⟨l, ⟨hl, hlive⟩, hsome⟩
    refine ⟨viewOf l, seen_of_mem hl hlive, ?_⟩
    split at hsome
    · next h => exact .inl ⟨h.1, Option.some.inj hsome⟩
    · split at hsome
      · next h => exact .inr ⟨Option.some.inj hsome, h.1⟩
      · cases hsome
  · rintro ⟨_, ⟨l, hl, hlive, rfl⟩, hjoins⟩
    refine ⟨l, ⟨hl, hlive⟩, ?_⟩
    rcases hjoins with ⟨hsource, hdest⟩ | ⟨hsource, hdest⟩
    · have hsource : l.sourceDomain = a := hsource
      have hdest : l.destDomain = b := hdest
      simp [hsource, hdest, hb, Ne.symm hne]
    · have hsource : l.sourceDomain = b := hsource
      have hdest : l.destDomain = a := hdest
      simp [hsource, hdest, hb, Ne.symm hne]

theorem mem_connectedPeers {a c : String} : c ∈ connectedPeers a s.db.listAllLinks ↔
    ∃ v, Seen s v ∧ (if v.source = a then v.dest else v.source) = c := by
  simp only [connectedPeers, List.mem_map, List.mem_filter, Database.mem_listAllLinks]
  constructor
  · rintro ⟨l, ⟨hl, hlive⟩, rfl⟩
    exact ⟨viewOf l, seen_of_mem hl hlive, rfl⟩
  · rintro ⟨_, ⟨l, hl, hlive, rfl⟩, rfl⟩
    exact ⟨l, ⟨hl, hlive⟩, rfl⟩

/-- Which nodes of the domain the source of a removed link considers, if nothing else joins the
domains. -/
theorem eligible_iff (hok : StoreOk E x domain s) {sources : List String} {s₁ : RouteService}
    (h : Moved x g s (departingLinks s x) sources s₁) {allowedPairs : List (String × String)}
    {a c : Node}
    (ha : a ∈ s.db.nodes) (hc : c ∈ remainingNodes s x) (hcdomain : domainNameOf c = domain)
    (hne : domainNameOf a ≠ domain) (hallowed : (domainNameOf a, domain) ∈ allowedPairs)
    (hnone : ∀ v, Seen s₁ v → ¬ v.Joins (domainNameOf a) domain) :
    eligible a (connectedPeers a.id s₁.db.listAllLinks) allowedPairs c = true ↔
      Candidate s x g domain a c := by
  obtain ⟨hc, hcx⟩ := mem_remainingNodes.mp hc
  have hid : c.id ≠ a.id := fun heq => hne (by rw [← hcdomain, s.db.nodes.eq_of_mem hc ha heq])
  have hpeers : c.id ∉ connectedPeers a.id s₁.db.listAllLinks ↔
      (∀ l ∈ s.db.links, l.live = true → ¬ Touches x l → l.sourceNodeId ≠ c.id) ∧
      (c.id = g → ∀ l ∈ s.db.links, l.live = true → l.sourceNodeId ≠ x) := by
    rw [mem_connectedPeers]
    constructor
    · intro hnot
      constructor
      · intro l hl hlive htouches hsource
        have hother : (viewOf l).source ≠ a.id := fun heq => hid (hsource.symm.trans heq)
        refine hnot ⟨viewOf l, h.kept l hl hlive htouches, ?_⟩
        rw [if_neg hother]
        exact hsource
      · intro hcg l hl hlive hsource
        have hother : (movedView g l).source ≠ a.id := fun heq => hid (hcg.trans heq)
        refine hnot ⟨movedView g l, (h.seen_iff _).mpr (.inr ⟨l, hl, hlive, hsource, rfl⟩), ?_⟩
        rw [if_neg hother]
        exact hcg.symm
    · rintro ⟨hkept, hmoved⟩ ⟨v, hv, hpeer⟩
      rcases (h.seen_iff v).mp hv with ⟨l, hl, hlive, htouches, rfl⟩ | ⟨l, hl, hlive, hsource, rfl⟩
      · split at hpeer
        · next hsource =>
          -- a link from `a` to `c` would join the domains
          exact hnone _ hv (.inl ⟨hok.sources l hl hlive a ha hsource.symm,
            (hok.dests l hl hlive c hc hpeer.symm).trans hcdomain⟩)
        · exact hkept l hl hlive htouches hpeer
      · split at hpeer
        · exact hok.named c hc hpeer.symm
        · exact hmoved hpeer.symm l hl hlive hsource
  simp only [eligible, Candidate, Bool.and_eq_true, Bool.or_eq_true, decide_eq_true_eq, hcdomain]
  tauto

theorem newView_up {a c : Node} {s : RouteService} :
    (newView a c).source ∈ s.connected ↔ CanConnect s a c := by
  unfold newView CanConnect
  split
  · rfl
  · rfl

theorem newView_joins (a c : Node) : (newView a c).Joins (domainNameOf a) (domainNameOf c) := by
  unfold newView
  split
  · exact .inl ⟨rfl, rfl⟩
  · exact .inr ⟨rfl, rfl⟩

theorem newView_dest (a c : Node) : (newView a c).dest = "" := by
  unfold newView
  split
  · rfl
  · rfl

theorem available_ne_nil {n : Node} (hn : n ∈ s.db.nodes) (hid : n.id ≠ x)
    (hdomain : n.domainName = some domain) (hconnected : n.id ∈ s.connected) :
    availableNodes s x domain ≠ [] := by
  refine List.ne_nil_of_mem (List.mem_map.mpr ⟨n, Table.mem_filter_relist.mpr ⟨hn, ?_⟩, rfl⟩)
  simp [hid, hdomain, hconnected]

/-- A domain that had a link through the node and can be linked leaves someone to take over. -/
theorem Linkable.available (hok : StoreOk E x domain s) {l : Link} (hl : l ∈ s.db.links)
    (hlive : l.live = true) (htouches : Touches x l)
    (h : Linkable E s x l.sourceDomain l.destDomain) : availableNodes s x domain ≠ [] := by
  obtain ⟨m, hm, n, hn, ⟨hmx, hmdomain, hmconnected⟩, ⟨hnx, hndomain, hnconnected⟩, -⟩ := h.nodes
  rcases htouches with hsource | hdest
  · exact available_ne_nil hm hmx (hok.ownSource l hl hlive hsource ▸ hmdomain) hmconnected
  · exact available_ne_nil hn hnx (hok.ownDest l hl hlive hdest ▸ hndomain) hnconnected

/-! ## Links after the departure -/

theorem Reassigned.connected (h : Reassigned E x g s s') : s'.connected = s.connected := by
  obtain ⟨s₁, sources, s₂, hmoved, hrecreated, -, hconnected⟩ := h
  obtain ⟨links, routes, queue, ticks, -, rfl⟩ := hmoved.state
  exact hconnected.trans hrecreated.connected

theorem Reassigned.seen (h : Reassigned E x g s s') {v : LinkView}
    (hv : (∃ l ∈ s.db.links, l.live = true ∧ ¬ Touches x l ∧ viewOf l = v) ∨
      ∃ l ∈ s.db.links, l.live = true ∧ l.sourceNodeId = x ∧ movedView g l = v) : Seen s' v := by
  obtain ⟨s₁, sources, s₂, hmoved, hrecreated, hlinks, -⟩ := h
  rw [Seen, hlinks]
  exact hrecreated.mono v ((hmoved.seen_iff v).mpr hv)

theorem Reassigned.outgoing (h : Reassigned E x g s s') (hg : g ∈ s.connected) {l : Link}
    (hl : l ∈ s.db.links) (hlive : l.live = true) (hsource : l.sourceNodeId = x) :
    LinkedUp s' l.sourceDomain l.destDomain :=
  linkedUp_iff.mpr ⟨movedView g l, h.seen (.inr ⟨l, hl, hlive, hsource, rfl⟩), .inl ⟨rfl, rfl⟩,
    h.connected ▸ hg, .inl rfl⟩

theorem linkedUp_comm {a b : String} : LinkedUp s a b ↔ LinkedUp s b a := by
  simp only [linkedUp_iff]
  exact exists_congr fun v => and_congr_right fun _ => and_congr_left fun _ => Or.comm

/-- No link joins the domains after the moves if none was left and none is moved. -/
theorem Moved.not_joins (hok : StoreOk E x domain s) {sources : List String} {s₁ : RouteService}
    (h : Moved x g s (departingLinks s x) sources s₁) {a : String} (hne : a ≠ domain)
    (hleft : ∀ l ∈ s.db.links, l.live = true → ¬ Touches x l → l.betweenDomains a domain = false)
    (houtgoing : ∀ l ∈ s.db.links, l.live = true → l.sourceNodeId = x → l.destDomain ≠ a)
    (v : LinkView)
    (hv : Seen s₁ v) : ¬ v.Joins a domain := by
  intro hjoins
  rcases (h.seen_iff v).mp hv with ⟨l, hl, hlive, htouches, rfl⟩ | ⟨l, hl, hlive, hsource, rfl⟩
  · have hfalse := hleft l hl hlive htouches
    rw [betweenDomains_iff.mpr hjoins] at hfalse
    cases hfalse
  · rcases hjoins with ⟨hsourceDomain, -⟩ | ⟨-, hdestDomain⟩
    · exact hne (hsourceDomain.symm.trans (hok.ownSource l hl hlive hsource))
    · exact houtgoing l hl hlive hsource hdestDomain

theorem Reassigned.incoming (hok : StoreOk E x domain s) (hg : g ∈ availableNodes s x domain)
    (h : Reassigned E x g s s') {l : Link} (hl : l ∈ s.db.links) (hlive : l.live = true)
    (hdest : l.destNodeId = x) (hlinkable : Linkable E s x l.sourceDomain l.destDomain)
    (hreplaceable : Replaceable s x g l) : LinkedUp s' l.sourceDomain l.destDomain := by
  have hdomain : l.destDomain = domain := hok.ownDest l hl hlive hdest
  have hconnected := h.connected
  by_cases hmovable : ∃ l' ∈ s.db.links, l'.live = true ∧ l'.sourceNodeId = x ∧
      l'.destDomain = l.sourceDomain
  · obtain ⟨l', hl', hlive', hsource', hdomain'⟩ := hmovable
    have hup := h.outgoing (connected_of_available hg) hl' hlive' hsource'
    rw [hok.ownSource l' hl' hlive' hsource', hdomain', ← hdomain] at hup
    exact linkedUp_comm.mp hup
  rcases hreplaceable with ⟨l', hl', hlive', htouches, hbetween, hends⟩ | hmovable' |
    ⟨hleft, hcreate⟩
  · exact linkedUp_iff.mpr ⟨viewOf l', h.seen (.inl ⟨l', hl', hlive', htouches, rfl⟩),
      betweenDomains_iff.mp hbetween, hconnected ▸ hends⟩
  · exact absurd hmovable' hmovable
  · obtain ⟨a, ha, hadomain, ⟨l', hl', hlive', hdest', hsource'⟩, ⟨c, hc, hcandidate⟩, hall⟩ :=
      hcreate
    have hne : l.sourceDomain ≠ domain := hdomain ▸ hok.apart l hl hlive
    obtain ⟨s₁, sources, s₂, hmoved, hrecreated, hlinks, -⟩ := h
    rw [hdomain] at hleft
    have hnone : ∀ v, Seen s₁ v → ¬ v.Joins l.sourceDomain domain :=
      hmoved.not_joins hok hne hleft fun l₀ hl₀ hlive₀ hsource₀ hdomain₀ =>
        hmovable ⟨l₀, hl₀, hlive₀, hsource₀, hdomain₀⟩
    -- the source of the removed link considers the candidate
    have hsourceNe : l'.sourceNodeId ≠ x := fun heq => hok.apart l' hl' hlive'
      ((hok.ownSource l' hl' hlive' heq).trans (hok.ownDest l' hl' hlive' hdest').symm)
    have haMem : a ∈ remainingNodes s x := mem_remainingNodes.mpr ⟨ha, hsource' ▸ hsourceNe⟩
    have haSource : a.id ∈ sources := (hmoved.sources a.id).mpr
      ⟨l', mem_departingLinks.mpr ⟨hl', hlive', .inr hdest'⟩, hsourceNe, hsource'⟩
    have heligible : ∀ c ∈ remainingNodes s x, domainNameOf c = domain →
        (eligible a (connectedPeers a.id s₁.db.listAllLinks) (allowedAfter E s x) c = true ↔
          Candidate s x g domain a c) := fun c hc hcdomain =>
      eligible_iff hok hmoved ha hc hcdomain (hadomain ▸ hne)
        (hadomain ▸ hdomain ▸ hlinkable.allowed) (hadomain ▸ hnone)
    obtain ⟨t, hcreated⟩ := hrecreated.created a haMem haSource
    have hlinked : domain ∉ linkedDomains (domainNameOf a) s₁.db.listAllLinks := by
      rw [hadomain, mem_linkedDomains (hdomain ▸ hlinkable.domains.2) hne]
      rintro ⟨v, hv, hjoins⟩
      exact hnone v hv hjoins
    rw [hdomain] at hcandidate hall
    have hcMem : c ∈ remainingNodes s x := mem_remainingNodes.mpr ⟨hc, hcandidate.1⟩
    obtain ⟨d, hd, hddomain⟩ := exists_mem_chosen
      ((E.shuffle_perm t (remainingNodes s x)).mem_iff.mpr hcMem)
      ((heligible c hcMem hcandidate.2.1).mpr hcandidate) (hcandidate.2.1 ▸ hlinked)
    rw [hcandidate.2.1] at hddomain
    obtain ⟨hdMem, hdEligible, -⟩ := of_mem_chosen hd
    have hdMem' := (E.shuffle_perm t (remainingNodes s x)).mem_iff.mp hdMem
    have hup :=
      hall d (mem_remainingNodes.mp hdMem').1 ((heligible d hdMem' hddomain).mp hdEligible)
    refine linkedUp_iff.mpr ⟨newView a d, ?_, ?_, ?_, .inl (newView_dest a d)⟩
    · have hseen := hcreated d hd
      rwa [Seen, hlinks]
    · rw [hdomain, ← hadomain, ← hddomain]
      exact newView_joins a d
    · rw [hconnected]
      exact newView_up.mpr hup

/-! ## The worst order of candidates -/

/-- Disconnected nodes that have to connect come first, then those that others connect to. -/
def rank (s : RouteService) (n : Node) : Nat :=
  if hasExternal n then 1 else if n.id ∈ s.connected then 2 else 0

theorem canConnect_of_rank_le {a b c : Node} (hle : rank s c ≤ rank s b) (hc : CanConnect s a c) :
    CanConnect s a b := by
  unfold rank at hle
  unfold CanConnect at hc ⊢
  split at hc
  · next hext =>
    rw [if_pos hext] at hle
    split
    · exact hc
    · next hext' =>
      rw [if_neg hext'] at hle
      by_contra hnot
      rw [if_neg hnot] at hle
      omega
  · next hext =>
    rw [if_neg hext, if_pos hc] at hle
    split
    · next hext' =>
      rw [if_pos hext'] at hle
      omega
    · next hext' =>
      by_contra hnot
      rw [if_neg hext', if_neg hnot] at hle
      omega

/-- In the worst order only links come about that come about in every order. -/
theorem Reassigned.replaceable (hok : StoreOk E x domain s) (h : Reassigned E x g s s')
    (horder : ∀ t nodes, (E.shuffle t nodes).Pairwise fun m n => rank s m ≤ rank s n) {l : Link}
    (hl : l ∈ s.db.links) (hlive : l.live = true) (hdest : l.destNodeId = x)
    (hlinkable : Linkable E s x l.sourceDomain l.destDomain)
    (hup : LinkedUp s' l.sourceDomain l.destDomain) : Replaceable s x g l := by
  have hdomain : l.destDomain = domain := hok.ownDest l hl hlive hdest
  have hne : l.sourceDomain ≠ domain := hdomain ▸ hok.apart l hl hlive
  have hconnected := h.connected
  obtain ⟨s₁, sources, s₂, hmoved, hrecreated, hlinks, -⟩ := h
  obtain ⟨v, hv, hjoins, hsource, hends⟩ := linkedUp_iff.mp hup
  rw [hconnected] at hsource hends
  rw [Seen, hlinks] at hv
  rcases hrecreated.origin v hv with hv | ⟨a, ha, haSource, t, c, hc, rfl⟩
  · rcases (hmoved.seen_iff v).mp hv with
      ⟨l', hl', hlive', htouches, rfl⟩ | ⟨l', hl', hlive', hsource', rfl⟩
    · exact .inl ⟨l', hl', hlive', htouches, betweenDomains_iff.mpr hjoins, hsource, hends⟩
    · refine .inr (.inl ⟨l', hl', hlive', hsource', ?_⟩)
      rcases hjoins with ⟨hsourceDomain, -⟩ | ⟨-, hdestDomain⟩
      · exact absurd (hsourceDomain.symm.trans (hok.ownSource l' hl' hlive' hsource')) hne
      · exact hdestDomain
  · -- the link was created by the source of an incoming link, which is not of the node's domain
    obtain ⟨ha, hax⟩ := mem_remainingNodes.mp ha
    obtain ⟨l', hl', -, hsource'⟩ := (hmoved.sources a.id).mp haSource
    obtain ⟨hl', hlive', htouches'⟩ := mem_departingLinks.mp hl'
    have hdest' : l'.destNodeId = x :=
      htouches'.resolve_left fun heq => hax (hsource'.symm.trans heq)
    have hanot : domainNameOf a ≠ domain := by
      rw [← hok.sources l' hl' hlive' a ha hsource'.symm, ← hok.ownDest l' hl' hlive' hdest']
      exact hok.apart l' hl' hlive'
    obtain ⟨hcMem, hcEligible, hcLinked⟩ := of_mem_chosen hc
    have hcMem := (E.shuffle_perm t (remainingNodes s x)).mem_iff.mp hcMem
    have hdomains : domainNameOf a = l.sourceDomain ∧ domainNameOf c = domain := by
      rw [hdomain] at hjoins
      rcases hjoins with ⟨h₁, h₂⟩ | ⟨h₁, h₂⟩ <;> rcases newView_joins a c with ⟨h₃, h₄⟩ | ⟨h₃, h₄⟩
      · exact ⟨h₃.symm.trans h₁, h₄.symm.trans h₂⟩
      · exact absurd (h₄.symm.trans h₂) hanot
      · exact absurd (h₃.symm.trans h₁) hanot
      · exact ⟨h₄.symm.trans h₂, h₃.symm.trans h₁⟩
    obtain ⟨hadomain, hcdomain⟩ := hdomains
    have hnone : ∀ v, Seen s₁ v → ¬ v.Joins l.sourceDomain domain := by
      rw [hadomain, hcdomain, mem_linkedDomains (hdomain ▸ hlinkable.domains.2) hne] at hcLinked
      exact fun v hv hjoins => hcLinked ⟨v, hv, hjoins⟩
    have heligible : ∀ c ∈ remainingNodes s x, domainNameOf c = domain →
        (eligible a (connectedPeers a.id s₁.db.listAllLinks) (allowedAfter E s x) c = true ↔
          Candidate s x g domain a c) := fun c hc hcdomain =>
      eligible_iff hok hmoved ha hc hcdomain (hadomain ▸ hne)
        (hadomain ▸ hdomain ▸ hlinkable.allowed) (hadomain ▸ hnone)
    refine .inr (.inr ⟨fun l₀ hl₀ hlive₀ htouches₀ => ?_, a, ha, hadomain,
      ⟨l', hl', hlive', hdest', hsource'⟩, ⟨c, (mem_remainingNodes.mp hcMem).1, ?_⟩,
      fun b hb hcandidate => ?_⟩)
    · rw [Bool.eq_false_iff, ne_eq, betweenDomains_iff, hdomain]
      exact hnone _ (hmoved.kept l₀ hl₀ hlive₀ htouches₀)
    · rw [hdomain]
      exact (heligible c hcMem hcdomain).mp hcEligible
    · -- no candidate comes before the one that was chosen
      rw [hdomain] at hcandidate
      have hbMem : b ∈ remainingNodes s x := mem_remainingNodes.mpr ⟨hb, hcandidate.1⟩
      have hle := rank_le_of_mem_chosen (horder t _) hc
        ((E.shuffle_perm t (remainingNodes s x)).mem_iff.mpr hbMem)
        ((heligible b hbMem hcandidate.2.1).mpr hcandidate) (hcandidate.2.1.trans hcdomain.symm)
      exact canConnect_of_rank_le hle (newView_up.mp hsource)

/-! ## Departures -/

structure Choices where
  shuffle : Nat → List Node → List Node
  shuffle_perm : ∀ n l, (shuffle n l).Perm l
  choose : Nat → Nat

def Env.choosing (E : Env) (choices : Choices) : Env :=
  { E with
    shuffle := choices.shuffle
    shuffle_perm := choices.shuffle_perm
    choose := choices.choose }

inductive Departure
  | disconnected
  | deregistered

def Departure.handle (E : Env) (x : String) : Departure → Svc Unit
  | disconnected => nodeDisconnected E x
  | deregistered => nodeDeregistered E x

/-- What follows the work on the links leaves the links alone. -/
theorem run_departure (d : Departure) (s : RouteService) : ∃ nodeLocks mutexes,
    ((d.handle E x).run s).2.db.links =
        ((handleLinksForDepartingNode E x).run { s with nodeLocks, mutexes }).2.db.links ∧
      ((d.handle E x).run s).2.connected =
        ((handleLinksForDepartingNode E x).run { s with nodeLocks, mutexes }).2.connected := by
  obtain ⟨m, nodeLocks, mutexes, hmutex⟩ := run_nodeMutex (x := x) s
  refine ⟨nodeLocks, mutexes, ?_⟩
  have hroutes := (run_cleanupRoutesForNode (E := E) (x := x)
    ((handleLinksForDepartingNode E x).run { s with nodeLocks, mutexes }).2).only
  cases d with
  | disconnected =>
    simp only [Departure.handle, nodeDisconnected, locked, run_bind, hmutex]
    exact ⟨hroutes.links, hroutes.connected⟩
  | deregistered =>
    simp only [Departure.handle, nodeDeregistered, locked, run_bind, hmutex, run_lock,
      run_update]
    obtain ⟨nodes, -, hdelete⟩ := deleteNode_snd
      (((cleanupRoutesForNode E x).run ((handleLinksForDepartingNode E x).run
        { s with nodeLocks, mutexes }).2).2.db) x
    rw [hdelete]
    exact ⟨hroutes.links, hroutes.connected⟩

theorem StoreOk.choosing (hok : StoreOk E x domain s) (choices : Choices)
    (nodeLocks : List (String × Nat)) (mutexes : Nat) :
    StoreOk (E.choosing choices) x domain { s with nodeLocks, mutexes } :=
  { hok with ids := { hok.ids with } }

theorem run_departure_reassigned (uuids : Uuids E) (hok : StoreOk E x domain s)
    (hlinks : departingLinks s x ≠ []) (havailable : availableNodes s x domain ≠ []) (d : Departure)
    (choices : Choices) : ∃ g ∈ availableNodes s x domain,
      (availableNodes s x domain)[choices.choose s.ticks % (availableNodes s x domain).length]? =
        some g ∧
      ∃ nodeLocks mutexes, Reassigned (E.choosing choices) x g { s with nodeLocks, mutexes }
        ((d.handle (E.choosing choices) x).run s).2 := by
  obtain ⟨nodeLocks, mutexes, hlinksEq, hconnectedEq⟩ :=
    run_departure d s
  have uuids' : Uuids (E.choosing choices) := ⟨uuids.injective, uuids.nonempty⟩
  obtain ⟨g, hg, hget, s₁, sources, s₂, hmoved, hrecreated, hlinks₂, hconnected₂⟩ :=
    run_handleLinks_reassigned uuids' (hok.choosing choices nodeLocks mutexes) hlinks havailable
  exact ⟨g, hg, hget, nodeLocks, mutexes, s₁, sources, s₂, hmoved, hrecreated,
    hlinksEq.trans hlinks₂, hconnectedEq.trans hconnected₂⟩

/-- The worst choices: a given gateway, and candidates by rank. -/
def worstChoices (s : RouteService) (index : Nat) : Choices where
  shuffle _ nodes := nodes.mergeSort fun m n => rank s m ≤ rank s n
  shuffle_perm _ nodes := List.mergeSort_perm nodes _
  choose _ := index

theorem pairwise_worstChoices (s : RouteService) (index t : Nat) (nodes : List Node) :
    ((worstChoices s index).shuffle t nodes).Pairwise fun m n => rank s m ≤ rank s n := by
  have hsorted := @List.pairwise_mergeSort _ (fun m n => decide (rank s m ≤ rank s n))
    (fun a b c hab hbc => by simp only [decide_eq_true_eq] at *; omega)
    (fun a b => by simp only [Bool.or_eq_true, decide_eq_true_eq]; omega) nodes
  exact hsorted.imp fun h => by simpa using h

theorem Linkable.choosing {a b : String} (h : Linkable E s x a b) (choices : Choices)
    (nodeLocks : List (String × Nat)) (mutexes : Nat) :
    Linkable (E.choosing choices) { s with nodeLocks, mutexes } x a b :=
  { h with }

/-- Whatever is picked at random, every pair of domains that had a link through the departing node,
may be linked and has connected nodes that can be linked is linked afterwards, if and only if every
incoming link of such a pair is replaceable. -/
theorem failover_keeps_linked_iff (uuids : Uuids E) (hok : StoreOk E x domain s) (d : Departure) :
    (∀ choices, KeepsLinked E x s ((d.handle (E.choosing choices) x).run s).2) ↔
      ∀ l ∈ s.db.links, l.live = true → l.destNodeId = x →
        Linkable E s x l.sourceDomain l.destDomain →
          ∀ g ∈ availableNodes s x l.destDomain, Replaceable s x g l := by
  constructor
  · intro hkeeps l hl hlive hdest hlinkable g hg
    rw [hok.ownDest l hl hlive hdest] at hg
    have hlinks : departingLinks s x ≠ [] :=
      List.ne_nil_of_mem (mem_departingLinks.mpr ⟨hl, hlive, .inr hdest⟩)
    -- `g` takes over, and candidates are considered in the worst order
    obtain ⟨index, hindex, hget⟩ := List.getElem_of_mem hg
    obtain ⟨g', hg', hget', nodeLocks, mutexes, hreassigned⟩ :=
      run_departure_reassigned uuids hok hlinks (List.ne_nil_of_mem hg) d (worstChoices s index)
    have heq : g' = g := by
      have hmod : (worstChoices s index).choose s.ticks % (availableNodes s x domain).length =
          index :=
        Nat.mod_eq_of_lt hindex
      rw [hmod, List.getElem?_eq_getElem hindex, hget] at hget'
      exact (Option.some.inj hget').symm
    subst heq
    exact hreassigned.replaceable (hok.choosing _ nodeLocks mutexes) (pairwise_worstChoices s index)
      hl hlive hdest (hlinkable.choosing _ nodeLocks mutexes)
      (hkeeps (worstChoices s index) l hl hlive (.inr hdest) hlinkable)
  · intro hreplaceable choices l hl hlive htouches hlinkable
    have hlinks : departingLinks s x ≠ [] :=
      List.ne_nil_of_mem (mem_departingLinks.mpr ⟨hl, hlive, htouches⟩)
    obtain ⟨g, hg, -, nodeLocks, mutexes, hreassigned⟩ := run_departure_reassigned uuids hok hlinks
      (hlinkable.available hok hl hlive htouches) d choices
    by_cases hsource : l.sourceNodeId = x
    · exact hreassigned.outgoing (connected_of_available hg) hl hlive hsource
    · have hdest := htouches.resolve_left hsource
      exact hreassigned.incoming (hok.choosing choices nodeLocks mutexes) hg hl hlive hdest
        (hlinkable.choosing choices nodeLocks mutexes)
        (hreplaceable l hl hlive hdest hlinkable g (hok.ownDest l hl hlive hdest ▸ hg))

/-! ## A gateway between two domains -/

/-- The plain environment, with UUIDs that are told apart by their length. -/
def Env.unary : Env :=
  { Env.plain with uuid := fun n => String.ofList (List.replicate (n + 1) 'u') }

theorem Env.unary_uuids : Uuids Env.unary where
  injective m n h := by
    have hlen := congrArg String.length h
    simpa [Env.unary] using hlen
  nonempty n h := by
    have hlen := congrArg String.length h
    simp [Env.unary] at hlen

/-- A node that can be reached from outside. -/
def sampleNode (id domain : String) : Node where
  id
  domainName := some domain
  connDetails := [{ endpoint := id, externalEndpoint := some (id ++ ".example") }]

def sampleHubGraph : UnGraph :=
  .ofEdges ["a", "d", "b"] [⟨0, 1, 1⟩, ⟨1, 2, 1⟩] (by decide)

/-- Domain `d` has a gateway and a second node; `a` and `b` may be linked with it. -/
def sampleGateway (links : Table Link.key) : RouteService where
  db :=
    { nodes := ⟨[sampleNode "node-a" "a", sampleNode "node-b" "b", sampleNode "gateway" "d",
        sampleNode "second" "d"], by decide⟩
      links }
  segmentGraphs := [("default", sampleHubGraph)]
  connected := ["node-a", "node-b", "second"]

def incomingOnly : RouteService :=
  sampleGateway ⟨[sampleLink "node-a" "a" "gateway" "d"], by decide⟩

/-- The gateway has a link from `a` and one to `b`. -/
def incomingAndOutgoing : RouteService :=
  sampleGateway ⟨[sampleLink "node-a" "a" "gateway" "d", sampleLink "gateway" "d" "node-b" "b"],
    by decide +kernel⟩

theorem sampleGateway_storeOk {links : Table Link.key}
    (hlinks : ∀ l ∈ links, l ∈ incomingAndOutgoing.db.links) :
    StoreOk Env.unary "gateway" "d" (sampleGateway links) := by
  have hrows : ∀ P : Link → Prop, (∀ l ∈ incomingAndOutgoing.db.links, P l) →
      ∀ l ∈ (sampleGateway links).db.links, P l := fun P h l hl => h l (hlinks l hl)
  -- no id of the sample starts with the letter of the UUIDs
  have hfresh : ∀ id t, id.toList.head? ≠ some 'u' → id ≠ Env.unary.uuid t := by
    rintro _ t hhead rfl
    simp [Env.unary, List.replicate_succ] at hhead
  have hpairs : ∀ l ∈ incomingAndOutgoing.db.links, l.live = true →
      ∀ l' ∈ incomingAndOutgoing.db.links,
      l'.live = true → l.linkId = l'.linkId → l.destDomain = l'.destDomain := by decide +kernel
  have hheads : ∀ l ∈ incomingAndOutgoing.db.links, l.linkId.toList.head? ≠ some 'u' := by
    decide +kernel
  have hnodes : (sampleGateway links).db.nodes = incomingAndOutgoing.db.nodes := rfl
  exact {
    ids := ⟨fun l hl hlive l' hl' => hpairs l (hlinks l hl) hlive l' (hlinks l' hl'),
      hrows _ fun l hl t _ => hfresh _ t (hheads l hl), hrows _ (by decide +kernel)⟩
    fields := hrows _ (by decide +kernel)
    named := by rw [hnodes]; decide
    sources := by rw [hnodes]; exact hrows _ (by decide +kernel)
    dests := by rw [hnodes]; exact hrows _ (by decide +kernel)
    apart := hrows _ (by decide +kernel)
    departing := by decide
    ownSource := hrows _ (by decide +kernel)
    ownDest := hrows _ (by decide +kernel) }

theorem incomingOnly_linkable : Linkable Env.unary incomingOnly "gateway" "a" "d" where
  allowed := by decide +kernel
  domains := by decide
  nodes := ⟨sampleNode "node-a" "a", by simp [incomingOnly, sampleGateway, Table.mem_def],
    sampleNode "second" "d", by simp [incomingOnly, sampleGateway, Table.mem_def], by
      decide +kernel⟩

/-- If the gateway has only the link from `a`, the second node gets one in its place. -/
theorem failover_keeps_linked_iff_incomingOnly :
    Linkable Env.unary incomingOnly "gateway" "a" "d" ∧
    ∀ choices, KeepsLinked Env.unary "gateway" incomingOnly
      ((Departure.disconnected.handle (Env.unary.choosing choices) "gateway").run
        incomingOnly).2 := by
  refine ⟨incomingOnly_linkable, (failover_keeps_linked_iff Env.unary_uuids
    (sampleGateway_storeOk fun _ hl => List.mem_cons.mpr (.inl (List.mem_singleton.mp hl)))
      .disconnected).mpr ?_⟩
  intro l hl _ _ _ g hg
  obtain rfl : l = sampleLink "node-a" "a" "gateway" "d" := List.mem_singleton.mp hl
  have hrows : ∀ P : Link → Prop, P (sampleLink "node-a" "a" "gateway" "d") →
      ∀ l ∈ incomingOnly.db.links, P l := fun P h l hl => List.mem_singleton.mp hl ▸ h
  refine .inr (.inr ⟨hrows _ fun _ htouches => absurd (.inr rfl) htouches, sampleNode "node-a" "a",
    by simp [sampleGateway, Table.mem_def], rfl, ⟨_, hl, rfl, rfl, rfl⟩, ?_, ?_⟩)
  · refine ⟨sampleNode "second" "d", by simp [sampleGateway, Table.mem_def], by decide,
      rfl, by decide +kernel, ?_, ?_⟩
    · exact hrows _ fun _ htouches => absurd (.inr rfl) htouches
    · exact fun _ => hrows _ fun _ => by decide
  · intro c hc _
    have hall : ∀ c ∈ incomingOnly.db.nodes, hasExternal c = true := by decide +kernel
    rw [CanConnect, if_pos (hall c hc)]
    decide

/-- If it has a link to `b` as well, that one is moved to the second node, which then counts as a
peer of every node: nothing links `a` and `d` any more. -/
theorem not_keepsLinked_incomingAndOutgoing :
    Uuids Env.unary ∧ StoreOk Env.unary "gateway" "d" incomingAndOutgoing ∧
    ¬ KeepsLinked Env.unary "gateway" incomingAndOutgoing
      ((Departure.disconnected.handle Env.unary "gateway").run incomingAndOutgoing).2 := by
  refine ⟨Env.unary_uuids, sampleGateway_storeOk fun _ hl => hl, fun hkeeps => ?_⟩
  have hlinkable : Linkable Env.unary incomingAndOutgoing "gateway" "a" "d" :=
    ⟨by decide +kernel, by decide, incomingOnly_linkable.nodes⟩
  have hup := hkeeps (sampleLink "node-a" "a" "gateway" "d")
    (by simp [incomingAndOutgoing, sampleGateway, Table.mem_def]) rfl (.inr rfl) hlinkable
  have hnone : ∀ l ∈ ((Departure.disconnected.handle Env.unary "gateway").run
      incomingAndOutgoing).2.db.links, l.live = true → l.betweenDomains "a" "d" = false := by
    decide +kernel
  obtain ⟨l, hl, hlive, hbetween, -⟩ := hup
  exact Bool.noConfusion ((hnone l hl hlive).symm.trans hbetween)

end Slim.RouteService
