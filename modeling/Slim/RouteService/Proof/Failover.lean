import Slim.RouteService.Proof.Departure
import Slim.RouteService.Proof.EnsureLinks
import Slim.RouteService.Proof.Gateways
import Slim.RouteService.Proof.Root

/-!
# A gateway leaves

If a node leaves and its domain has other connected nodes, one of them becomes the new gateway: the
outgoing links of the node are moved to it (`run_moveLinks`), the incoming ones are removed and
their sources create new ones (`run_recreateLinks`).
-/

namespace Slim.RouteService

open Db Fiber Table

variable {E : Env} {x g domain : String} {s : RouteService}

/-- The links of the store are complete, and the domains in them are those of their nodes. -/
structure StoreOk (E : Env) (x domain : String) (s : RouteService) : Prop where
  ids : IdsOk E s
  fields : ∀ l ∈ s.db.links, l.missingFields = false
  named : ∀ n ∈ s.db.nodes, n.id ≠ ""
  sources : ∀ l ∈ s.db.links, l.live = true → ∀ n ∈ s.db.nodes, n.id = l.sourceNodeId →
    l.sourceDomain = domainNameOf n
  dests : ∀ l ∈ s.db.links, l.live = true → ∀ n ∈ s.db.nodes, n.id = l.destNodeId →
    l.destDomain = domainNameOf n
  apart : ∀ l ∈ s.db.links, l.live = true → l.sourceDomain ≠ l.destDomain
  departing : x ≠ ""
  ownSource : ∀ l ∈ s.db.links, l.live = true → l.sourceNodeId = x → l.sourceDomain = domain
  ownDest : ∀ l ∈ s.db.links, l.live = true → l.destNodeId = x → l.destDomain = domain

/-- Another node of the domain, which takes over. -/
structure Gateway (x domain g : String) (s : RouteService) : Prop where
  ne : g ≠ x
  registered : ∃ n ∈ s.db.nodes, n.id = g ∧ domainNameOf n = domain

theorem Gateway.source (hg : Gateway x domain g s) (h : StoreOk E x domain s) {l : Link}
    (hl : l ∈ s.db.links) (hlive : l.live = true) (hsource : l.sourceNodeId = g) :
    l.sourceDomain = domain := by
  obtain ⟨n, hn, hid, hdomain⟩ := hg.registered
  rw [h.sources l hl hlive n hn (hid.trans hsource.symm), hdomain]

theorem Gateway.named (hg : Gateway x domain g s) (h : StoreOk E x domain s) : g ≠ "" := by
  obtain ⟨n, hn, hid, -⟩ := hg.registered
  exact hid ▸ h.named n hn

/-! ## Links that are moved or removed -/

/-- The link that takes the place of an outgoing one. -/
def movedView (g : String) (l : Link) : LinkView := ⟨g, l.sourceDomain, "", l.destDomain⟩

/-- What the loop over the links of the node has done once `done` are through. -/
structure Moved (x g : String) (s : RouteService) (done : List Link) (sources : List String)
    (s' : RouteService) : Prop where
  state : ∃ links routes queue ticks, s.ticks ≤ ticks ∧
    s' = { s with db := { s.db with links, routes }, queue, ticks }
  pending : ∀ l ∈ s.db.links, l ∉ done → Touches x l → l ∈ s'.db.links
  kept : ∀ l ∈ s.db.links, l.live = true → ¬ Touches x l → Seen s' (viewOf l)
  moved : ∀ l ∈ done, l.sourceNodeId = x → Seen s' (movedView g l)
  origin : ∀ m ∈ s'.db.links, m ∈ s.db.links ∧ m ∉ done ∨
    ∃ l ∈ done, l.sourceNodeId = x ∧ m.linkId = l.linkId ∧ m.live = true ∧ viewOf m = movedView g l
  sources : ∀ a, a ∈ sources ↔ ∃ l ∈ done, l.sourceNodeId ≠ x ∧ l.sourceNodeId = a

theorem Moved.refl (s : RouteService) : Moved x g s [] [] s where
  state := ⟨s.db.links, s.db.routes, s.queue, s.ticks, le_rfl, rfl⟩
  pending _ hl _ _ := hl
  kept _ hl hlive _ := seen_of_mem hl hlive
  moved _ hl := by cases hl
  origin _ hm := .inl ⟨hm, List.not_mem_nil⟩
  sources a := by simp

section Step

variable {s s' : RouteService} {done : List Link} {sources : List String} {link : Link}

/-- No other row has the key of a link that touches the node. -/
theorem Moved.key_ne (h : Moved x g s done sources s') (hok : StoreOk E x domain s)
    (hg : Gateway x domain g s) (hlink : link ∈ s.db.links) (htouches : Touches x link) {m : Link}
    (hm : m ∈ s'.db.links) (hne : m ≠ link) : m.key ≠ link.key := by
  intro hkey
  rcases h.origin m hm with ⟨hm, -⟩ | ⟨l, -, -, -, -, hview⟩
  · exact hne (s.db.links.eq_of_mem hm hlink hkey)
  · have hsource : link.sourceNodeId = g :=
      (congrArg LinkKey.sourceNodeId hkey).symm.trans (congrArg LinkView.source hview)
    have hdest : link.destNodeId = "" :=
      (congrArg LinkKey.destNodeId hkey).symm.trans (congrArg LinkView.dest hview)
    rcases htouches with htouches | htouches
    · exact hg.ne (hsource.symm.trans htouches)
    · exact hok.departing (htouches.symm.trans hdest)

/-- The row that a moved link is stored under holds no other link. -/
theorem Moved.view_eq (h : Moved x g s done sources s') (hok : StoreOk E x domain s)
    (hdone : ∀ l ∈ done, l ∈ s.db.links ∧ l.live = true) (hg : Gateway x domain g s)
    (hlink : link ∈ s.db.links) (hlive : link.live = true) (hsource : link.sourceNodeId = x)
    {m : Link}
    (hm : m ∈ s'.db.links) (hmlive : m.live = true) (hmsource : m.sourceNodeId = g)
    (hmdest : m.destNodeId = "") (hmid : m.linkId = link.linkId) : viewOf m = movedView g link := by
  have hdomains : m.sourceDomain = domain ∧ m.destDomain = link.destDomain := by
    rcases h.origin m hm with ⟨hm, -⟩ | ⟨l, hl, hlsource, hlid, -, hview⟩
    · exact ⟨hg.source hok hm hmlive hmsource, hok.ids.sameDest m hm hmlive link hlink hlive hmid⟩
    · obtain ⟨hl, hllive⟩ := hdone l hl
      refine ⟨(congrArg LinkView.sourceDomain hview).trans (hok.ownSource l hl hllive hlsource), ?_⟩
      exact (congrArg LinkView.destDomain hview).trans
        (hok.ids.sameDest l hl hllive link hlink hlive (hlid.symm.trans hmid))
  rw [viewOf, movedView, hmsource, hmdest, hdomains.1, hdomains.2,
    hok.ownSource link hlink hlive hsource]

theorem seen_erase {v : LinkView} (htouches : Touches x link) (hv : Seen s' v)
    (hsource : v.source ≠ x)
    (hdest : v.dest ≠ x) : ∃ m ∈ s'.db.links.erase link.key, m.live = true ∧ viewOf m = v := by
  obtain ⟨m, hm, hlive, rfl⟩ := hv
  refine ⟨m, mem_erase.mpr ⟨hm, fun hkey => ?_⟩, hlive, rfl⟩
  rcases htouches with htouches | htouches
  · exact hsource ((congrArg LinkKey.sourceNodeId hkey).trans htouches)
  · exact hdest ((congrArg LinkKey.destNodeId hkey).trans htouches)

section
variable (h : Moved x g s done sources s') {s'' : RouteService}

include h

/-- The row of a link of the node goes, and with an outgoing link a row in its place may come. -/
theorem Moved.next (hok : StoreOk E x domain s) (hg : Gateway x domain g s)
    (hlink : link ∈ s.db.links) (htouches : Touches x link) {sources' : List String}
    (hstate : ∃ links routes queue ticks, s'.ticks ≤ ticks ∧
      s'' = { s' with db := { s'.db with links, routes }, queue, ticks })
    (hold : ∀ l ∈ s'.db.links.erase link.key, Touches x l → l ∈ s''.db.links)
    (hseen : ∀ v, Seen s' v → v.source ≠ x → v.dest ≠ x → Seen s'' v)
    (hmoved : link.sourceNodeId = x → Seen s'' (movedView g link))
    (hnew : ∀ m ∈ s''.db.links, m ∈ s'.db.links.erase link.key ∨ link.sourceNodeId = x ∧
      m.linkId = link.linkId ∧ m.live = true ∧ viewOf m = movedView g link)
    (hsources : ∀ a, a ∈ sources' ↔ a ∈ sources ∨ link.sourceNodeId ≠ x ∧ link.sourceNodeId = a) :
    Moved x g s (done ++ [link]) sources' s'' := by
  refine ⟨?_, ?_, ?_, ?_, ?_, ?_⟩
  · obtain ⟨links, routes, queue, ticks, hle, rfl⟩ := h.state
    obtain ⟨_, _, _, _, hle', rfl⟩ := hstate
    exact ⟨_, _, _, _, hle.trans hle', rfl⟩
  · intro l hl hnot hltouches
    simp only [List.mem_append, List.mem_singleton, not_or] at hnot
    have hl' := h.pending l hl hnot.1 hltouches
    exact hold l (mem_erase.mpr ⟨hl', h.key_ne hok hg hlink htouches hl' hnot.2⟩) hltouches
  · intro l hl hllive hltouches
    have hends := not_or.mp hltouches
    exact hseen _ (h.kept l hl hllive hltouches) hends.1 hends.2
  · intro l hl hlsource
    rcases List.mem_append.mp hl with hl | hl
    · exact hseen _ (h.moved l hl hlsource) hg.ne (Ne.symm hok.departing)
    · rw [List.mem_singleton.mp hl] at hlsource ⊢
      exact hmoved hlsource
  · intro m hm
    rcases hnew m hm with hm | hm
    · obtain ⟨hm, hkey⟩ := mem_erase.mp hm
      rcases h.origin m hm with ⟨hm, hnot⟩ | ⟨l, hl, hrest⟩
      · refine .inl ⟨hm, ?_⟩
        simp only [List.mem_append, List.mem_singleton, not_or]
        exact ⟨hnot, fun heq => hkey (heq ▸ rfl)⟩
      · exact .inr ⟨l, List.mem_append_left _ hl, hrest⟩
    · exact .inr ⟨link, by simp, hm⟩
  · intro a
    simp [hsources, h.sources, or_and_right, exists_or]

theorem Moved.outgoing (hok : StoreOk E x domain s)
    (hdone : ∀ l ∈ done, l ∈ s.db.links ∧ l.live = true) (hg : Gateway x domain g s)
    (hlink : link ∈ s.db.links) (hlive : link.live = true) (hsource : link.sourceNodeId = x)
    {row : Link} (hrow : row.live = true) (hview : viewOf row = movedView g link)
    (hid : row.linkId = link.linkId)
    (hstate : ∃ queue ticks, s'.ticks ≤ ticks ∧ s'' =
      { s' with
        db := { s'.db with links := (s'.db.links.erase link.key).put row }, queue, ticks }) :
    Moved x g s (done ++ [link]) sources s'' := by
  obtain ⟨queue', ticks', hle', rfl⟩ := hstate
  have hrowSource : row.sourceNodeId = g := congrArg LinkView.source hview
  have hrowDest : row.destNodeId = "" := congrArg LinkView.dest hview
  refine h.next hok hg hlink (.inl hsource) ⟨_, _, _, _, hle', rfl⟩ ?_ ?_
    (fun _ => ⟨row, mem_put.mpr (.inl rfl), hrow, hview⟩) ?_ (fun a => by simp [hsource])
  · intro l hl hltouches
    refine mem_put.mpr (.inr ⟨hl, fun hkey => ?_⟩)
    rcases hltouches with hltouches | hltouches
    · exact hg.ne
        (hrowSource.symm.trans ((congrArg LinkKey.sourceNodeId hkey).symm.trans hltouches))
    · exact hok.departing (hltouches.symm.trans ((congrArg LinkKey.destNodeId hkey).trans hrowDest))
  · -- what was seen and does not touch the node is seen still, perhaps in the new row
    intro v hv hvsource hvdest
    obtain ⟨m, hm, hmlive, rfl⟩ := seen_erase (.inl hsource) hv hvsource hvdest
    by_cases hkey : m.key = row.key
    · refine ⟨row, mem_put.mpr (.inl rfl), hrow, ?_⟩
      rw [hview, h.view_eq hok hdone hg hlink hlive hsource (mem_erase.mp hm).1 hmlive
        ((congrArg LinkKey.sourceNodeId hkey).trans hrowSource)
        ((congrArg LinkKey.destNodeId hkey).trans hrowDest)
        ((congrArg LinkKey.linkId hkey).trans hid)]
    · exact ⟨m, mem_put.mpr (.inr ⟨hm, hkey⟩), hmlive, rfl⟩
  · intro m hm
    rcases mem_put.mp hm with rfl | ⟨hm, -⟩
    · exact .inr ⟨hsource, hid, hrow, hview⟩
    · exact .inl hm

theorem run_moveLink (hok : StoreOk E x domain s)
    (hdone : ∀ l ∈ done, l ∈ s.db.links ∧ l.live = true) (hg : Gateway x domain g s)
    (hlink : link ∈ s.db.links) (hnot : link ∉ done) (hlive : link.live = true)
    (htouches : Touches x link) :
    Moved x g s (done ++ [link]) ((moveLink E x g sources link).run s').1
      ((moveLink E x g sources link).run s').2 := by
  have hget : s'.db.links.get? link.key = some link :=
    Table.get?_of_mem (h.pending link hlink hnot htouches)
  unfold moveLink
  by_cases hsource : link.sourceNodeId = x
  · have hfields : ∀ now, Link.missingFields
        { link with sourceNodeId := g, destNodeId := "", status := .Pending, lastUpdated := now } =
          false := by
      have hlinkFields := hok.fields link hlink
      intro now
      simp only [Link.missingFields, Bool.or_eq_false_iff, String.isEmpty_eq_false_iff]
        at hlinkFields ⊢
      exact ⟨⟨hlinkFields.1.1, hg.named hok⟩, hlinkFields.2⟩
    simp only [hsource, if_true, run_bind, run_update, Database.deleteLink, hget,
      Database.addLink, hfields]
    refine h.outgoing hok hdone hg hlink hlive hsource ?_ ?_ ?_
      ⟨_, _, Nat.le_add_right s'.ticks 2, rfl⟩
    · rfl
    · rfl
    · rfl
  · have hdest : link.destNodeId = x := htouches.resolve_left hsource
    simp only [hsource, if_false, hdest, if_true, run_bind, run_update, Database.deleteLink, hget]
    have hdrops := run_removeRoutes (E := E) ((s'.db.getRoutesByLinkId link.linkId))
      { s' with db := { s'.db with links := s'.db.links.erase link.key }, ticks := s'.ticks + 1 }
    obtain ⟨routes, queue, ticks, heq⟩ := hdrops.only
    have hle := hdrops.ticks_le
    rw [heq] at hle
    have hlinks := congrArg (fun s'' : RouteService => s''.db.links) heq
    exact h.next hok hg hlink htouches ⟨_, _, _, _, Nat.le_of_succ_le hle, heq⟩
      (fun l hl _ => (congrArg (l ∈ ·) hlinks).mpr hl)
      (fun v hv hs hd => (congrArg (fun links => ∃ m ∈ links, Link.live m = true ∧ viewOf m = v)
        hlinks).mpr (seen_erase htouches hv hs hd))
      (fun hx => absurd hx hsource) (fun m hm => .inl ((congrArg (m ∈ ·) hlinks).mp hm))
      (fun a => by simp [hsource, eq_comm])

end

end Step

theorem run_moveLinks (hok : StoreOk E x domain s) (hg : Gateway x domain g s) {ticks : Nat}
    (hticks : s.ticks ≤ ticks) :
    Moved x g s (departingLinks s x)
      ((foldl (moveLink E x g) [] (departingLinks s x)).run { s with ticks }).1
      ((foldl (moveLink E x g) [] (departingLinks s x)).run { s with ticks }).2 := by
  have hrefl : Moved x g s [] [] { s with ticks } := by
    obtain ⟨-, hpending, hkept, hmoved, horigin, hsources⟩ := Moved.refl (x := x) (g := g) s
    exact ⟨⟨_, _, _, ticks, hticks, rfl⟩, hpending, hkept, hmoved, horigin, hsources⟩
  refine run_foldl_induction (P := Moved x g s) hrefl ?_
  intro pre l post sources s' heq hpre
  have hmem : ∀ l' ∈ pre ++ l :: post, l' ∈ s.db.links ∧ l'.live = true ∧ Touches x l' :=
    fun l' hl' => mem_departingLinks.mp (heq ▸ hl')
  have hnodup := nodup_departingLinks s x
  rw [heq] at hnodup
  obtain ⟨hl, hlive, htouches⟩ := hmem l (by simp)
  refine run_moveLink hpre hok (fun l' hl' => ?_) hg hl ?_ hlive htouches
  · obtain ⟨hl', hlive', -⟩ := hmem l' (List.mem_append_left _ hl')
    exact ⟨hl', hlive'⟩
  · intro hlpre
    exact (List.nodup_append.mp hnodup).2.2 l hlpre l (by simp) rfl

/-! ## Links that are created again -/

def remainingNodes (s : RouteService) (x : String) : List Node :=
  s.db.listNodes.filter fun n => n.id ≠ x

theorem mem_remainingNodes {n : Node} : n ∈ remainingNodes s x ↔ n ∈ s.db.nodes ∧ n.id ≠ x := by
  simp [remainingNodes]

theorem StoreOk.nodesOk (h : StoreOk E x domain s) : NodesOk (remainingNodes s x) where
  unique _ hn _ hm heq :=
    s.db.nodes.eq_of_mem (mem_remainingNodes.mp hn).1 (mem_remainingNodes.mp hm).1 heq
  named n hn := h.named n (mem_remainingNodes.mp hn).1

section AfterMoves

variable {s s₁ : RouteService} {sources : List String}

theorem Moved.seen_iff (h : Moved x g s (departingLinks s x) sources s₁) (v : LinkView) :
    Seen s₁ v ↔ (∃ l ∈ s.db.links, l.live = true ∧ ¬ Touches x l ∧ viewOf l = v) ∨
      ∃ l ∈ s.db.links, l.live = true ∧ l.sourceNodeId = x ∧ movedView g l = v := by
  constructor
  · rintro ⟨m, hm, hlive, rfl⟩
    rcases h.origin m hm with ⟨hm, hnot⟩ | ⟨l, hl, hsource, -, -, hview⟩
    · exact .inl ⟨m, hm, hlive, fun htouches => hnot (mem_departingLinks.mpr ⟨hm, hlive, htouches⟩),
        rfl⟩
    · obtain ⟨hl, hllive, -⟩ := mem_departingLinks.mp hl
      exact .inr ⟨l, hl, hllive, hsource, hview.symm⟩
  · rintro (⟨l, hl, hlive, htouches, rfl⟩ | ⟨l, hl, hlive, hsource, rfl⟩)
    · exact h.kept l hl hlive htouches
    · exact h.moved l (mem_departingLinks.mpr ⟨hl, hlive, .inl hsource⟩) hsource

theorem Moved.linksOk (h : Moved x g s (departingLinks s x) sources s₁) (hok : StoreOk E x domain s)
    (hg : Gateway x domain g s) : LinksOk E (remainingNodes s x) s₁ := by
  -- a live row has the id and the destination of a live row from before
  have hfrom : ∀ m ∈ s₁.db.links, ∃ l ∈ s.db.links, m.linkId = l.linkId ∧
      (m.live = true → l.live = true ∧ m.destDomain = l.destDomain) := by
    intro m hm
    rcases h.origin m hm with ⟨hm, -⟩ | ⟨l, hl, -, hid, -, hview⟩
    · exact ⟨m, hm, rfl, fun hlive => ⟨hlive, rfl⟩⟩
    · obtain ⟨hl, hlive, -⟩ := mem_departingLinks.mp hl
      exact ⟨l, hl, hid, fun _ => ⟨hlive, congrArg LinkView.destDomain hview⟩⟩
  refine ⟨⟨?_, ?_, ?_⟩, ?_⟩
  · intro m hm hmlive m' hm' hmlive' heq
    obtain ⟨l, hl, hid, hlive⟩ := hfrom m hm
    obtain ⟨l', hl', hid', hlive'⟩ := hfrom m' hm'
    rw [(hlive hmlive).2, (hlive' hmlive').2]
    exact hok.ids.sameDest l hl (hlive hmlive).1 l' hl' (hlive' hmlive').1
      (hid.symm.trans (heq.trans hid'))
  · intro m hm t ht
    obtain ⟨l, hl, hid, -⟩ := hfrom m hm
    obtain ⟨links, routes, queue, ticks, hle, rfl⟩ := h.state
    exact hid ▸ hok.ids.fresh l hl t (hle.trans ht)
  · intro m hm
    obtain ⟨l, hl, hid, -⟩ := hfrom m hm
    exact hid ▸ hok.ids.nonempty l hl
  · intro v hv n hn hid
    obtain ⟨hn, -⟩ := mem_remainingNodes.mp hn
    rcases (h.seen_iff v).mp hv with ⟨l, hl, hlive, -, rfl⟩ | ⟨l, hl, hlive, hsource, rfl⟩
    · exact hok.sources l hl hlive n hn hid
    · obtain ⟨n', hn', hid', hdomain⟩ := hg.registered
      rw [s.db.nodes.eq_of_mem hn hn' (hid.trans hid'.symm), hdomain]
      exact hok.ownSource l hl hlive hsource

end AfterMoves

/-- The candidates that a source gets a link with, if it shuffles at time `t`. -/
def chosenFor (E : Env) (nodes : List Node) (links : List Link)
    (allowedPairs : List (String × String)) (a : Node) (t : Nat) : List Node :=
  chosen (eligible a (connectedPeers a.id links) allowedPairs)
    (linkedDomains (domainNameOf a) links) (E.shuffle t nodes)

/-- What the loop over the sources has done once `done` are through. -/
structure Recreated (E : Env) (nodes : List Node) (links : List Link)
    (allowedPairs : List (String × String)) (s : RouteService) (done : List String)
    (s' : RouteService) : Prop where
  ok : LinksOk E nodes s'
  connected : s'.connected = s.connected
  mono : ∀ v, Seen s v → Seen s' v
  origin : ∀ v, Seen s' v → Seen s v ∨
    ∃ a ∈ nodes, a.id ∈ done ∧ ∃ t, ∃ c ∈ chosenFor E nodes links allowedPairs a t, v = newView a c
  created : ∀ a ∈ nodes, a.id ∈ done →
    ∃ t, ∀ c ∈ chosenFor E nodes links allowedPairs a t, Seen s' (newView a c)

theorem run_enqueueAll (l : List String) (s : RouteService) : ∃ queue,
    ((forEach l enqueue).run s).2 = { s with queue } := by
  induction l generalizing s with
  | nil => exact ⟨s.queue, rfl⟩
  | cons x l ih =>
    obtain ⟨queue, heq⟩ := ih { s with queue := s.queue ++ [x] }
    exact ⟨queue, by rw [run_forEach_cons, run_enqueue, heq]⟩

theorem run_recreateLink (uuids : Uuids E) {nodes : List Node} (hnodes : NodesOk nodes)
    {links : List Link} {allowedPairs : List (String × String)} {s' : RouteService}
    {done : List String} (h : Recreated E nodes links allowedPairs s done s') (src : String) :
    Recreated E nodes links allowedPairs s (done ++ [src]) ((do
        let (affected, _) ← ensureLinksForNode E src links nodes links [] allowedPairs
        forEach affected enqueue : Svc Unit).run s').2 := by
  obtain ⟨queue, hrun⟩ : ∃ queue, ((do
        let (affected, _) ← ensureLinksForNode E src links nodes links [] allowedPairs
        forEach affected enqueue : Svc Unit).run s').2 =
      { ((ensureLinksForNode E src links nodes links [] allowedPairs).run s').2 with queue } := by
    rw [run_bind]
    exact run_enqueueAll _ _
  have hconnected := ((within_ensureLinksForNode (E := E) src links nodes links [] allowedPairs).run
    (fun _ => rfl) (fun _ _ _ h h' => h'.trans h) s').1
  rw [hrun]
  by_cases hregistered : ∃ a ∈ nodes, a.id = src
  · obtain ⟨a, ha, rfl⟩ := hregistered
    obtain ⟨r, s'', heq, hok, hseen⟩ :=
      run_ensureLinksForNode uuids hnodes ha links links allowedPairs h.ok
    rw [heq] at hconnected ⊢
    have hold : ∀ v, Seen s' v → Seen s'' v := fun v hv => (hseen v).mpr (.inl hv)
    refine ⟨⟨⟨hok.sameDest, hok.fresh, hok.nonempty⟩, hok.sources⟩, hconnected.trans h.connected,
      fun v hv => hold v (h.mono v hv), fun v hv => ?_, fun b hb hmem => ?_⟩
    · rcases (hseen v).mp hv with hv | ⟨c, hc, rfl⟩
      · rcases h.origin v hv with hv | ⟨b, hb, hmem, hrest⟩
        · exact .inl hv
        · exact .inr ⟨b, hb, List.mem_append_left _ hmem, hrest⟩
      · exact .inr ⟨a, ha, by simp, _, c, hc, rfl⟩
    · by_cases hdone : b.id ∈ done
      · obtain ⟨t, ht⟩ := h.created b hb hdone
        exact ⟨t, fun c hc => hold _ (ht c hc)⟩
      · have heq : b.id = a.id := by simpa [hdone] using hmem
        rw [hnodes.unique b hb a ha heq]
        exact ⟨_, fun c hc => (hseen _).mpr (.inr ⟨c, hc, rfl⟩)⟩
  · -- a source that is not registered creates nothing
    have hnone : (nodes.find? fun n => n.id = src) = none :=
      List.find?_eq_none.mpr fun n hn heq => hregistered ⟨n, hn, by simpa using heq⟩
    have hsame : ((ensureLinksForNode E src links nodes links [] allowedPairs).run s').2 = s' := by
      simp [ensureLinksForNode, hnone]
    rw [hsame]
    refine ⟨⟨⟨h.ok.sameDest, h.ok.fresh, h.ok.nonempty⟩, h.ok.sources⟩, h.connected, h.mono,
      fun v hv => ?_, fun b hb hmem => ?_⟩
    · rcases h.origin v hv with hv | ⟨b, hb, hmem, hrest⟩
      · exact .inl hv
      · exact .inr ⟨b, hb, List.mem_append_left _ hmem, hrest⟩
    · rcases List.mem_append.mp hmem with hmem | hmem
      · exact h.created b hb hmem
      · exact absurd ⟨b, hb, List.mem_singleton.mp hmem⟩ hregistered

/-- `rebuild_link_graph` as a function of the segments and of the domains that failed last. -/
def rebuild (E : Env) (nodes : List Node) (current : List Segment)
    (lastFailed : Option (List String)) : Bool × List Segment × Option (List String) :=
  if E.apiManaged then (false, current, lastFailed)
  else if lastFailed.any fun last =>
    last.isPerm (nodeDomains nodes) then (false, current, lastFailed)
  else
    match E.buildGraph (nodeDomains nodes) with
    | none => (false, current, some (nodeDomains nodes))
    | some rebuilt =>
      if (nodeDomains nodes).isPerm (graphDomains current) then (false, current, none)
      else (true, rebuilt, none)

theorem run_rebuildLinkGraph (nodes : List Node) (s : RouteService) :
    (rebuildLinkGraph E nodes).run s =
      ((rebuild E nodes s.segmentGraphs s.lastFailedDomains).1,
        { s with
          segmentGraphs := (rebuild E nodes s.segmentGraphs s.lastFailedDomains).2.1
          lastFailedDomains := (rebuild E nodes s.segmentGraphs s.lastFailedDomains).2.2 }) := by
  unfold rebuildLinkGraph rebuild
  by_cases hapi : E.apiManaged = true
  · simp [hapi, run_pure]
  · simp only [hapi, Bool.false_eq_true, if_false, run_bind, run_read]
    by_cases hfailed : (s.lastFailedDomains.any fun last => last.isPerm (nodeDomains nodes)) = true
    · simp [hfailed, run_pure]
    · simp only [hfailed, Bool.false_eq_true, if_false]
      cases E.buildGraph (nodeDomains nodes) with
      | none => rfl
      | some rebuilt =>
        simp only [run_bind, run_modify, run_segments]
        by_cases hperm : (nodeDomains nodes).isPerm (graphDomains s.segmentGraphs) = true
        · simp [hperm, run_pure]
        · simp only [hperm, Bool.false_eq_true, if_false]
          rfl

/-- The pairs of domains that may be linked once the node is gone. -/
def allowedAfter (E : Env) (s : RouteService) (x : String) : List (String × String) :=
  allowedPairsOf (rebuild E (remainingNodes s x) s.segmentGraphs s.lastFailedDomains).2.1

theorem run_recreateLinks (uuids : Uuids E) {s₁ : RouteService} (hok : StoreOk E x domain s)
    (hg : Gateway x domain g s) {sources : List String}
    (h : Moved x g s (departingLinks s x) sources s₁) :
    Recreated E (remainingNodes s x) s₁.db.listAllLinks (allowedAfter E s x) s₁ sources
      ((recreateLinks E sources (remainingNodes s x)).run s₁).2 := by
  have hlinks := h.linksOk hok hg
  have hrefl : ∀ s', s'.db = s₁.db → s'.ticks = s₁.ticks → s'.connected = s₁.connected →
      Recreated E (remainingNodes s x) s₁.db.listAllLinks (allowedAfter E s x) s₁ [] s' := by
    intro s' hdb hticks hconnected
    have hseen : ∀ v, Seen s' v ↔ Seen s₁ v := fun v => by rw [Seen, Seen, hdb]
    refine ⟨⟨⟨hdb ▸ hlinks.sameDest, fun l hl t ht => ?_, hdb ▸ hlinks.nonempty⟩, fun v hv => ?_⟩,
      hconnected, fun v => (hseen v).mpr, fun v hv => .inl ((hseen v).mp hv), fun _ _ hmem => ?_⟩
    · exact hlinks.fresh l (hdb ▸ hl) t (hticks ▸ ht)
    · exact hlinks.sources v ((hseen v).mp hv)
    · cases hmem
  unfold recreateLinks
  cases hsources : sources with
  | nil => exact hrefl s₁ rfl rfl rfl
  | cons src rest =>
    have hallowed : allowedPairsOf (rebuild E (remainingNodes s x) s₁.segmentGraphs
        s₁.lastFailedDomains).2.1 = allowedAfter E s x := by
      obtain ⟨links, routes, queue, ticks, -, rfl⟩ := h.state
      rfl
    simp only [List.isEmpty_cons, Bool.false_eq_true, if_false, run_bind, run_query,
      run_rebuildLinkGraph, allowedLinkPairs, run_segments, hallowed]
    refine run_forEach_induction (hrefl _ rfl rfl rfl) ?_
    intro pre a post s' _ hpre
    exact run_recreateLink uuids hok.nodesOk hpre a

/-! ## The whole departure -/

theorem deleteRoute_snd (db : Database) (id : RouteId) :
    (db.deleteRoute id).2 = { db with routes := db.routes.filter fun r => r.id ≠ id } := by
  unfold Database.deleteRoute
  cases hget : db.routes.get? id with
  | some r => rfl
  | none =>
    have hall : db.routes.filter (fun r => r.id ≠ id) = db.routes :=
      filter_eq_self fun r hr => by simpa using Table.get?_eq_none.mp hget r hr
    rw [hall]

theorem run_forEach_only {β : Type} {body : β → Svc Unit}
    (h : ∀ x s, OnlyRoutes s ((body x).run s).2) (l : List β) :
    OnlyRoutes s ((forEach l body).run s).2 :=
  run_forEach_induction (P := fun _ s' => OnlyRoutes s s') (OnlyRoutes.refl s)
    fun _ x _ s' _ hpre => hpre.trans (h x s')

theorem run_expandAllWildcardRoutes (nodes : List Node) (links : List Link) (s : RouteService) :
    OnlyRoutes s ((expandAllWildcardRoutes E nodes links).run s).2 := by
  have hname : ∀ anns s, OnlyRoutes s ((expandName E nodes links anns).run s).2 := by
    intro anns s
    cases anns with
    | nil => exact OnlyRoutes.refl s
    | cons root rest =>
      rw [expandName, run_bind]
      have hup :
          OnlyRoutes s ((expandRouteViaSpt E root.destNodeId root.name nodes links).run s).2 :=
        (run_expandRouteViaSpt root.destNodeId s).only
      exact hup.trans (run_forEach_only
        (fun r s => (run_installDownwardPath root.destNodeId r.destNodeId s).only) rest)
  exact run_forEach_only (fun _ => hname _) _

theorem within_moveRoute (g : String) (preserved : List String) (route : Route) :
    (moveRoute E g preserved route).Within OnlyRoutes := by
  have hdelete : (update E fun _ db => db.deleteRoute route.id).Within OnlyRoutes :=
    ⟨fun s => ⟨_, s.queue, s.ticks + 1, by dsimp only; rw [deleteRoute_snd]⟩, fun _ => trivial⟩
  have hadd : (update E fun now db => db.addRoute now
      { route with sourceNodeId := g, status := .Pending }).Within OnlyRoutes := by
    refine ⟨fun s => ?_, fun _ => trivial⟩
    dsimp only [Database.addRoute]
    split
    · exact ⟨s.db.routes, s.queue, s.ticks + 1, rfl⟩
    · exact ⟨_, s.queue, s.ticks + 1, rfl⟩
  refine hdelete.bind fun deleted => ?_
  split
  · exact within_pure _
  · split
    · exact hadd.bind fun _ => within_pure _
    · exact within_pure _

/-- The links after a gateway has left: first the moves, then the links that are created again. -/
def Reassigned (E : Env) (x g : String) (s s' : RouteService) : Prop :=
  ∃ s₁ sources s₂, Moved x g s (departingLinks s x) sources s₁ ∧
    Recreated E (remainingNodes s x) s₁.db.listAllLinks (allowedAfter E s x) s₁ sources s₂ ∧
    s'.db.links = s₂.db.links ∧ s'.connected = s₂.connected

theorem run_moveRoutes (g : String) (preserved : List String) (nodes : List Node)
    (s : RouteService) : OnlyRoutes s ((do
      let srcRoutes ← query fun db => db.getRoutesForNode x
      forEach srcRoutes (moveRoute E g preserved)
      enqueue g
      let allLinks ← query Database.listAllLinks
      expandAllWildcardRoutes E nodes allLinks : Svc Unit).run s).2 := by
  have hroutes := ((gives_forEach fun route _ => within_moveRoute g preserved route :
    (forEach (s.db.getRoutesForNode x) (moveRoute E g preserved)).Within OnlyRoutes).run
      OnlyRoutes.refl (fun _ _ _ => OnlyRoutes.trans) s).1
  simp only [run_bind, run_query]
  generalize ((forEach (s.db.getRoutesForNode x) (moveRoute E g preserved)).run s).2 = s' at hroutes
  have henqueue : OnlyRoutes s' { s' with queue := s'.queue ++ [g] } :=
    ⟨s'.db.routes, s'.queue ++ [g], s'.ticks, rfl⟩
  exact (hroutes.trans henqueue).trans (run_expandAllWildcardRoutes _ _ _)

theorem run_reassignGatewayLinks (uuids : Uuids E) (hok : StoreOk E x domain s)
    (hg : Gateway x domain g s) {available : List String}
    (hchoose : (available[E.choose s.ticks % available.length]?).getD "" = g) :
    Reassigned E x g s
      ((reassignGatewayLinks E x (departingLinks s x) available s.db.listNodes).run s).2 := by
  have hmoved := run_moveLinks hok hg (Nat.le_add_right s.ticks 1)
  have hrecreated := run_recreateLinks uuids hok hg hmoved
  refine ⟨_, _, _, hmoved, hrecreated, ?_⟩
  have hchoose' : (chooseGateway E available).run s = (g, { s with ticks := s.ticks + 1 }) := by
    rw [← hchoose]
    rfl
  have hroutes := run_moveRoutes (E := E) (x := x) g
    (((departingLinks s x).filter fun l => l.sourceNodeId = x).map Link.linkId) (remainingNodes s x)
    ((recreateLinks E ((foldl (moveLink E x g) [] (departingLinks s x)).run
      { s with ticks := s.ticks + 1 }).1 (remainingNodes s x)).run
        ((foldl (moveLink E x g) [] (departingLinks s x)).run { s with ticks := s.ticks + 1 }).2).2
  rw [reassignGatewayLinks, run_bind, hchoose', run_bind, run_bind]
  exact ⟨hroutes.links, hroutes.connected⟩

/-- The connected nodes of the domain but the departing one. -/
def availableNodes (s : RouteService) (x domain : String) : List String :=
  (s.db.listNodes.filter fun n =>
    n.id ≠ x && n.domainName = some domain && decide (n.id ∈ s.connected)).map Node.id

theorem run_findConnectedNodesInDomain (s : RouteService) (x domain : String) :
    (findConnectedNodesInDomain domain x s.db.listNodes).run s =
    (availableNodes s x domain, s) := by
  suffices h : ∀ nodes found, (foldl (fun found node =>
      if node.id = x ∨ node.domainName ≠ some domain then pure found
      else do
        let connected ← Fiber.read fun s => decide (node.id ∈ s.connected)
        pure (if connected then found ++ [node.id] else found) : List String → Node → Svc _) found
        nodes).run s =
      (found ++ (nodes.filter fun n =>
        n.id ≠ x && n.domainName = some domain && decide (n.id ∈ s.connected)).map Node.id, s) from
    h s.db.listNodes []
  intro nodes
  induction nodes with
  | nil => simp
  | cons n nodes ih =>
    intro found
    rw [run_foldl_cons, List.filter_cons]
    by_cases hskip : n.id = x ∨ n.domainName ≠ some domain
    · rw [if_pos hskip, run_pure, ih, if_neg]
      simp only [Bool.and_eq_true, decide_eq_true_eq]
      tauto
    · rw [if_neg hskip]
      rw [not_or, not_not] at hskip
      simp only [run_bind, run_read, run_pure, ih]
      by_cases hconnected : n.id ∈ s.connected
      · simp [hconnected, hskip.1, hskip.2]
      · simp [hconnected]

theorem gateway_of_available (h : g ∈ availableNodes s x domain) : Gateway x domain g s := by
  obtain ⟨n, hn, rfl⟩ := List.mem_map.mp h
  obtain ⟨hn, hpred⟩ := List.mem_filter.mp hn
  simp only [Bool.and_eq_true, decide_eq_true_eq] at hpred
  exact ⟨hpred.1.1, n, s.db.mem_listNodes.mp hn,
    rfl, by rw [domainNameOf, hpred.1.2, Option.getD_some]⟩

theorem connected_of_available (h : g ∈ availableNodes s x domain) : g ∈ s.connected := by
  obtain ⟨n, hn, rfl⟩ := List.mem_map.mp h
  obtain ⟨-, hpred⟩ := List.mem_filter.mp hn
  simp only [Bool.and_eq_true, decide_eq_true_eq] at hpred
  exact hpred.2

theorem departingDomain_eq (hok : StoreOk E x domain s) (hlinks : departingLinks s x ≠ []) :
    departingDomain x (departingLinks s x) = domain := by
  obtain ⟨l, rest, hcons⟩ := List.exists_cons_of_ne_nil hlinks
  obtain ⟨hl, hlive, htouches⟩ := mem_departingLinks.mp (by rw [hcons]; exact List.mem_cons_self)
  rw [hcons]
  show (if l.sourceNodeId = x then l.sourceDomain else l.destDomain) = domain
  split
  · next hsource => exact hok.ownSource l hl hlive hsource
  · next hsource => exact hok.ownDest l hl hlive (htouches.resolve_left hsource)

/-- A node with links leaves, and one of the others takes over. -/
theorem run_handleLinks_reassigned (uuids : Uuids E) (hok : StoreOk E x domain s)
    (hlinks : departingLinks s x ≠ []) (havailable : availableNodes s x domain ≠ []) :
    ∃ g ∈ availableNodes s x domain,
      (availableNodes s x domain)[E.choose s.ticks % (availableNodes s x domain).length]? = some g ∧
      Reassigned E x g s ((handleLinksForDepartingNode E x).run s).2 := by
  have hlt : E.choose s.ticks % (availableNodes s x domain).length <
      (availableNodes s x domain).length := Nat.mod_lt _ (List.length_pos_iff.mpr havailable)
  obtain ⟨g, hget⟩ : ∃ g, (availableNodes s x domain)[E.choose s.ticks %
      (availableNodes s x domain).length]? = some g := ⟨_, List.getElem?_eq_getElem hlt⟩
  have hg : g ∈ availableNodes s x domain := List.mem_of_getElem? hget
  refine ⟨g, hg, hget, ?_⟩
  have hchoose : ((availableNodes s x domain)[E.choose s.ticks %
      (availableNodes s x domain).length]?).getD "" = g := by rw [hget, Option.getD_some]
  have hreassigned := run_reassignGatewayLinks uuids hok (gateway_of_available hg) hchoose
  rw [handleLinksForDepartingNode, run_bind, run_query]
  rw [if_neg (by simpa [departingLinks] using hlinks), run_bind, run_query, run_bind]
  have hdomain : departingDomain x ((s.db.getLinksForNode x).filter Link.live) = domain :=
    departingDomain_eq hok hlinks
  rw [hdomain, run_findConnectedNodesInDomain, if_neg (by simpa using havailable)]
  exact hreassigned

end Slim.RouteService
