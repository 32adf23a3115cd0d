import Slim.RouteService.Commands

/-!
# Adding routes

Routes are looked up by their ids, so what the store says about routes is which ids are live
(`Live`). `Adds E routes s s'` says what a loop over `routes` does: afterwards these are live too,
the rows that were live are untouched, and a new row is one of `routes` as it was stored. The rules
for sequences (`Adds.trans`) and for one route (`run_addSingleRoute`) give the effect of the
expansions.
-/

namespace Slim.RouteService

open Db Table

variable {E : Env} {names : RouteName → Prop} {routes : List Route} {s : RouteService} {r : Route}
  {nodeId : String}

/-- An environment without chance: the clock shows the ticks, and lists stay as they are. -/
def Env.plain : Env where
  clock n := n
  uuid n := "uuid-" ++ toString n
  shuffle _ l := l
  shuffle_perm _ _ := .refl _
  choose n := n
  apiManaged := true
  buildGraph _ := none

theorem Env.plain_clock : StrictMono Env.plain.clock := fun _ _ h => h

def sampleLink (source sourceDomain dest destDomain : String) : Link where
  linkId := source ++ "-" ++ dest
  sourceNodeId := source
  sourceDomain
  destNodeId := dest
  destDomain
  destEndpoint := "http://" ++ dest
  connConfigData := { endpoint := "http://" ++ dest }
  status := .Applied

/-- There is a route with this id that is not deleted. -/
def Live (db : Database) (k : RouteId) : Prop := ∃ r ∈ db.routes, r.id = k ∧ r.status ≠ .Deleted

/-- Nothing but routes, the work queue and the ticks have changed. -/
def OnlyRoutes (s s' : RouteService) : Prop :=
  ∃ routes queue ticks, s' = { s with db := { s.db with routes }, queue, ticks }

namespace OnlyRoutes

variable {s s' s'' : RouteService}

theorem refl (s : RouteService) : OnlyRoutes s s := ⟨s.db.routes, s.queue, s.ticks, rfl⟩

section
variable (h : OnlyRoutes s s')
include h

theorem trans (h' : OnlyRoutes s' s'') : OnlyRoutes s s'' := by
  obtain ⟨routes, queue, ticks, rfl⟩ := h
  obtain ⟨routes', queue', ticks', rfl⟩ := h'
  exact ⟨routes', queue', ticks', rfl⟩

theorem nodes : s'.db.nodes = s.db.nodes := by
  obtain ⟨_, _, _, rfl⟩ := h
  rfl

theorem links : s'.db.links = s.db.links := by
  obtain ⟨_, _, _, rfl⟩ := h
  rfl

theorem listNodes : s'.db.listNodes = s.db.listNodes := by
  obtain ⟨_, _, _, rfl⟩ := h
  rfl

theorem listAllLinks : s'.db.listAllLinks = s.db.listAllLinks := by
  obtain ⟨_, _, _, rfl⟩ := h
  rfl

theorem segmentGraphs : s'.segmentGraphs = s.segmentGraphs := by
  obtain ⟨_, _, _, rfl⟩ := h
  rfl

theorem connected : s'.connected = s.connected := by
  obtain ⟨_, _, _, rfl⟩ := h
  rfl

end

end OnlyRoutes

/-- A route as it is stored at a tick. -/
def stored (E : Env) (route : Route) (t : Nat) : Route :=
  { route with id := route.computeId, createdAt := E.clock t, lastUpdated := E.clock t }

/-- What adding `routes` one after the other does. -/
structure Adds (E : Env) (routes : List Route) (s s' : RouteService) : Prop where
  only : OnlyRoutes s s'
  ticks_le : s.ticks ≤ s'.ticks
  keep : ∀ x ∈ s.db.routes, x.status ≠ .Deleted → x ∈ s'.db.routes
  added : ∀ r ∈ routes, Live s'.db r.computeId
  source : ∀ x ∈ s'.db.routes, x ∈ s.db.routes ∨
    ∃ r ∈ routes, ∃ t, s.ticks ≤ t ∧ t < s'.ticks ∧ ¬ Live s.db r.computeId ∧ x = stored E r t

namespace Adds

variable {routes routes' : List Route} {s s' s'' : RouteService}

theorem live_mono (h : Adds E routes s s') {k : RouteId} (hk : Live s.db k) : Live s'.db k := by
  obtain ⟨x, hx, hid, hstatus⟩ := hk
  exact ⟨x, h.keep x hx hstatus, hid, hstatus⟩

theorem nil (s : RouteService) : Adds E [] s s where
  only := .refl s
  ticks_le := le_rfl
  keep _ hx _ := hx
  added := by simp
  source _ hx := .inl hx

theorem trans (h : Adds E routes s s') (h' : Adds E routes' s' s'') :
    Adds E (routes ++ routes') s s'' where
  only := h.only.trans h'.only
  ticks_le := h.ticks_le.trans h'.ticks_le
  keep x hx hstatus := h'.keep x (h.keep x hx hstatus) hstatus
  added r hr := by
    rcases List.mem_append.mp hr with hr | hr
    · exact h'.live_mono (h.added r hr)
    · exact h'.added r hr
  source x hx := by
    rcases h'.source x hx with hx | ⟨r, hr, t, hle, hlt, hnot, rfl⟩
    · rcases h.source x hx with hx | ⟨r, hr, t, hle, hlt, hnot, rfl⟩
      · exact .inl hx
      · exact .inr ⟨r, List.mem_append_left _ hr, t, hle, hlt.trans_le h'.ticks_le, hnot, rfl⟩
    · exact .inr ⟨r, List.mem_append_right _ hr, t, h.ticks_le.trans hle, hlt,
        fun hlive => hnot (h.live_mono hlive), rfl⟩

end Adds

/-! ## Rows and their ids -/

/-- No two of the names have the same part in an id. An absent component id and an empty one do. -/
def Distinguished (names : RouteName → Prop) : Prop :=
  ∀ n n', names n → names n' → n.component0 = n'.component0 → n.component1 = n'.component1 →
    n.component2 = n'.component2 → n.componentId.getD "" = n'.componentId.getD "" → n = n'

/-- Routes that are told apart by their ids: of names that are, and over a link unless they are
announcements. -/
def WellNamed (names : RouteName → Prop) (r : Route) : Prop :=
  names r.name ∧ (r.sourceNodeId = ALL_NODES_ID ↔ r.linkId = none)

theorem WellNamed.eq_of_computeId (hnames : Distinguished names) {r' : Route}
    (hr : WellNamed names r) (hr' : WellNamed names r') (h : r.computeId = r'.computeId) :
    r.sourceNodeId = r'.sourceNodeId ∧ r.destNodeId = r'.destNodeId ∧ r.name = r'.name ∧
      r.linkId = r'.linkId := by
  simp only [Route.computeId, RouteId.mk.injEq] at h
  obtain ⟨hsource, h0, h1, h2, hid, hdest, hlink⟩ := h
  refine ⟨hsource, hdest, hnames _ _ hr.1 hr'.1 h0 h1 h2 hid, ?_⟩
  by_cases hall : r.sourceNodeId = ALL_NODES_ID
  · rw [hr.2.mp hall, hr'.2.mp (hsource ▸ hall)]
  · cases hl : r.linkId with
    | none => exact absurd (hr.2.mpr hl) hall
    | some l =>
      cases hl' : r'.linkId with
      | none => exact absurd (hsource.trans (hr'.2.mpr hl')) hall
      | some l' => simpa [hl, hl'] using hlink

/-- The rows of the store are kept under their own ids. -/
def RowsOk (names : RouteName → Prop) (db : Database) : Prop :=
  ∀ r ∈ db.routes, r.id = r.computeId ∧ WellNamed names r

theorem Adds.rowsOk {s' : RouteService} (h : Adds E routes s s') (hs : RowsOk names s.db)
    (hroutes : ∀ r ∈ routes, WellNamed names r) : RowsOk names s'.db := by
  intro x hx
  rcases h.source x hx with hx | ⟨r, hr, t, -, -, -, rfl⟩
  · exact hs x hx
  · exact ⟨rfl, hroutes r hr⟩

theorem RowsOk.exists_row (hnames : Distinguished names) {db : Database} (hs : RowsOk names db)
    (hr : WellNamed names r) (hlive : Live db r.computeId) :
    ∃ x ∈ db.routes, x.status ≠ .Deleted ∧ x.sourceNodeId = r.sourceNodeId ∧
      x.destNodeId = r.destNodeId ∧ x.name = r.name ∧ x.linkId = r.linkId := by
  obtain ⟨x, hx, hid, hstatus⟩ := hlive
  obtain ⟨hxid, hxnamed⟩ := hs x hx
  exact ⟨x, hx, hstatus, hxnamed.eq_of_computeId hnames hr (hxid.symm.trans hid)⟩

/-! ## One route -/

section One

variable {route : Route} {s : RouteService}

theorem run_attemptAddRoute_fresh (h : s.db.routes.get? route.computeId = none) :
    ∃ queue, (attemptAddRoute E route).run s = (some (.ok (stored E route s.ticks)),
      { s with db := { s.db with routes := s.db.routes.put (stored E route s.ticks) }, queue,
               ticks := s.ticks + 1 }) := by
  by_cases hall : route.sourceNodeId = ALL_NODES_ID
  · exact ⟨s.queue, by simp [attemptAddRoute, Database.addRoute, h, hall, stored]⟩
  · exact ⟨s.queue ++ [route.sourceNodeId],
      by simp [attemptAddRoute, Database.addRoute, h, hall, stored]⟩

theorem run_attemptAddRoute_live {existing : Route}
    (h : s.db.routes.get? route.computeId = some existing) (hstatus : existing.status ≠ .Deleted) :
    (attemptAddRoute E route).run s = (some (.ok existing), { s with ticks := s.ticks + 1 }) := by
  simp [attemptAddRoute, Database.addRoute, Database.getRouteById, h, hstatus]

theorem run_attemptAddRoute_deleted {existing : Route}
    (h : s.db.routes.get? route.computeId = some existing) (hstatus : existing.status = .Deleted) :
    (attemptAddRoute E route).run s = (none,
      { s with db := { s.db with routes := s.db.routes.erase existing.id },
               ticks := s.ticks + 2 }) := by
  have hid : existing.id = route.computeId := (Table.get?_eq_some.mp h).2
  simp [attemptAddRoute, Database.addRoute, Database.getRouteById, Database.deleteRoute, h, hstatus,
    hid]

theorem adds_put {queue : List String} {t ticks : Nat} (hstatus : route.status ≠ .Deleted)
    (hnot : ¬ Live s.db route.computeId) (hle : s.ticks ≤ t) (hlt : t < ticks)
    {table : Table Route.id}
    (htable : ∀ x, x ∈ table ↔ x = stored E route t ∨ x ∈ s.db.routes ∧ x.id ≠ route.computeId) :
    Adds E [route] s { s with db := { s.db with routes := table }, queue, ticks } where
  only := ⟨table, queue, ticks, rfl⟩
  ticks_le := by
    show s.ticks ≤ ticks
    omega
  keep x hx hlive := (htable x).mpr (.inr ⟨hx, fun hid => hnot ⟨x, hx, hid, hlive⟩⟩)
  added r hr := by
    obtain rfl := List.mem_singleton.mp hr
    exact ⟨stored E r t, (htable _).mpr (.inl rfl), rfl, hstatus⟩
  source x hx := by
    rcases (htable x).mp hx with rfl | ⟨hx, -⟩
    · exact .inr ⟨route, by simp, t, hle, hlt, hnot, rfl⟩
    · exact .inl hx

/-- The route is tried once, and again if a deleted one was in the way. -/
theorem run_addSingleRoute_eq (hlink : route.sourceNodeId = ALL_NODES_ID ∨ route.linkId.isSome) :
    (addSingleRoute E route).run s =
      match (attemptAddRoute E route).run s with
      | (some result, s') => (result, s')
      | (none, s') =>
        match (attemptAddRoute E route).run s' with
        | (some result, s'') => (result, s'')
        | (none, s'') => (.error (.InvalidInput "failed to add route after retries"), s'') := by
  have hcond : ¬ (route.sourceNodeId ≠ ALL_NODES_ID ∧ route.linkId.isNone) := by
    rintro ⟨hall, hnone⟩
    rcases hlink with hlink | hlink
    · exact hall hlink
    · simp [Option.isNone_iff_eq_none.mp hnone] at hlink
  simp only [addSingleRoute, if_neg hcond, Fiber.run_bind, Fiber.run_pure]
  rcases hrun : (attemptAddRoute E route).run s with ⟨_ | result, s'⟩
  · simp only [Fiber.run_bind]
    rcases hrun' : (attemptAddRoute E route).run s' with ⟨_ | result, s''⟩ <;> rfl
  · rfl

theorem run_addSingleRoute (hstatus : route.status ≠ .Deleted)
    (hlink : route.sourceNodeId = ALL_NODES_ID ∨ route.linkId.isSome) :
    ∃ r s', (addSingleRoute E route).run s = (.ok r, s') ∧ Adds E [route] s s' := by
  rw [run_addSingleRoute_eq hlink]
  cases hget : s.db.routes.get? route.computeId with
  | none =>
    obtain ⟨queue, hrun⟩ := run_attemptAddRoute_fresh hget
    rw [hrun]
    refine ⟨_, _, rfl, ?_⟩
    refine adds_put hstatus ?_ le_rfl (Nat.lt_succ_self _) fun x => ?_
    · rintro ⟨x, hx, hid, -⟩
      exact Table.get?_eq_none.mp hget x hx hid
    · exact mem_put
  | some existing =>
    obtain ⟨hmem, hid⟩ := Table.get?_eq_some.mp hget
    by_cases hdeleted : existing.status = .Deleted
    · -- the deleted route is removed, and the second attempt finds none
      have hrun := run_attemptAddRoute_deleted (E := E) hget hdeleted
      have hgone : ({ s.db with routes := s.db.routes.erase existing.id } : Database).routes.get?
          route.computeId = none := by simp [hid]
      obtain ⟨queue, hrun'⟩ := run_attemptAddRoute_fresh (E := E)
        (s := { s with db := { s.db with routes := s.db.routes.erase existing.id },
                       ticks := s.ticks + 2 }) hgone
      rw [hrun]
      simp only [hrun']
      refine ⟨_, _, rfl, ?_⟩
      refine adds_put hstatus ?_ (Nat.le_add_right _ 2) (Nat.lt_succ_self _) fun x => ?_
      · rintro ⟨x, hx, hxid, hlive⟩
        rw [s.db.routes.eq_of_mem hx hmem (hxid.trans hid.symm)] at hlive
        exact hlive hdeleted
      · simp only [mem_put, mem_erase, hid]
        have hkey : (stored E route (s.ticks + 2)).id = route.computeId := rfl
        rw [hkey, and_assoc, and_self]
    · have hrun := run_attemptAddRoute_live (E := E) hget hdeleted
      rw [hrun]
      refine ⟨_, _, rfl, ?_⟩
      exact
        { only := ⟨s.db.routes, s.queue, s.ticks + 1, rfl⟩
          ticks_le := Nat.le_succ _
          keep := fun _ hx _ => hx
          added := fun r hr => by
            obtain rfl := List.mem_singleton.mp hr
            exact ⟨existing, hmem, hid, hdeleted⟩
          source := fun _ hx => .inl hx }

end One

/-- Routes that a gateway is given. -/
def Gatewayed (routes : List Route) : Prop := ∀ r ∈ routes, r.status = .Pending ∧ r.linkId.isSome

theorem run_addRoutes (h : Gatewayed routes) (s : RouteService) :
    Adds E routes s ((addRoutes E routes).run s).2 := by
  induction routes generalizing s with
  | nil => exact Adds.nil s
  | cons route routes ih =>
    obtain ⟨hstatus, hlink⟩ := h route List.mem_cons_self
    obtain ⟨r, s', hrun, hadds⟩ := run_addSingleRoute (E := E) (s := s)
      (by rw [hstatus]; decide) (Or.inr hlink)
    have hrest := ih (fun x hx => h x (List.mem_cons_of_mem route hx)) s'
    have heq : ((addRoutes E (route :: routes)).run s).2 = ((addRoutes E routes).run s').2 := by
      simp [addRoutes, hrun]
    rw [heq]
    exact hadds.trans hrest

/-! ## Deleting routes -/

/-- The routes with ids in `gone` are removed or marked, and nothing else happens to routes. -/
structure Drops (gone : RouteId → Prop) (s s' : RouteService) : Prop where
  only : OnlyRoutes s s'
  ticks_le : s.ticks ≤ s'.ticks
  keep : ∀ x ∈ s.db.routes, ¬ gone x.id → x ∈ s'.db.routes
  source : ∀ x ∈ s'.db.routes, x ∈ s.db.routes ∧ ¬ gone x.id ∨
    gone x.id ∧ x.status = .Deleted ∧
      ∃ r ∈ s.db.routes, x = { r with status := .Deleted, lastUpdated := x.lastUpdated }

namespace Drops

variable {gone gone' : RouteId → Prop} {s s' s'' : RouteService}

theorem refl (s : RouteService) : Drops (fun _ => False) s s where
  only := .refl s
  ticks_le := le_rfl
  keep _ hx _ := hx
  source _ hx := .inl ⟨hx, id⟩

theorem trans (h : Drops gone s s') (h' : Drops gone' s' s'') :
    Drops (fun k => gone k ∨ gone' k) s s'' where
  only := h.only.trans h'.only
  ticks_le := h.ticks_le.trans h'.ticks_le
  keep x hx hgone := h'.keep x (h.keep x hx fun hg => hgone (.inl hg)) fun hg => hgone (.inr hg)
  source x hx := by
    rcases h'.source x hx with ⟨hx, hgone'⟩ | ⟨hgone', hstatus, r, hr, heq⟩
    · rcases h.source x hx with ⟨hx, hgone⟩ | ⟨hgone, hstatus, r, hr, heq⟩
      · exact .inl ⟨hx, fun hg => hg.elim hgone hgone'⟩
      · exact .inr ⟨.inl hgone, hstatus, r, hr, heq⟩
    · -- the row that was marked may have been marked before
      rcases h.source r hr with ⟨hr, -⟩ | ⟨-, -, r', hr', heq'⟩
      · exact .inr ⟨.inr hgone', hstatus, r, hr, heq⟩
      · refine .inr ⟨.inr hgone', hstatus, r', hr', ?_⟩
        rw [heq, heq']

theorem congr (h : Drops gone s s') (hgone : ∀ k, gone k ↔ gone' k) : Drops gone' s s' := by
  obtain rfl : gone = gone' := funext fun k => propext (hgone k)
  exact h

theorem rowsOk (h : Drops gone s s') (hs : RowsOk names s.db) : RowsOk names s'.db := by
  intro x hx
  rcases h.source x hx with ⟨hx, -⟩ | ⟨-, -, r, hr, heq⟩
  · exact hs x hx
  · obtain ⟨hid, hnamed⟩ := hs r hr
    rw [heq]
    exact ⟨hid, hnamed⟩

end Drops

theorem run_deleteRoute_drops (id : RouteId) (s : RouteService) :
    Drops (· = id) s ((update E fun _ db => db.deleteRoute id).run s).2 := by
  rw [run_update]
  unfold Database.deleteRoute
  cases hget : s.db.routes.get? id with
  | none =>
    have hnot := Table.get?_eq_none.mp hget
    exact ⟨⟨_, _, _, rfl⟩, Nat.le_succ _, fun x hx _ => hx, fun x hx => .inl ⟨hx, hnot x hx⟩⟩
  | some r =>
    exact ⟨⟨_, _, _, rfl⟩, Nat.le_succ _, fun x hx hne => mem_erase.mpr ⟨hx, hne⟩,
      fun x hx => .inl (mem_erase.mp hx)⟩

theorem run_markRouteDeleted_drops (id : RouteId) (s : RouteService) :
    Drops (· = id) s ((update E fun now db => db.markRouteDeleted now id).run s).2 := by
  rw [run_update]
  unfold Database.markRouteDeleted
  cases hget : s.db.routes.get? id with
  | none =>
    have hnot := Table.get?_eq_none.mp hget
    exact ⟨⟨_, _, _, rfl⟩, Nat.le_succ _, fun x hx _ => hx, fun x hx => .inl ⟨hx, hnot x hx⟩⟩
  | some r =>
    obtain ⟨hr, rfl⟩ := Table.get?_eq_some.mp hget
    refine ⟨⟨_, _, _, rfl⟩, Nat.le_succ _, fun x hx hne => mem_put.mpr (.inr ⟨hx, hne⟩), ?_⟩
    intro x hx
    rcases mem_put.mp hx with rfl | ⟨hx, hne⟩
    · exact .inr ⟨rfl, rfl, r, hr, rfl⟩
    · exact .inl ⟨hx, hne⟩

theorem run_forEach_drops {β : Type} {f : β → Svc Unit} {id : β → RouteId}
    (hf : ∀ b s, Drops (· = id b) s ((f b).run s).2) (l : List β) (s : RouteService) :
    Drops (fun k => ∃ b ∈ l, k = id b) s ((Fiber.forEach l f).run s).2 := by
  induction l generalizing s with
  | nil => exact (Drops.refl s).congr (by simp)
  | cons b l ih =>
    rw [Fiber.run_forEach_cons]
    exact ((hf b s).trans (ih _)).congr (by simp)

/-! ## Expansions -/

section Expansion

variable {nodes : List Node} {links : List Link} {name : RouteName} {graph : UnGraph}
  {dest : String} {r : Route} {graphs : List Segment}

/-- A route to a node, at a gateway and over the link that was found. -/
def OverLink (nodes : List Node) (links : List Link) (name : RouteName) (dest : String)
    (r : Route) : Prop :=
  ∃ a b gateway linkId, findInterDomainLinkFromCache a b nodes links = some (gateway, linkId) ∧
    buildRouteForGateway gateway a dest (domainOf nodes dest) linkId name = r

theorem OverLink.gatewayed (h : OverLink nodes links name dest r) :
    r.status = .Pending ∧ r.linkId.isSome := by
  obtain ⟨_, _, _, _, -, rfl⟩ := h
  exact ⟨rfl, rfl⟩

theorem OverLink.name_eq (h : OverLink nodes links name dest r) : r.name = name := by
  obtain ⟨_, _, _, _, -, rfl⟩ := h
  rfl

theorem overLink_upward (hr : r ∈ upwardRoutes nodes links dest name graph) :
    OverLink nodes links name dest r := by
  unfold upwardRoutes at hr
  split at hr
  · simp at hr
  · obtain ⟨i, -, h⟩ := List.mem_filterMap.mp hr
    unfold upwardRoute at h
    split at h
    · cases h
    · simp only [bind, pure, Option.bind_eq_some_iff, Option.some.injEq] at h
      obtain ⟨j, -, ⟨gateway, linkId⟩, hfind, rfl⟩ := h
      exact ⟨_, _, gateway, linkId, hfind, rfl⟩

theorem overLink_downward {root : String}
    (hr : r ∈ downwardRoutes nodes links root dest name graph) :
    OverLink nodes links name dest r := by
  unfold downwardRoutes at hr
  split at hr
  · split at hr
    · obtain ⟨edge, -, h⟩ := List.mem_filterMap.mp hr
      simp only [downwardRoute, bind, pure, Option.bind_eq_some_iff, Option.some.injEq] at h
      obtain ⟨⟨gateway, linkId⟩, hfind, rfl⟩ := h
      exact ⟨_, _, gateway, linkId, hfind, rfl⟩
    · simp at hr
  · simp at hr

/-- The routes to the parents, in all segments. -/
def upwardExpansion (segmentGraphs : List Segment) (nodes : List Node) (links : List Link)
    (root : String) (name : RouteName) : List Route :=
  segmentGraphs.flatMap fun segment => upwardRoutes nodes links root name segment.2

/-- The routes down to an announcer, in all segments. -/
def downwardExpansion (segmentGraphs : List Segment) (nodes : List Node) (links : List Link)
    (root announcer : String) (name : RouteName) : List Route :=
  if domainOf nodes root = domainOf nodes announcer then []
  else segmentGraphs.flatMap fun segment => downwardRoutes nodes links root announcer name segment.2

theorem overLink_upwardExpansion (hr : r ∈ upwardExpansion graphs nodes links dest name) :
    OverLink nodes links name dest r := by
  obtain ⟨seg, -, hr⟩ := List.mem_flatMap.mp hr
  exact overLink_upward hr

theorem overLink_downwardExpansion {root : String}
    (hr : r ∈ downwardExpansion graphs nodes links root dest name) :
    OverLink nodes links name dest r := by
  unfold downwardExpansion at hr
  split at hr
  · cases hr
  · obtain ⟨seg, -, hr⟩ := List.mem_flatMap.mp hr
    exact overLink_downward hr

theorem run_expandRouteViaSpt (destNodeId : String) (s : RouteService) :
    Adds E (upwardExpansion s.segmentGraphs nodes links destNodeId name) s
      ((expandRouteViaSpt E destNodeId name nodes links).run s).2 :=
  run_addRoutes (fun _ hr => (overLink_upwardExpansion hr).gatewayed) s

theorem run_installDownwardPath (rootNodeId announcer : String) (s : RouteService) :
    Adds E (downwardExpansion s.segmentGraphs nodes links rootNodeId announcer name) s
      ((installDownwardPath E rootNodeId announcer name nodes links).run s).2 := by
  have hrun := run_addRoutes (E := E) (fun _ (hr : _ ∈ downwardExpansion s.segmentGraphs nodes links
    rootNodeId announcer name) => (overLink_downwardExpansion hr).gatewayed) s
  unfold downwardExpansion at hrun ⊢
  unfold installDownwardPath
  split
  · exact Adds.nil s
  · rename_i hne
    rwa [if_neg hne] at hrun

end Expansion

/-! ## Announcements -/

def announcementRoute (db : Database) (nodeId : String) (name : RouteName) : Route :=
  toDbRoute name ALL_NODES_ID ALL_NODES_ID nodeId
    (((db.getNode nodeId).bind Node.domainName).getD "")

/-- The routes that come with an announcement: the tree for the first announcer, a path for
others. -/
def announcementExpansion (s : RouteService) (nodeId : String) (name : RouteName) : List Route :=
  match s.db.getDestinationNodeIdForName name with
  | none => upwardExpansion s.segmentGraphs s.db.listNodes s.db.listAllLinks nodeId name
  | some root => downwardExpansion s.segmentGraphs s.db.listNodes s.db.listAllLinks root nodeId name

theorem overLink_announcementExpansion {name : RouteName}
    (hr : r ∈ announcementExpansion s nodeId name) :
    OverLink s.db.listNodes s.db.listAllLinks name nodeId r := by
  unfold announcementExpansion at hr
  split at hr
  · exact overLink_upwardExpansion hr
  · exact overLink_downwardExpansion hr

theorem run_addRoute_announce (hempty : nodeId ≠ "") (hall : nodeId ≠ ALL_NODES_ID)
    (name : RouteName) (linkId : Option String) (s : RouteService) :
    ∃ r s', (addRoute E ALL_NODES_ID nodeId ⟨some name, linkId⟩).run s = (.ok r, s') ∧
      Adds E (announcementRoute s.db nodeId name :: announcementExpansion s nodeId name) s s' := by
  have hvalid : validateRouteNodes ALL_NODES_ID nodeId = .ok () := by
    have hsource : ALL_NODES_ID.isEmpty = false := rfl
    have hdest : nodeId.isEmpty = false := by simpa using hempty
    simp [validateRouteNodes, hsource, hdest, Ne.symm hall]
  have hstatus : (announcementRoute s.db nodeId name).status ≠ .Deleted := by
    simp [announcementRoute, toDbRoute]
  obtain ⟨r, s', hrun, hadds⟩ := run_addSingleRoute (E := E) (s := s) hstatus (Or.inl rfl)
  have hnodes := hadds.only.listNodes
  have hlinks := hadds.only.listAllLinks
  have hgraphs := hadds.only.segmentGraphs
  simp only [addRoute, hvalid, addNamedRoute, if_true, Fiber.run_bind, Fiber.run_pure,
    nodeDomain]
  unfold announcementRoute at hrun
  simp only [hrun, Fiber.run_bind, run_query]
  cases hroot : s.db.getDestinationNodeIdForName name with
  | none =>
    simp only [Fiber.run_bind]
    refine ⟨r, _, rfl, ?_⟩
    simp only [announcementExpansion, hroot]
    refine hadds.trans ?_
    rw [← hgraphs, hnodes, hlinks]
    exact run_expandRouteViaSpt nodeId s'
  | some root =>
    simp only [Fiber.run_bind]
    refine ⟨r, _, rfl, ?_⟩
    simp only [announcementExpansion, hroot]
    refine hadds.trans ?_
    rw [← hgraphs, hnodes, hlinks]
    exact run_installDownwardPath root nodeId s'

/-! ## Withdrawals -/

theorem run_deleteSingleRoute {id : RouteId} (h : ∃ x ∈ s.db.routes, x.id = id) (nodeId : String) :
    ∃ s', (deleteSingleRoute E nodeId id).run s = (.ok (), s') ∧ Drops (· = id) s s' ∧
      ∀ k, (∃ x ∈ s.db.routes, x.id = k) ↔ ∃ x ∈ s'.db.routes, x.id = k := by
  obtain ⟨row, hrow, rfl⟩ := h
  have hget := Table.get?_of_mem hrow
  have hdrops := run_markRouteDeleted_drops (E := E) row.id s
  have hsame : ∀ k, (∃ x ∈ s.db.routes, x.id = k) ↔
      ∃ x ∈ s.db.routes.put { row with status := .Deleted, lastUpdated := E.clock s.ticks },
        x.id = k := by
    intro k
    constructor
    · rintro ⟨x, hx, rfl⟩
      by_cases hid : x.id = row.id
      · exact ⟨_, mem_put.mpr (.inl rfl), hid.symm⟩
      · exact ⟨x, mem_put.mpr (.inr ⟨hx, hid⟩), rfl⟩
    · rintro ⟨x, hx, rfl⟩
      rcases mem_put.mp hx with rfl | ⟨hx, -⟩
      · exact ⟨row, hrow, rfl⟩
      · exact ⟨x, hx, rfl⟩
  rw [run_update, Database.markRouteDeleted, hget] at hdrops
  unfold deleteSingleRoute
  simp only [Fiber.run_bind, run_update, Database.markRouteDeleted, hget]
  split
  · refine ⟨_, rfl, ?_, hsame⟩
    exact { hdrops with only := ⟨_, _, _, rfl⟩ }
  · exact ⟨_, rfl, hdrops, hsame⟩

theorem run_deleteRoutes (h : ∀ r ∈ routes, ∃ x ∈ s.db.routes, x.id = r.id) :
    ∃ s', (deleteRoutes E routes).run s = (.ok (), s') ∧
      Drops (fun k => ∃ r ∈ routes, k = r.id) s s' := by
  induction routes generalizing s with
  | nil => exact ⟨s, rfl, (Drops.refl s).congr (by simp)⟩
  | cons r routes ih =>
    obtain ⟨s', hrun, hdrops, hsame⟩ :=
      run_deleteSingleRoute (E := E) (h r List.mem_cons_self) r.sourceNodeId
    obtain ⟨s'', hrun', hdrops'⟩ := ih fun x hx =>
      (hsame x.id).mp (h x (List.mem_cons_of_mem r hx))
    refine ⟨s'', ?_, (hdrops.trans hdrops').congr (by simp)⟩
    simp [deleteRoutes, hrun, hrun']

/-- The ids of the routes of a name to a node. -/
def NamedTo (db : Database) (nodeId : String) (name : RouteName) (k : RouteId) : Prop :=
  ∃ r ∈ db.routes, r.destNodeId = nodeId ∧ r.name = name ∧ k = r.id

/-- `delete_route("*", node, name)`: if there is an announcement, be it a deleted one, the routes of
the name to the node go. -/
theorem run_deleteRoute_withdraw (hempty : nodeId ≠ "") (name : RouteName) (linkId : Option String)
    (s : RouteService) :
    ((s.db.getRouteForSrcDestName ALL_NODES_ID name nodeId none).isSome ∧
      Drops (NamedTo s.db nodeId name) s
        ((deleteRoute E ALL_NODES_ID nodeId ⟨some name, linkId⟩).run s).2) ∨
    s.db.getRouteForSrcDestName ALL_NODES_ID name nodeId none = none ∧
      ((deleteRoute E ALL_NODES_ID nodeId ⟨some name, linkId⟩).run s).2 = s := by
  have hdest : nodeId.isEmpty = false := by simpa using hempty
  simp only [deleteRoute, hdest, if_true, deleteWildcardRoute, Fiber.run_bind, run_query,
    Bool.false_eq_true, if_false]
  cases hfind : s.db.getRouteForSrcDestName ALL_NODES_ID name nodeId none with
  | none => exact .inr ⟨rfl, rfl⟩
  | some row =>
    refine .inl ⟨rfl, ?_⟩
    have hrow : row ∈ s.db.routes := Table.mem_of_find?_relist hfind
    have hpred := List.find?_some hfind
    simp only [hdest, Bool.false_or, Option.isNone_none, Bool.true_or, Bool.and_true,
      Bool.and_eq_true, decide_eq_true_eq] at hpred
    obtain ⟨⟨hall, hrowDest⟩, hrowName⟩ := hpred
    obtain ⟨s', hrun, hdrops, hsame⟩ :=
      run_deleteSingleRoute (E := E) ⟨row, hrow, rfl⟩ ALL_NODES_ID
    simp only [Fiber.run_bind, hrun, run_query]
    obtain ⟨s'', hrun', hdrops'⟩ := run_deleteRoutes
      (fun r hr => ⟨r, (mem_filter_relist.mp hr).1, rfl⟩ :
        ∀ r ∈ s'.db.getRoutesForDestNodeIdAndName nodeId name, ∃ x ∈ s'.db.routes, x.id = r.id)
    rw [hrun']
    refine (hdrops.trans hdrops').congr fun k => ?_
    constructor
    · rintro (rfl | ⟨r, hr, rfl⟩)
      · exact ⟨row, hrow, hrowDest, hrowName, rfl⟩
      · obtain ⟨hr, hpred⟩ := mem_filter_relist.mp hr
        simp only [Bool.and_eq_true, decide_eq_true_eq] at hpred
        rcases hdrops.source r hr with ⟨hr, -⟩ | ⟨-, -, r', hr', heq⟩
        · exact ⟨r, hr, hpred.1, hpred.2, rfl⟩
        · rw [heq] at hpred ⊢
          exact ⟨r', hr', hpred.1, hpred.2, rfl⟩
    · rintro ⟨r, hr, hrDest, hrName, rfl⟩
      by_cases hid : r.id = row.id
      · exact .inl hid
      · exact .inr ⟨r, mem_filter_relist.mpr ⟨hdrops.keep r hr hid, by simp [hrDest, hrName]⟩, rfl⟩

end Slim.RouteService
