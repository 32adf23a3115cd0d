import Slim.Db.Database
import Slim.Lib.Run

/-!
# The ids of routes

`update_route_link_id` gives a route another link and leaves it under the id of the old one. Where
the link stays the same, every stored route has the id that is computed from it.
-/

namespace Slim.Db.Database

inductive RouteOp
  | add (now : Nat) (route : Route)
  | updateLinkId (now : Nat) (id : RouteId) (linkId : String)
  | delete (id : RouteId)
  | markDeleted (now : Nat) (id : RouteId)
  | markApplied (now : Nat) (id : RouteId)
  | markFailed (now : Nat) (id : RouteId) (msg : String)
  | deleteLink (link : Link)

def onRoute (db : Database) : RouteOp → Database
  | .add now route => (db.addRoute now route).2
  | .updateLinkId now id linkId => (db.updateRouteLinkId now id linkId).2
  | .delete id => (db.deleteRoute id).2
  | .markDeleted now id => (db.markRouteDeleted now id).2
  | .markApplied now id => (db.markRouteApplied now id).2
  | .markFailed now id msg => (db.markRouteFailed now id msg).2
  | .deleteLink link => (db.deleteLink link).2

/-- A route is only given the link it has. -/
def KeepsLink (db : Database) : RouteOp → Prop
  | .updateLinkId _ id linkId => ∀ r, db.routes.get? id = some r → r.linkId.getD "" = linkId
  | _ => True

instance decidableKeepsLink (db : Database) : ∀ op, Decidable (db.KeepsLink op)
  | .updateLinkId _ id linkId => inferInstanceAs (Decidable (∀ r ∈ db.routes.get? id,
      r.linkId.getD "" = linkId))
  | .add .. | .delete _ | .markDeleted .. | .markApplied .. | .markFailed .. | .deleteLink _ =>
    .isTrue trivial

def Keyed (db : Database) : Prop := ∀ r ∈ db.routes, r.id = r.computeId

variable {db : Database}

theorem Keyed.put (h : Keyed db) {r r' : Route} {id : RouteId} (hr : db.routes.get? id = some r)
    (hid : r'.id = r.id) (hcompute : r'.computeId = r.computeId) :
    Keyed { db with routes := db.routes.put r' } := by
  intro x hx
  obtain rfl | ⟨hx, -⟩ := Table.mem_put.mp hx
  · rw [hid, hcompute]
    exact h r (Table.get?_eq_some.mp hr).1
  · exact h x hx

theorem Keyed.setRouteStatus (h : Keyed db) (now : Nat) (id : RouteId) (status : RouteStatus)
    (msg : String) : Keyed (db.setRouteStatus now id status msg).2 := by
  unfold Database.setRouteStatus
  split
  · split
    · exact h
    · rename_i hr _
      exact h.put hr rfl rfl
  · exact h

theorem Keyed.onRoute (h : Keyed db) {op : RouteOp} (hop : db.KeepsLink op) :
    Keyed (db.onRoute op) := by
  cases op with
  | add now route =>
    simp only [Database.onRoute, addRoute]
    split
    · exact h
    · intro x hx
      obtain rfl | ⟨hx, -⟩ := Table.mem_put.mp hx
      · rfl
      · exact h x hx
  | updateLinkId now id linkId =>
    simp only [Database.onRoute, updateRouteLinkId]
    split
    · rename_i r hr
      refine h.put hr rfl ?_
      rw [Route.computeId, Route.computeId, hop r hr]
      rfl
    · exact h
  | delete id =>
    simp only [Database.onRoute, deleteRoute]
    split
    · exact fun x hx => h x (Table.mem_erase.mp hx).1
    · exact h
  | markDeleted now id =>
    simp only [Database.onRoute, markRouteDeleted]
    split
    · rename_i hr
      exact h.put hr rfl rfl
    · exact h
  | markApplied now id => exact h.setRouteStatus now id .Applied ""
  | markFailed now id msg => exact h.setRouteStatus now id .Failed msg
  | deleteLink link =>
    simp only [Database.onRoute, Database.deleteLink]
    split <;> exact h

/-- **Route ids stay those of the routes**, and tell them apart, as long as no route is given
another link. -/
theorem routes_keyed (ops : List RouteOp) (h : Run.Meets onRoute KeepsLink {} ops) :
    let db := ops.foldl onRoute {}
    (∀ r ∈ db.routes, r.id = r.computeId) ∧
      ∀ r ∈ db.routes, ∀ r' ∈ db.routes, r.sourceNodeId = r'.sourceNodeId → r.name = r'.name →
        r.destNodeId = r'.destNodeId → r.linkId = r'.linkId → r = r' := by
  have hkeyed := h.invariant (I := Keyed) (fun _ _ hk hop => hk.onRoute hop) (by simp [Keyed])
  refine ⟨hkeyed, fun r hr r' hr' hsource hname hdest hlink => Table.eq_of_mem hr hr' ?_⟩
  rw [hkeyed r hr, hkeyed r' hr', Route.computeId, Route.computeId, hsource, hname, hdest, hlink]

def sampleRoute : Route where
  sourceNodeId := "a"
  sourceDomain := ""
  destNodeId := "b"
  destDomain := ""
  linkId := none
  name := { component0 := "x", component1 := "y", component2 := "z", componentId := none }
  status := .Pending

/-- Two routes over one link. The first is given the link that it has. -/
def linkedTwice : List RouteOp :=
  let first := { sampleRoute with linkId := some "l" }
  [.add 0 first, .updateLinkId 1 first.computeId "l", .markApplied 2 first.computeId,
    .add 3 { first with destNodeId := "c" }]

theorem routes_keyed_linkedTwice :
    let db := linkedTwice.foldl onRoute {}
    db.routes.rows.map (fun r => (r.destNodeId, r.linkId, r.status)) =
        [("b", some "l", .Applied), ("c", some "l", .Pending)] ∧
      (∀ r ∈ db.routes, r.id = r.computeId) ∧
      ∀ r ∈ db.routes, ∀ r' ∈ db.routes, r.sourceNodeId = r'.sourceNodeId → r.name = r'.name →
        r.destNodeId = r'.destNodeId → r.linkId = r'.linkId → r = r' :=
  ⟨by decide, routes_keyed linkedTwice (by decide)⟩

/-- The route is announced again once its link is known. -/
def deferred : List RouteOp :=
  [.add 0 sampleRoute, .updateLinkId 1 sampleRoute.computeId "l",
    .add 2 { sampleRoute with linkId := some "l" }]

theorem deferred_twice : ∃ r ∈ (deferred.foldl onRoute {}).routes.rows, r.id ≠ r.computeId ∧
    ∃ r' ∈ (deferred.foldl onRoute {}).routes.rows, r ≠ r' ∧ r.sourceNodeId = r'.sourceNodeId ∧
      r.name = r'.name ∧ r.destNodeId = r'.destNodeId ∧ r.linkId = r'.linkId := by
  decide

end Slim.Db.Database
