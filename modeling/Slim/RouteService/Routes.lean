import Mathlib.Data.List.Dedup
import Mathlib.Data.List.Sort
import Slim.RouteService.Service

/-!
# Routes over the shortest-path trees

A name is announced by wildcard routes. The first announcer's domain is the root of the tree of the
name in each segment: every other domain gets a route to its parent (`upwardRoutes`). A later
announcer gets routes from the root down to its domain (`downwardRoutes`).

The nodes, links and segment graphs are loaded before a loop begins, so what a pass of the loop adds
is known beforehand; the loops are over these lists.
-/

namespace Slim.RouteService

open Db

variable (E : Env)

/-! ## Single routes -/

def buildRouteForGateway (sourceNodeId sourceDomain destNodeId destDomain linkId : String)
    (name : RouteName) : Route where
  sourceNodeId
  sourceDomain
  destNodeId
  destDomain
  linkId := some linkId
  name
  status := .Pending

/-- `find_matching_link`: a link between the nodes, or else between their domains. -/
def findMatchingLink (source sourceDomain dest destDomain : String) : Svc (Option String) := do
  match ← query fun db => db.findLinkBetweenNodes source dest with
  | some l => pure (some l.linkId)
  | none =>
    if sourceDomain ≠ destDomain then
      query fun db => (db.findLinkBetweenDomains sourceDomain destDomain).map Link.linkId
    else pure none

/-- One attempt of `add_single_route`; `none` if a deleted route was removed to try again. -/
def attemptAddRoute (route : Route) : Svc (Option (Except Error Route)) := do
  match ← update E fun now db => db.addRoute now route with
  | .ok r =>
    if route.sourceNodeId ≠ ALL_NODES_ID then enqueue route.sourceNodeId
    pure (some (.ok r))
  | .error e =>
    match ← query fun db => db.getRouteById route.computeId with
    | some existing =>
      if existing.status = .Deleted then
        let _ ← update E fun _ db => db.deleteRoute existing.id
        pure none
      else pure (some (.ok existing))
    | none => pure (some (.error (.FailedToAddRoute e)))

def addSingleRoute (route : Route) : Svc (Except Error Route) := do
  let route ←
    if route.sourceNodeId ≠ ALL_NODES_ID ∧ route.linkId.isNone then do
      let linkId ← findMatchingLink route.sourceNodeId route.sourceDomain route.destNodeId
        route.destDomain
      pure { route with linkId }
    else pure route
  match ← attemptAddRoute E route with
  | some result => pure result
  | none =>
    match ← attemptAddRoute E route with
    | some result => pure result
    | none => pure (.error (.InvalidInput "failed to add route after retries"))

/-- Add routes one after the other; an error is logged. -/
def addRoutes (routes : List Route) : Svc Unit :=
  Fiber.forEach routes fun route => do
    let _ ← addSingleRoute E route
    pure ()

def deleteSingleRoute (nodeId : String) (id : RouteId) : Svc (Except Error Unit) := do
  match ← update E fun now db => db.markRouteDeleted now id with
  | .ok () =>
    if nodeId ≠ ALL_NODES_ID then enqueue nodeId
    pure (.ok ())
  | .error e => pure (.error (.db e))

/-! ## Trees -/

/-- The tree of the domain `root`, with the index of the domain. A segment of one domain has
none. -/
def segmentTree (graph : UnGraph) (root : String) : Option (NodeIndex × SptTree) :=
  if graph.nodes.length ≤ 1 then none
  else do
    let rootIdx ← graph.indexOf root
    let spt ← computeSpt (graph.dijkstra rootIdx) rootIdx graph
    pure (rootIdx, spt)

def domainAt (graph : UnGraph) (idx : NodeIndex) : String := (graph.nodes[idx]?).getD ""

/-- The route of `expand_route_via_spt` for one node of the tree. -/
def upwardRoute (nodes : List Node) (links : List Link) (destNodeId destDomain : String)
    (name : RouteName) (graph : UnGraph) (rootIdx : NodeIndex) (spt : SptTree) (idx : NodeIndex) :
    Option Route :=
  if idx = rootIdx then none
  else do
    let childDomain := domainAt graph idx
    let parentIdx ← spt.parent idx
    let (gateway, linkId) ←
      findInterDomainLinkFromCache childDomain (domainAt graph parentIdx) nodes links
    pure (buildRouteForGateway gateway childDomain destNodeId destDomain linkId name)

/-- What `expand_route_via_spt` adds in one segment. -/
def upwardRoutes (nodes : List Node) (links : List Link) (destNodeId : String) (name : RouteName)
    (graph : UnGraph) : List Route :=
  match segmentTree graph (domainOf nodes destNodeId) with
  | none => []
  | some (rootIdx, spt) =>
    spt.nodes.filterMap
      (upwardRoute nodes links destNodeId (domainOf nodes destNodeId) name graph rootIdx spt)

def expandRouteViaSpt (destNodeId : String) (name : RouteName) (nodes : List Node)
    (links : List Link) : Svc Unit := do
  let segmentGraphs ← segments
  addRoutes E (segmentGraphs.flatMap fun segment =>
    upwardRoutes nodes links destNodeId name segment.2)

/-- The route of `install_downward_path` for one edge of the tree. -/
def downwardRoute (nodes : List Node) (links : List Link) (announcerNodeId announcerDomain : String)
    (name : RouteName) (graph : UnGraph) (edge : NodeIndex × NodeIndex) : Option Route := do
  let parentDomain := domainAt graph edge.1
  let (gateway, linkId) ←
    findInterDomainLinkFromCache parentDomain (domainAt graph edge.2) nodes links
  pure (buildRouteForGateway gateway parentDomain announcerNodeId announcerDomain linkId name)

/-- What `install_downward_path` adds in one segment. -/
def downwardRoutes (nodes : List Node) (links : List Link) (rootNodeId announcerNodeId : String)
    (name : RouteName) (graph : UnGraph) : List Route :=
  match segmentTree graph (domainOf nodes rootNodeId),
      graph.indexOf (domainOf nodes announcerNodeId) with
  | some (_, spt), some announcerIdx =>
    if announcerIdx ∈ spt.nodes then
      ((spt.climb spt.nodes.length announcerIdx).getD []).filterMap
        (downwardRoute nodes links announcerNodeId (domainOf nodes announcerNodeId) name graph)
    else []
  | _, _ => []

/-- Within a domain the data plane routes by itself. -/
def installDownwardPath (rootNodeId announcerNodeId : String) (name : RouteName)
    (nodes : List Node) (links : List Link) : Svc Unit := do
  let segmentGraphs ← segments
  if domainOf nodes rootNodeId = domainOf nodes announcerNodeId then pure ()
  else
    addRoutes E (segmentGraphs.flatMap fun segment =>
      downwardRoutes nodes links rootNodeId announcerNodeId name segment.2)

/-! ## All names -/

/-- The order of the announcers of a name: by time, then by node. -/
def announcedBefore (a b : Route) : Prop :=
  a.createdAt < b.createdAt ∨ a.createdAt = b.createdAt ∧ a.destNodeId ≤ b.destNodeId

instance : DecidableRel announcedBefore := fun _ _ => inferInstanceAs (Decidable (_ ∨ _))

/-- The announcers of a name in this order; the first one owns the tree. -/
def sortAnnouncers (routes : List Route) : List Route := routes.insertionSort announcedBefore

/-- Expand one name, given its announcers in order. -/
def expandName (nodes : List Node) (links : List Link) : List Route → Svc Unit
  | [] => pure ()
  | root :: rest => do
    expandRouteViaSpt E root.destNodeId root.name nodes links
    Fiber.forEach rest fun r =>
      installDownwardPath E root.destNodeId r.destNodeId r.name nodes links

def expandAllWildcardRoutes (nodes : List Node) (links : List Link) : Svc Unit := do
  let wildcardRoutes ← query fun db => db.getRoutesForNode ALL_NODES_ID
  let current := wildcardRoutes.filter fun r => r.status ≠ .Deleted
  Fiber.forEach (current.map Route.name).dedup fun name =>
    expandName E nodes links (sortAnnouncers (current.filter fun r => r.name = name))

end Slim.RouteService
