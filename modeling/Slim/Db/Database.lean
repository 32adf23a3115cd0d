import Mathlib.Data.List.MinMax
import Slim.Db.Model

/-!
# The store that the route service sees

The operations of `DataAccess` on plain tables, as `InMemoryDb` carries them out; its indexes only
save time. A hash map is listed in any order, which may be another one whenever its content changes.
Where several rows qualify and one is returned, it is the first that is listed, or the first of the
latest.
-/

namespace Slim.Db

structure Database where
  nodes : Table Node.id := ∅
  routes : Table Route.id := ∅
  links : Table Link.key := ∅
  -- how the hash maps are listed
  nodeOrder : Listing Node := {}
  routeOrder : Listing Route := {}
  linkOrder : Listing Link := {}

/-- The result of an operation that changes the store. -/
abbrev Update (α : Type) := Except DbError α × Database

namespace Database

variable (db : Database)

/-! ## Nodes -/

def listNodes : List Node := (db.nodes.relist db.nodeOrder).rows

@[simp] theorem mem_listNodes {n : Node} : n ∈ db.listNodes ↔ n ∈ db.nodes := Table.mem_relist

def getNode (id : String) : Option Node := db.nodes.get? id

def deleteNode (id : String) : Update Unit :=
  match db.nodes.get? id with
  | some _ => (.ok (), { db with nodes := db.nodes.erase id })
  | none => (.error (.NodeNotFound id), db)

/-! ## Routes -/

def addRoute (now : Nat) (route : Route) : Update Route :=
  match db.routes.get? route.computeId with
  | some _ => (.error (.RouteAlreadyExists route), db)
  | none =>
    let route := { route with id := route.computeId, createdAt := now, lastUpdated := now }
    (.ok route, { db with routes := db.routes.put route })

def getRouteById (id : RouteId) : Option Route := db.routes.get? id

def listRoutes : List Route := (db.routes.relist db.routeOrder).rows

def getRoutesForNode (nodeId : String) : List Route :=
  db.listRoutes.filter fun r => r.sourceNodeId = nodeId

def getRoutesForDestNodeId (nodeId : String) : List Route :=
  db.listRoutes.filter fun r => r.destNodeId = nodeId && r.sourceNodeId ≠ ALL_NODES_ID

def getRoutesForDestNodeIdAndName (nodeId : String) (name : RouteName) : List Route :=
  db.listRoutes.filter fun r => r.destNodeId = nodeId && r.name = name

/-- An empty destination and an absent link match every route. -/
def getRouteForSrcDestName (srcNodeId : String) (name : RouteName) (destNodeId : String)
    (linkId : Option String) : Option Route :=
  db.listRoutes.find? fun r => r.sourceNodeId = srcNodeId &&
    (destNodeId.isEmpty || r.destNodeId = destNodeId) &&
    (linkId.isNone || r.linkId = linkId) && r.name = name

/-- The wildcard routes of a name that are not deleted. -/
def announcements (name : RouteName) : List Route :=
  db.listRoutes.filter fun r => r.sourceNodeId = ALL_NODES_ID &&
    r.status ≠ .Deleted && r.name = name

def getDestinationNodeIdForName (name : RouteName) : Option String :=
  ((db.announcements name).argmin Route.createdAt).map Route.destNodeId

def getRoutesByLinkId (linkId : String) : List Route :=
  db.listRoutes.filter fun r => r.linkId = some linkId

def deleteRoute (id : RouteId) : Update Unit :=
  match db.routes.get? id with
  | some _ => (.ok (), { db with routes := db.routes.erase id })
  | none => (.error (.RouteNotFound id), db)

def markRouteDeleted (now : Nat) (id : RouteId) : Update Unit :=
  match db.routes.get? id with
  | some route =>
    (.ok (), { db with
      routes := db.routes.put { route with status := .Deleted, lastUpdated := now } })
  | none => (.error (.RouteNotFound id), db)

/-- `set_route_status`: a deleted route stays deleted. -/
def setRouteStatus (now : Nat) (id : RouteId) (status : RouteStatus) (msg : String) :
    Update Unit :=
  match db.routes.get? id with
  | some route =>
    if route.status = .Deleted then (.ok (), db)
    else
      (.ok (), { db with
        routes := db.routes.put { route with status, statusMsg := msg, lastUpdated := now } })
  | none => (.error (.RouteNotFound id), db)

def markRouteApplied (now : Nat) (id : RouteId) : Update Unit :=
  db.setRouteStatus now id .Applied ""

def markRouteFailed (now : Nat) (id : RouteId) (msg : String) : Update Unit :=
  db.setRouteStatus now id .Failed msg

/-- The id stays that of the old link. -/
def updateRouteLinkId (now : Nat) (id : RouteId) (linkId : String) : Update Unit :=
  match db.routes.get? id with
  | some route =>
    (.ok (), { db with
      routes := db.routes.put
        { route with linkId := some linkId, status := .Pending, lastUpdated := now } })
  | none => (.error (.RouteNotFound id), db)

/-! ## Links -/

def listAllLinks : List Link := (db.links.relist db.linkOrder).rows

@[simp] theorem mem_listAllLinks {l : Link} : l ∈ db.listAllLinks ↔ l ∈ db.links := Table.mem_relist

/-- The latest of some links; of several, the first. -/
def latest (links : List Link) : Option Link :=
  links.argmax Link.lastUpdated

def addLink (now : Nat) (link : Link) : Update Link :=
  if link.missingFields then (.error .LinkMissingFields, db)
  else
    let createdAt := if (db.links.get? link.key).isSome then link.createdAt else now
    let link := { link with createdAt, lastUpdated := now }
    (.ok link, { db with links := db.links.put link })

def updateLink (now : Nat) (link : Link) : Update Unit :=
  if link.missingFields then (.error .LinkMissingFields, db)
  else
    match db.links.get? link.key with
    | some _ => (.ok (), { db with links := db.links.put { link with lastUpdated := now } })
    | none => (.error (.LinkNotFound link.linkId), db)

def deleteLink (link : Link) : Update Unit :=
  match db.links.get? link.key with
  | some _ => (.ok (), { db with links := db.links.erase link.key })
  | none => (.error (.LinkNotFound link.linkId), db)

def findLinkBetweenNodes (sourceNodeId destNodeId : String) : Option Link :=
  latest ((db.listAllLinks.filter fun l => l.live && l.fromTo sourceNodeId destNodeId) ++
    db.listAllLinks.filter fun l => l.live && l.fromTo destNodeId sourceNodeId)

def findLinkBetweenDomains (a b : String) : Option Link :=
  db.listAllLinks.find? fun l => l.live && l.betweenDomains a b

def findUnclaimedLink (sourceNodeId destDomain : String) : Option Link :=
  db.listAllLinks.find? fun l => l.sourceNodeId = sourceNodeId && l.live && l.destNodeId.isEmpty &&
    l.destDomain = destDomain

/-- The flag says whether the link is new. An unclaimed link is looked for by its source node and
destination domain, a claimed one by its nodes. -/
def findOrCreateLink (now : Nat) (link : Link) : Update (Link × Bool) :=
  if link.missingFields then (.error .LinkMissingFields, db)
  else
    let existing :=
      if link.destNodeId.isEmpty then db.findUnclaimedLink link.sourceNodeId link.destDomain
      else db.findLinkBetweenNodes link.sourceNodeId link.destNodeId
    match existing with
    | some existing => (.ok (existing, false), db)
    | none =>
      let link := { link with lastUpdated := now }
      (.ok (link, true), { db with links := db.links.put link })

def getLinkForSourceAndEndpoint (sourceNodeId destEndpoint : String) : Option Link :=
  latest (db.listAllLinks.filter fun l => l.sourceNodeId = sourceNodeId && l.live &&
    l.destEndpoint = destEndpoint)

def getLinksForNode (nodeId : String) : List Link :=
  db.listAllLinks.filter fun l => l.sourceNodeId = nodeId || l.destNodeId = nodeId

end Database

end Slim.Db
