import Slim.RouteService.Routes

/-!
# Commands

What clients and nodes ask of the route service: announce a name and withdraw it.
-/

namespace Slim.RouteService

open Db

variable (E : Env)

structure ProtoRoute where
  name : Option RouteName
  linkId : Option String := none
  deriving DecidableEq, Repr

def validateRouteNodes (sourceNodeId destNodeId : String) : Except Error Unit :=
  if sourceNodeId.isEmpty then .error .EmptySourceNodeId
  else if destNodeId.isEmpty then .error .EmptyDestNodeId
  else if sourceNodeId = destNodeId then .error .SameSourceAndDest
  else .ok ()

def toDbRoute (name : RouteName) (sourceNodeId sourceDomain destNodeId destDomain : String) :
    Route where
  sourceNodeId
  sourceDomain
  destNodeId
  destDomain
  linkId := none
  name
  status := if sourceNodeId ≠ ALL_NODES_ID then .Pending else .Applied

/-- The domain of a registered node, empty if there is none. -/
def nodeDomain (nodeId : String) : Svc String :=
  query fun db => ((db.getNode nodeId).bind Node.domainName).getD ""

/-- `add_route`, once its arguments have been checked. The first announcer of a name gets the whole
tree, a later one a path from the root. -/
def addNamedRoute (sourceNodeId destNodeId : String) (name : RouteName) :
    Svc (Except Error Route) := do
  let existingRoot ←
    if sourceNodeId = ALL_NODES_ID then query fun db => db.getDestinationNodeIdForName name
    else pure none
  let sourceDomain ←
    if sourceNodeId = ALL_NODES_ID then pure ALL_NODES_ID else nodeDomain sourceNodeId
  let destDomain ← nodeDomain destNodeId
  match ← addSingleRoute E (toDbRoute name sourceNodeId sourceDomain destNodeId destDomain) with
  | .error e => pure (.error e)
  | .ok route =>
    if sourceNodeId = ALL_NODES_ID then do
      let nodes ← query Database.listNodes
      let links ← query Database.listAllLinks
      match existingRoot with
      | none => expandRouteViaSpt E destNodeId name nodes links
      | some root => installDownwardPath E root destNodeId name nodes links
      pure (.ok route)
    else pure (.ok route)

def addRoute (sourceNodeId destNodeId : String) (route : ProtoRoute) : Svc (Except Error Route) :=
  match validateRouteNodes sourceNodeId destNodeId, route.name with
  | .error e, _ => pure (.error e)
  | .ok (), none => pure (.error (.InvalidInput "route name is required"))
  | .ok (), some name => addNamedRoute E sourceNodeId destNodeId name

/-- Delete routes one after the other, up to the first error. -/
def deleteRoutes : List Route → Svc (Except Error Unit)
  | [] => pure (.ok ())
  | r :: rest => do
    match ← deleteSingleRoute E r.sourceNodeId r.id with
    | .error e => pure (.error e)
    | .ok () => deleteRoutes rest

/-- `delete_route` of a wildcard route: the routes that it was expanded to go with it. -/
def deleteWildcardRoute (destNodeId : String) (name : RouteName) : Svc (Except Error Unit) := do
  match ← query fun db => db.getRouteForSrcDestName ALL_NODES_ID name destNodeId none with
  | none => pure (.error (.InvalidInput "route not found"))
  | some route =>
    match ← deleteSingleRoute E ALL_NODES_ID route.id with
    | .error e => pure (.error e)
    | .ok () =>
      let perNode ← query fun db => db.getRoutesForDestNodeIdAndName destNodeId name
      deleteRoutes E perNode

/-- `delete_route` of the route of one node, over the given link or the one that matches. -/
def deleteNodeRoute (sourceNodeId destNodeId : String) (name : RouteName) (linkId : Option String) :
    Svc (Except Error Unit) := do
  let linkId ←
    match linkId.filter fun id => !id.isEmpty with
    | some id => pure (some id)
    | none =>
      let srcDomain ← nodeDomain sourceNodeId
      let dstDomain ← nodeDomain destNodeId
      findMatchingLink sourceNodeId srcDomain destNodeId dstDomain
  match linkId with
  | none => pure (.error (.InvalidInput "no matching link found"))
  | some linkId =>
    match ← query fun db => db.getRouteForSrcDestName sourceNodeId name destNodeId
      (some linkId) with
    | none => pure (.error (.InvalidInput "route not found"))
    | some route => deleteSingleRoute E sourceNodeId route.id

def deleteRoute (sourceNodeId destNodeId : String) (route : ProtoRoute) : Svc (Except Error Unit) :=
  if destNodeId.isEmpty then pure (.error .EmptyDestNodeId)
  else
    match route.name with
    | none => pure (.error (.InvalidInput "route name is required"))
    | some name =>
      if sourceNodeId = ALL_NODES_ID then deleteWildcardRoute E destNodeId name
      else deleteNodeRoute E sourceNodeId destNodeId name route.linkId

end Slim.RouteService
