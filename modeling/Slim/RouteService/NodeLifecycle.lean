import Slim.RouteService.Topology

/-!
# Nodes that leave

When a node leaves, its links are moved to another connected node of its domain
(`reassignGatewayLinks`), or deleted if there is none (`handleLastNodeInDomain`). The lock of the
node is held meanwhile.
-/

namespace Slim.RouteService

open Db Fiber

variable (E : Env)

/-! ## Locks -/

/-- `node_locks.entry(..).or_insert_with(..).clone()`. -/
def nodeMutex (nodeId : String) : Svc Nat :=
  call fun s =>
    match s.nodeLocks.lookup nodeId with
    | some m => (m, s)
    | none =>
      (s.mutexes, { s with nodeLocks := s.nodeLocks ++ [(nodeId, s.mutexes)],
                           mutexes := s.mutexes + 1 })

def locked {α : Type} (mutex : Nat) (body : Svc α) : Svc α := do
  lock mutex
  let a ← body
  unlock mutex
  pure a

/-! ## Departures -/

/-- `cleanup_routes_for_node`: routes from the node are removed, routes and announcements of the
node are marked. -/
def cleanupRoutesForNode (nodeId : String) : Svc Unit := do
  let srcRoutes ← query fun db => db.getRoutesForNode nodeId
  let destRoutes ← query fun db => db.getRoutesForDestNodeId nodeId
  let wildcardRoutes ← query fun db => db.getRoutesForNode ALL_NODES_ID
  forEach srcRoutes fun route => do
    let _ ← update E fun _ db => db.deleteRoute route.id
    pure ()
  forEach destRoutes fun route => do
    match ← update E fun now db => db.markRouteDeleted now route.id with
    | .ok () => enqueue route.sourceNodeId
    | .error _ => pure ()
  forEach (wildcardRoutes.filter fun r => r.destNodeId = nodeId) fun route => do
    let _ ← update E fun now db => db.markRouteDeleted now route.id
    pure ()

/-- A link of the last node of a domain: if the node is its source it is removed, else it is kept
until the source has been told. -/
def dropLink (nodeId : String) (link : Link) : Svc Unit :=
  if link.sourceNodeId = nodeId then do
    let _ ← update E fun _ db => db.deleteLink link
    pure ()
  else do
    let _ ← update E fun now db => db.updateLink now { link with status := .Deleted }
    pure ()

/-- `handle_last_node_in_domain`. The node itself is still listed. -/
def handleLastNodeInDomain (links : List Link) (nodeId : String) : Svc Unit := do
  forEach links (dropLink E nodeId)
  let remainingNodes ← query Database.listNodes
  let domainsChanged ← rebuildLinkGraph E remainingNodes
  if domainsChanged then do
    let allLinks ← query Database.listAllLinks
    expandAllWildcardRoutes E remainingNodes allLinks
  else pure ()

/-- A link of a node whose domain has another gateway. An outgoing link is moved to it, unclaimed;
an incoming one is removed, with its routes, and its source is noted. -/
def moveLink (departing newGateway : String) (sources : List String) (link : Link) :
    Svc (List String) :=
  if link.sourceNodeId = departing then do
    match ← update E fun _ db => db.deleteLink link with
    | .error _ => pure sources
    | .ok () =>
      let _ ← update E fun now db => db.addLink now
        { link with sourceNodeId := newGateway, destNodeId := "", status := .Pending,
                    lastUpdated := now }
      enqueue newGateway
      pure sources
  else if link.destNodeId = departing then do
    match ← update E fun _ db => db.deleteLink link with
    | .error _ => pure sources
    | .ok () =>
      let staleRoutes ← query fun db => db.getRoutesByLinkId link.linkId
      forEach staleRoutes fun route => do
        let _ ← update E fun _ db => db.deleteRoute route.id
        pure ()
      pure (sources ++ [link.sourceNodeId])
  else pure sources

/-- A route of the departing node goes with its link, or is removed. -/
def moveRoute (newGateway : String) (preservedLinkIds : List String) (route : Route) :
    Svc Unit := do
  match ← update E fun _ db => db.deleteRoute route.id with
  | .error _ => pure ()
  | .ok () =>
    if route.linkId.any fun id => id ∈ preservedLinkIds then do
      let _ ← update E fun now db => db.addRoute now
        { route with sourceNodeId := newGateway, status := .Pending }
      pure ()
    else pure ()

/-- The sources of the links that were removed create them again. -/
def recreateLinks (sources : List String) (filteredNodes : List Node) : Svc Unit :=
  if sources.isEmpty then pure ()
  else do
    let allLinks ← query Database.listAllLinks
    let _ ← rebuildLinkGraph E filteredNodes
    let allowedPairs ← allowedLinkPairs
    forEach sources fun src => do
      let (affected, _) ← ensureLinksForNode E src allLinks filteredNodes allLinks [] allowedPairs
      forEach affected enqueue

def chooseGateway (availableNodes : List String) : Svc String :=
  call fun s =>
    ((availableNodes[E.choose s.ticks % availableNodes.length]?).getD "",
      { s with ticks := s.ticks + 1 })

def reassignGatewayLinks (departing : String) (links : List Link) (availableNodes : List String)
    (allNodes : List Node) : Svc Unit := do
  let newGateway ← chooseGateway E availableNodes
  let sources ← foldl (moveLink E departing newGateway) [] links
  let filteredNodes := allNodes.filter fun n => n.id ≠ departing
  recreateLinks E sources filteredNodes
  let srcRoutes ← query fun db => db.getRoutesForNode departing
  forEach srcRoutes (moveRoute E newGateway
    ((links.filter fun l => l.sourceNodeId = departing).map Link.linkId))
  enqueue newGateway
  let allLinks ← query Database.listAllLinks
  expandAllWildcardRoutes E filteredNodes allLinks

/-- The domain of a node, as the first of its links has it. -/
def departingDomain (nodeId : String) (links : List Link) : String :=
  (links.head?.map fun l => if l.sourceNodeId = nodeId then l.sourceDomain else l.destDomain).getD
    ""

/-- `find_connected_nodes_in_domain`: the status of each node is asked for in turn. -/
def findConnectedNodesInDomain (domain exclude : String) (allNodes : List Node) :
    Svc (List String) :=
  foldl (fun found node =>
    if node.id = exclude ∨ node.domainName ≠ some domain then pure found
    else do
      let connected ← Fiber.read fun s => decide (node.id ∈ s.connected)
      pure (if connected then found ++ [node.id] else found)) [] allNodes

def handleLinksForDepartingNode (nodeId : String) : Svc Unit := do
  let links ← query fun db => (db.getLinksForNode nodeId).filter Link.live
  if links.isEmpty then pure ()
  else do
    let allNodes ← query Database.listNodes
    let otherNodes ← findConnectedNodesInDomain (departingDomain nodeId links) nodeId allNodes
    if otherNodes.isEmpty then handleLastNodeInDomain E links nodeId
    else reassignGatewayLinks E nodeId links otherNodes allNodes

/-- `node_deregistered`. The mutex of the node is forgotten while it is held. -/
def nodeDeregistered (nodeId : String) : Svc Unit := do
  let nodeLock ← nodeMutex nodeId
  locked nodeLock do
    handleLinksForDepartingNode E nodeId
    cleanupRoutesForNode E nodeId
    let _ ← update E fun _ db => db.deleteNode nodeId
    Fiber.modify fun s => { s with nodeLocks := s.nodeLocks.filter fun e => e.1 ≠ nodeId }

/-- `node_disconnected`: the node is expected to come back, so it stays in the store. -/
def nodeDisconnected (nodeId : String) : Svc Unit := do
  let nodeLock ← nodeMutex nodeId
  locked nodeLock do
    handleLinksForDepartingNode E nodeId
    cleanupRoutesForNode E nodeId

end Slim.RouteService
