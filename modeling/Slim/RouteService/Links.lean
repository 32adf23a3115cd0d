import Slim.Lib.Text
import Slim.RouteService.Service

/-!
# Links between domains

`ensureLinksForNode` creates the links that a node's domain lacks: one for each other domain that it
may be linked to, from the side that can reach an external endpoint of the other. A new link has no
destination node; a node of the destination domain claims it once it is connected.
-/

namespace Slim.RouteService

/-- For the pairs of domains that may be linked. -/
instance : LawfulBEq (String × String) := inferInstance

open Db

variable (E : Env)

/-! ## Connection configs -/

/-- An outgoing connection that a node reports when it registers. -/
structure ReportedConnection where
  endpoint : String
  linkId : String
  configData : ServerConnectionConfig
  deriving DecidableEq, Repr

/-- Without surrounding blanks and trailing slashes, in lower case. -/
def normalizeEndpoint (endpoint : String) : List Char :=
  let trimmed := (endpoint.toList.dropWhile Text.isWhitespace).reverse.dropWhile Text.isWhitespace
  (trimmed.dropWhile (· = '/')).reverse.map Char.toLower

/-- `endpoint_matches`: equal, or equal but for a scheme. -/
def endpointMatches (reported nodeEndpoint : String) : Bool :=
  let r := normalizeEndpoint reported
  let n := normalizeEndpoint nodeEndpoint
  r = n || r = "https://".toList ++ n || r = "http://".toList ++ n ||
    n = "https://".toList ++ r || n = "http://".toList ++ r

def findReportedConnectionForDest (reported : List ReportedConnection) (dst : Node) :
    Option ReportedConnection :=
  reported.find? fun rc => dst.connDetails.any fun detail =>
    endpointMatches rc.endpoint detail.endpoint || detail.external.any (endpointMatches rc.endpoint)

/-- `select_connection`, where `first` is the first of the destination's connection details. The
flag says that the connection is within a domain. -/
def selectConnection (first : ConnectionDetails) (dst src : Node) : ConnectionDetails × Bool :=
  if dst.domainName = src.domainName then (first, true)
  else ((dst.connDetails.find? fun conn => conn.external.isSome).getD first, false)

def generateConfigData (detail : ConnectionDetails) (localConnection : Bool) (dst : Node) :
    Except Error (String × ServerConnectionConfig) :=
  match if localConnection then some detail.endpoint else detail.external with
  | none => .error (.InvalidInput ("no external endpoint for connection " ++ detail.endpoint))
  | some endpoint =>
    let effective := (if detail.tlsRequired then "https://" else "http://") ++ endpoint
    let authMethod :=
      match detail.authMethod with
      | .Spire => .Spire (detail.spireTrustDomain.or dst.domainName)
      | .None => .None
      | .Basic => .Basic
      | .Jwt => .Jwt
      | .Oidc => .Oidc
    .ok (effective,
      { endpoint := effective, tlsRequired := detail.tlsRequired, authMethod,
        timeout := detail.timeout, backoff := detail.backoff, keepalive := detail.keepalive })

def computeClientConfig (src dst : Node) : Except Error (String × ServerConnectionConfig) :=
  match dst.connDetails with
  | [] => .error (.InvalidInput ("no connections for destination node " ++ dst.id))
  | first :: _ =>
    let (conn, localConnection) := selectConnection first dst src
    generateConfigData conn localConnection dst

/-! ## One link -/

/-- The domain of a node record, empty if it has none. -/
def domainNameOf (node : Node) : String := node.domainName.getD ""

/-- The endpoint, config, id and status of a new link. A connection that the node has already made
is taken over; a link id is used again if it is of a link to the same endpoint and domain. -/
def linkParameters (src dst : Node) (reported : List ReportedConnection)
    (reuseExistingLinkId : Bool) :
    Svc (Option (String × ServerConnectionConfig × String × LinkStatus)) := do
  match findReportedConnectionForDest reported dst with
  | some rc => pure (some (rc.endpoint, rc.configData, rc.linkId, .Connecting))
  | none =>
    match computeClientConfig src dst with
    | .error _ => pure none
    | .ok (endpoint, config) =>
      let existing ←
        if reuseExistingLinkId then query fun db => db.getLinkForSourceAndEndpoint src.id endpoint
        else pure none
      match existing.filter fun l => l.destDomain = domainNameOf dst with
      | some link => pure (some (endpoint, config, link.linkId, .Pending))
      | none => do
        let linkId ← freshUuid E
        pure (some (endpoint, config, linkId, .Pending))

/-- `ensure_link_internal`: the source, and the link if it is new. -/
def ensureLinkInternal (src dst : Node) (reported : List ReportedConnection)
    (reuseExistingLinkId : Bool) : Svc (Option (String × Option Link)) := do
  match ← linkParameters E src dst reported reuseExistingLinkId with
  | none => pure none
  | some (endpoint, config, linkId, status) =>
    match ← update E fun now db => db.findOrCreateLink now
        { linkId, sourceNodeId := src.id, sourceDomain := domainNameOf src, destNodeId := "",
          destDomain := domainNameOf dst, destEndpoint := endpoint,
          connConfigData := config, status, createdAt := now } with
    | .ok (link, created) => pure (some (src.id, if created then some link else none))
    | .error _ => pure none

/-! ## The links of a node -/

/-- The other ends of links that are not deleted, seen from a node. -/
def connectedPeers (nodeId : String) (existing : List Link) : List String :=
  (existing.filter Link.live).map fun l =>
    if l.sourceNodeId = nodeId then l.destNodeId else l.sourceNodeId

/-- The domains that a domain has a link with that is not deleted. -/
def linkedDomains (srcDomain : String) (links : List Link) : List String :=
  (links.filter Link.live).filterMap fun l =>
    if l.sourceDomain = srcDomain ∧ l.destDomain ≠ "" ∧ l.destDomain ≠ srcDomain then
      some l.destDomain
    else if l.destDomain = srcDomain ∧ l.sourceDomain ≠ "" ∧ l.sourceDomain ≠ srcDomain then
      some l.sourceDomain
    else none

def hasExternal (node : Node) : Bool := node.connDetails.any fun d => d.external.isSome

/-- What the loop over the candidates has found so far. -/
structure LinkScan where
  affected : List String
  newLinks : List Link
  linkedDomains : List String

/-- One candidate of `ensure_links_for_node`. -/
def considerCandidate (src : Node) (peers : List String) (reported : List ReportedConnection)
    (allowedPairs : List (String × String)) (scan : LinkScan) (other : Node) : Svc LinkScan :=
  if other.id = src.id ∨ other.id ∈ peers ∨ domainNameOf src = domainNameOf other ∨
      domainNameOf other ∈ scan.linkedDomains ∨
      (domainNameOf src, domainNameOf other) ∉ allowedPairs then
    pure scan
  else do
    let ensured ←
      if hasExternal other then ensureLinkInternal E src other reported true
      else if hasExternal src then ensureLinkInternal E other src reported true
      else pure none
    match ensured with
    | none => pure scan
    | some (source, link) =>
      pure
        { affected := scan.affected.insert source
          newLinks := scan.newLinks ++ link.toList
          linkedDomains := domainNameOf other :: scan.linkedDomains }

def shuffled (nodes : List Node) : Svc (List Node) :=
  Fiber.call fun s => (E.shuffle s.ticks nodes, { s with ticks := s.ticks + 1 })

/-- `ensure_links_for_node`: the nodes to reconcile and the new links. -/
def ensureLinksForNode (nodeId : String) (existingLinks : List Link) (allNodes : List Node)
    (allLinks : List Link) (reported : List ReportedConnection)
    (allowedPairs : List (String × String)) : Svc (List String × List Link) :=
  match allNodes.find? fun n => n.id = nodeId with
  | none => pure ([nodeId], [])
  | some src => do
    let candidates ← shuffled E allNodes
    let scan ← Fiber.foldl
      (considerCandidate E src (connectedPeers nodeId existingLinks) reported allowedPairs)
      ⟨[nodeId], [], linkedDomains (domainNameOf src) allLinks⟩ candidates
    pure (scan.affected, scan.newLinks)

end Slim.RouteService
