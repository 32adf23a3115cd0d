import Slim.Lib.Table

/-!
# The records of the control plane's store

Nodes, routes and links, with the fields that a modelled function reads or writes. Times are numbers
of nanoseconds since the epoch.

The id of a route is a UUID (version 5) of its source, name, destination and link, separated by zero
bytes; here it is the fields themselves. An absent component id or link id is hashed as an empty
one.
-/

namespace Slim.Db

/-- Stands for every node as the source of a route. -/
def ALL_NODES_ID : String := "*"

/-! ## Nodes -/

inductive AuthMethod
  | None
  | Spire
  | Basic
  | Jwt
  | Oidc
  deriving DecidableEq, Repr

structure KeepaliveConfig where
  tcpKeepalive : Nat
  http2Keepalive : Nat
  timeout : Nat
  keepAliveWhileIdle : Bool
  deriving DecidableEq, Repr

structure ConnectionDetails where
  endpoint : String
  externalEndpoint : Option String := none
  tlsRequired : Bool := false
  authMethod : AuthMethod := .None
  spireTrustDomain : Option String := none
  backoff : Option Nat := none
  timeout : Option Nat := none
  keepalive : Option KeepaliveConfig := none
  deriving DecidableEq, Repr

/-- An endpoint for nodes of other domains. -/
def ConnectionDetails.external (detail : ConnectionDetails) : Option String :=
  detail.externalEndpoint.filter fun e => !e.isEmpty

structure Node where
  id : String
  domainName : Option String
  connDetails : List ConnectionDetails
  createdAt : Nat := 0
  lastUpdated : Nat := 0
  deriving DecidableEq, Repr

/-! ## Routes -/

structure RouteName where
  component0 : String
  component1 : String
  component2 : String
  componentId : Option String
  deriving DecidableEq, Repr

inductive RouteStatus
  | Applied
  | Failed
  | Pending
  | Deleted
  deriving DecidableEq, Repr

/-- What the id of a route is computed from. -/
structure RouteId where
  sourceNodeId : String
  component0 : String
  component1 : String
  component2 : String
  componentId : String
  destNodeId : String
  linkId : String
  deriving DecidableEq, Repr, Inhabited

structure Route where
  id : RouteId := default
  sourceNodeId : String
  sourceDomain : String
  destNodeId : String
  destDomain : String
  linkId : Option String
  name : RouteName
  status : RouteStatus
  statusMsg : String := ""
  createdAt : Nat := 0
  lastUpdated : Nat := 0
  deriving DecidableEq, Repr

def Route.computeId (route : Route) : RouteId where
  sourceNodeId := route.sourceNodeId
  component0 := route.name.component0
  component1 := route.name.component1
  component2 := route.name.component2
  componentId := route.name.componentId.getD ""
  destNodeId := route.destNodeId
  linkId := route.linkId.getD ""

/-! ## Links -/

/-- `ServerConnectionConfig`'s authentication. -/
inductive RequiredAuthMethod
  | None
  | Basic
  | Jwt
  | Oidc
  | Spire (trustDomain : Option String)
  deriving DecidableEq, Repr

structure ServerConnectionConfig where
  endpoint : String
  tlsRequired : Bool := false
  authMethod : RequiredAuthMethod := .None
  timeout : Option Nat := none
  backoff : Option Nat := none
  keepalive : Option KeepaliveConfig := none
  deriving DecidableEq, Repr

/-- The states of a link:
* `Pending`: created, the source was not told yet;
* `Connecting`: the source has connected, the destination has not claimed the link;
* `Applied`: claimed, routes may use it;
* `Failed`: the source could not connect;
* `Deleted`: kept until the source has been told. -/
inductive LinkStatus
  | Pending
  | Connecting
  | Applied
  | Failed
  | Deleted
  deriving DecidableEq, Repr

structure Link where
  linkId : String
  sourceNodeId : String
  sourceDomain : String
  /-- Empty until a node of the destination domain claims the link. -/
  destNodeId : String
  destDomain : String
  destEndpoint : String
  connConfigData : ServerConnectionConfig
  status : LinkStatus
  statusMsg : String := ""
  createdAt : Nat := 0
  lastUpdated : Nat := 0
  deriving DecidableEq, Repr

/-- What a link is stored under. -/
structure LinkKey where
  sourceNodeId : String
  destNodeId : String
  destEndpoint : String
  linkId : String
  deriving DecidableEq, Repr

namespace Link

def key (link : Link) : LinkKey where
  sourceNodeId := link.sourceNodeId
  destNodeId := link.destNodeId
  destEndpoint := link.destEndpoint
  linkId := link.linkId

/-- `LinkMissingFields` is returned for such a link. -/
def missingFields (link : Link) : Bool :=
  link.linkId.isEmpty || link.sourceNodeId.isEmpty || link.destEndpoint.isEmpty

def live (link : Link) : Bool := link.status ≠ .Deleted

def fromTo (link : Link) (a b : String) : Bool := link.sourceNodeId = a && link.destNodeId = b

/-- Between two domains, in either direction. -/
def betweenDomains (link : Link) (a b : String) : Bool :=
  link.sourceDomain = a && link.destDomain = b || link.sourceDomain = b && link.destDomain = a

end Link

/-! ## Errors -/

inductive DbError
  | NodeNotFound (id : String)
  | RouteAlreadyExists (route : Route)
  | RouteNotFound (id : RouteId)
  | LinkNotFound (id : String)
  | LinkMissingFields
  deriving DecidableEq, Repr

end Slim.Db
