import Slim.Tables.SubscriptionTable

/-!
# The forwarder

The tables of a node and the operations the data path makes on them together: the connection
table, the subscription table and the default gateway. Connection ids come from a pool that hands
out ids not in use, so `onConnectionEstablished` takes the id; the connection table is the finite
map the pool implements.
-/

namespace Slim

/-! ## Connections -/

structure Connection where
  connectionType : ConnType
  /-- `Channel::Server` rather than `Channel::Client`. -/
  isServer : Bool := true
  /-- The receiving end of the channel exists. -/
  channelOpen : Bool := true
  requireHeaderMac : Bool := false
  headerHmac : Bool := false
  linkId : Option String := none
  /-- `link_id` of the client configuration the connection was dialled with. -/
  configLinkId : Option String := none
  deriving DecidableEq, Repr

namespace Connection

def isLocalConnection (c : Connection) : Bool := c.connectionType == .Local

def isPeerConnection (c : Connection) : Bool := c.connectionType == .Peer

end Connection

abbrev ConnectionTable := AList fun _ : ConnId => Connection

/-! ## The default gateway -/

inductive GatewaySource
  | Explicit
  | Auto
  deriving DecidableEq, Repr

inductive Gateway
  | Dirty
  | Some (connId : ConnId) (source : GatewaySource)
  | Empty
  | Ambiguous (count : Nat)
  deriving DecidableEq, Repr

structure DefaultGateway where
  enabled : Bool := true
  explicit : Option ConnId := none
  cache : Gateway := .Dirty
  deriving DecidableEq, Repr

namespace DefaultGateway

def invalidate (g : DefaultGateway) : DefaultGateway := { g with cache := .Dirty }

/-- The gateway, given the current Edge connections. -/
def resolve (g : DefaultGateway) (edges : List ConnId) : Gateway × DefaultGateway :=
  match g.explicit with
  | some id => (if edges.contains id then .Some id .Explicit else .Empty, g)
  | none =>
    if ¬ g.enabled then (.Empty, g)
    else if g.cache ≠ .Dirty then (g.cache, g)
    else
      let result := match edges with
        | [] => .Empty
        | [id] => .Some id .Auto
        | edges => .Ambiguous edges.length
      (result, { g with cache := result })

end DefaultGateway

/-! ## The forwarder -/

structure Forwarder where
  subscriptionTable : SubscriptionTable := SubscriptionTable.empty
  connectionTable : ConnectionTable := ∅
  defaultGateway : DefaultGateway := {}

namespace Forwarder

variable (f : Forwarder)

def getConnection (conn : ConnId) : Option Connection := f.connectionTable.lookup conn

def onConnectionEstablished (connection : Connection) (id : ConnId) : Forwarder :=
  { f with
    connectionTable := f.connectionTable.insert id connection
    defaultGateway := f.defaultGateway.invalidate }

/-- `connection_table().update(id, |conn| conn.set_connection_type(ct))`, followed by
`on_connection_type_changed`. -/
def setConnectionType (id : ConnId) (ct : ConnType) : Forwarder :=
  match f.connectionTable.lookup id with
  | none => { f with defaultGateway := f.defaultGateway.invalidate }
  | some c =>
    { f with
      connectionTable := f.connectionTable.insert id { c with connectionType := ct }
      defaultGateway := f.defaultGateway.invalidate }

section
variable (calculateHash : String → UInt64)

/-- Remove the connection from both tables; without records nothing is reported. -/
def onConnectionDrop (conn : ConnId) (category : ConnType) :
    SubscriptionTable.LostSubscriptions × Forwarder :=
  let (r, t) := f.subscriptionTable.removeConnection calculateHash conn category
  (match r with
    | .ok lost => lost
    | .error _ => ∅,
    { subscriptionTable := t
      connectionTable := f.connectionTable.erase conn
      defaultGateway := f.defaultGateway.invalidate })

end

def onSubscriptionMsg (name : ProtoName) (conn : ConnId) (category : ConnType)
    (add : Bool) (subscriptionId : SubId) : Except (Fault DataPathError) Bool × Forwarder :=
  let (r, t) :=
    if add then f.subscriptionTable.addSubscription name conn category subscriptionId
    else f.subscriptionTable.removeSubscription name conn category subscriptionId
  (r, { f with subscriptionTable := t })

/-- One match: a single connection for fanout one, else all of them. -/
def matchOnce (t : SubscriptionTable) (encoded : EncodedName) (incomingConn : ConnId)
    (fanout : Nat) (filter : MatchFilter) :
    Except DataPathError (List ConnId) × SubscriptionTable :=
  if fanout = 1 then
    let (r, t) := t.matchOne encoded incomingConn filter
    (r.map fun c => [c], t)
  else (t.matchAll encoded incomingConn filter, t)

/-- The loop of `on_publish_msg_match`: matches of connections that are gone have their routes
removed, and when nothing is left the name is matched again. -/
def publishMatchLoop (conns : ConnectionTable) (encoded : EncodedName) (incomingConn : ConnId)
    (fanout : Nat) (filter : MatchFilter) :
    Nat → SubscriptionTable → Except DataPathError (List ConnId) × SubscriptionTable
  | 0, t => (.error (SubscriptionTable.noMatch encoded), t)
  | k + 1, t =>
    match matchOnce t encoded incomingConn fanout filter with
    | (.error e, t) => (.error e, t)
    | (.ok out, t) =>
      let live := out.filter fun c => c ∈ conns
      let t := (out.filter fun c => c ∉ conns).foldl SubscriptionTable.removeRoutesTo t
      if live.isEmpty then publishMatchLoop conns encoded incomingConn fanout filter k t
      else (.ok live, t)

def listedConns (r : Routing) : List ConnId :=
  (r.entries.flatMap fun e => ConnType.ALL.flatMap e.2.aggregates).dedup

/-- Connections to forward a message for `encoded` to. Every round but the last takes the routes of
a listed connection away, which bounds the rounds. -/
def onPublishMsgMatch (encoded : EncodedName) (incomingConn : ConnId)
    (fanout : Nat) (filter : MatchFilter) : Except DataPathError (List ConnId) × Forwarder :=
  let (r, t) := publishMatchLoop f.connectionTable encoded incomingConn fanout filter
    ((listedConns f.subscriptionTable.routing).length + 1) f.subscriptionTable
  (r, { f with subscriptionTable := t })

def edgeConnIds : List ConnId :=
  (f.connectionTable.entries.filter fun e => e.2.connectionType == .Edge).map fun e => e.1

/-- Pin an Edge connection. -/
def setDefaultGateway (connId : ConnId) : Except DataPathError Unit × Forwarder :=
  match f.getConnection connId with
  | none => (.error (.InvalidDefaultGateway connId "connection not found"), f)
  | some conn =>
    if conn.connectionType ≠ .Edge then
      (.error (.InvalidDefaultGateway connId
        ("connection type is " ++ conn.connectionType.debugName ++ ", expected Edge")), f)
    else (.ok (), { f with defaultGateway := { f.defaultGateway with explicit := some connId } })

def clearDefaultGateway : Forwarder :=
  { f with defaultGateway := { f.defaultGateway with explicit := none }.invalidate }

def setDefaultGatewayEnabled (enabled : Bool) : Forwarder :=
  { f with defaultGateway := { f.defaultGateway with enabled } }

def resolveDefaultGateway : Gateway × Forwarder :=
  let (g, d) := f.defaultGateway.resolve f.edgeConnIds
  (g, { f with defaultGateway := d })

end Forwarder

end Slim
