import Slim.Forwarder

/-!
# Peer and remote synchronisation state

`PeerSync` keeps what a node forwarded to its peers: the ids it has seen (loop prevention), the id
it forwarded for each name, and the acknowledgements it waits for. `RemoteSync` keeps, per remote
connection, the subscriptions forwarded on it, which `restore` replays after a reconnect.
`PeerState` is the table of peers that discovery keeps.
-/

namespace Slim

/-! ## Messages the node builds -/

def buildSubscribe (source destination : ProtoName) (identity : String) (flags : SlimHeaderFlags)
    (subscriptionId : SubId) : Message :=
  { messageType := some
      (.subscribe (some (SlimHeader.new source destination identity flags)) subscriptionId) }

def buildUnsubscribe (source destination : ProtoName) (identity : String) (flags : SlimHeaderFlags)
    (subscriptionId : SubId) : Message :=
  { messageType := some
      (.unsubscribe (some (SlimHeader.new source destination identity flags)) subscriptionId) }

def buildSubscriptionAck (subscriptionId : SubId) (success : Bool) (error : String) : Message :=
  { messageType := some (.subscriptionAck ⟨subscriptionId, success, error⟩) }

/-- The subscription message a node sends to a peer. -/
def buildSubscribeMsg (name : ProtoName) (subscriptionId : SubId) (ttl : Nat) : Message :=
  buildSubscribe name name "" { ttl } subscriptionId

def buildUnsubscribeMsg (name : ProtoName) (subscriptionId : SubId) (ttl : Nat) : Message :=
  buildUnsubscribe name name "" { ttl } subscriptionId

/-! ## Peers -/

structure PeerEntry where
  connId : ConnId
  endpoint : String
  /-- The connection was dialled rather than accepted. -/
  isOutgoing : Bool
  deriving DecidableEq, Repr

structure PeerState where
  peers : AList fun _ : String => PeerEntry := ∅
  connToPeer : AList fun _ : ConnId => String := ∅

namespace PeerState

def contains (s : PeerState) (peerId : String) : Bool := (s.peers.lookup peerId).isSome

/-- A peer that is known already stays as it is. -/
def insert (s : PeerState) (peerId : String) (entry : PeerEntry) : PeerState :=
  if s.contains peerId then s
  else
    { connToPeer := s.connToPeer.insert entry.connId peerId
      peers := s.peers.insert peerId entry }

def remove (s : PeerState) (peerId : String) : Option PeerEntry × PeerState :=
  match s.peers.lookup peerId with
  | none => (none, s)
  | some entry =>
    (some entry,
      { peers := s.peers.erase peerId, connToPeer := s.connToPeer.erase entry.connId })

end PeerState

/-- Acknowledgements still expected for one id, and the errors that came. -/
structure PendingAck where
  remaining : Nat
  errors : List DataPathError
  deriving DecidableEq, Repr

structure PeerSync where
  peerConns : List ConnId := []
  /-- Ids this node has forwarded. -/
  seenSubIds : List SubId := []
  /-- The id forwarded to the peers for each name. -/
  forwardedSubForName : AList fun _ : ProtoName => SubId := ∅
  pendingAcks : AList fun _ : SubId => PendingAck := ∅
  /-- TTL of the subscriptions this node starts. -/
  subscriptionTtl : Nat := DEFAULT_TTL
  syncFilter : MatchFilter := .ALL

namespace PeerSync

variable (p : PeerSync)

def addPeerConn (conn : ConnId) : PeerSync :=
  { p with peerConns := Vec.pushNew p.peerConns conn }

/-- With discovery there is a table of the peers, and one that is in it already is skipped. -/
def onIncomingPeer (state : Option PeerState) (nodeId : String) (conn : ConnId) :
    Option PeerState × PeerSync :=
  match state with
  | none => (none, p.addPeerConn conn)
  | some state =>
    if state.contains nodeId then (some state, p)
    else (some (state.insert nodeId ⟨conn, "", false⟩), p.addPeerConn conn)

def removePeerConn (conn : ConnId) : PeerSync :=
  { p with peerConns := p.peerConns.filter (· ≠ conn) }

def registerForwardedSub (name : ProtoName) (subId : SubId) : PeerSync :=
  { p with
    seenSubIds := Vec.pushNew p.seenSubIds subId
    forwardedSubForName := p.forwardedSubForName.insert name subId }

def removeForwardedSub (name : ProtoName) (subId : SubId) : PeerSync :=
  { p with
    seenSubIds := p.seenSubIds.filter (· ≠ subId)
    forwardedSubForName := p.forwardedSubForName.erase name }

def hasSeenSubId (subId : SubId) : Bool := p.seenSubIds.contains subId

def registerAck (ackId : SubId) (expectedCount : Nat) : PeerSync :=
  { p with pendingAcks := p.pendingAcks.insert ackId ⟨expectedCount, []⟩ }

def removeAck (ackId : SubId) : PeerSync :=
  { p with pendingAcks := p.pendingAcks.erase ackId }

/-- Count one acknowledgement. With the last one the entry goes and the task that waits gets the
aggregate result. -/
def resolveAck (ackId : SubId) (result : Except DataPathError Unit) :
    Option (Except DataPathError Unit) × PeerSync :=
  match p.pendingAcks.lookup ackId with
  | none => (none, p)
  | some pending =>
    let errors := match result with
      | .ok () => pending.errors
      | .error e => pending.errors ++ [e]
    let remaining := pending.remaining - 1
    if remaining = 0 then
      (some (if errors.isEmpty then .ok ()
        else .error (.RemoteSubscriptionAckError
          (String.intercalate "; " (errors.map DataPathError.toString)))),
        p.removeAck ackId)
    else (none, { p with pendingAcks := p.pendingAcks.insert ackId ⟨remaining, errors⟩ })

end PeerSync

/-- Which peers to forward a subscription to. -/
inductive PeerTarget
  | All
  | ExcludeConn (conn : ConnId)
  deriving DecidableEq, Repr

structure ForwardTargets where
  peers : Option PeerTarget
  forwardConn : Option ConnId
  deriving DecidableEq, Repr

namespace ForwardTargets

def hasAny (t : ForwardTargets) : Bool := t.peers.isSome || t.forwardConn.isSome

end ForwardTargets

/-- The arguments of a spawned `forward_and_ack`. -/
structure ForwardTask where
  msg : Message
  name : ProtoName
  subId : SubId
  add : Bool
  targets : ForwardTargets
  inConnection : ConnId
  upstreamSubscriptionId : Option SubId
  peerTtl : Nat
  deriving DecidableEq, Repr

/-! ## Remote connections -/

structure SubscriptionInfo where
  source : ProtoName
  name : ProtoName
  sourceIdentity : String
  subscriptionId : SubId
  deriving DecidableEq, Repr

structure RemoteSync where
  /-- Subscriptions forwarded on each remote connection. -/
  table : AList fun _ : ConnId => List SubscriptionInfo := ∅

namespace RemoteSync

def onForwardedSubscription (r : RemoteSync) (info : SubscriptionInfo) (conn : ConnId)
    (add : Bool) : RemoteSync :=
  if add then
    { table := r.table.insert conn (Vec.pushNew ((r.table.lookup conn).getD []) info) }
  else
    match r.table.lookup conn with
    | none => r
    | some set =>
      let set := set.filter (· ≠ info)
      { table := if set.isEmpty then r.table.erase conn else r.table.insert conn set }

def onConnectionDrop (r : RemoteSync) (conn : ConnId) : List SubscriptionInfo × RemoteSync :=
  ((r.table.lookup conn).getD [], { table := r.table.erase conn })

def getSubscriptionsForReconnect (r : RemoteSync) (conn : ConnId) : List SubscriptionInfo :=
  (r.table.lookup conn).getD []

/-- The message `restore` sends for one subscription: the builder is given no subscription id. -/
def restoreMsg (info : SubscriptionInfo) : Message :=
  buildSubscribe info.source info.name info.sourceIdentity {} 0

end RemoteSync

end Slim
