import Slim.Sync

/-!
# Message processing of a node

`MessageProcessor` as a state machine: each handler takes the node and returns its result, the node
after it and what it hands to the outside in order (`Effect`): messages put on connections,
notifications to the control plane, statuses to local applications and spawned forwarding tasks. A
spawned task runs later, in the steps `startForward` (both halves of `forward_and_ack` up to where
they wait) and `ackUpstream` (after the wait, whose outcome is an argument).

Header MACs: a link without a session it needs refuses to send; the tags themselves, and the check
of received ones before a message gets here, are not part of the model. Of the status an
application gets, the error text is kept and the JSON around it is not.
-/

namespace Slim

structure Node where
  serviceId : String := ""
  deploymentName : String := ""
  relayPeerPublishes : Bool := false
  controlPlane : Bool := false
  /-- The drain watch is available: the node is not shutting down. -/
  running : Bool := true
  forwarder : Forwarder := {}
  peerSync : PeerSync := {}
  remoteSync : RemoteSync := {}

inductive Effect
  | send (conn : ConnId) (msg : Message)
  | status (conn : ConnId) (error : String)
  | controlPlane (msg : Message)
  | spawn (task : ForwardTask)
  deriving DecidableEq, Repr

structure Out where
  result : Except (Fault DataPathError) Unit
  node : Node
  effects : List Effect

namespace Message

/-- Not a link message or an acknowledgement. -/
def isRouted (m : Message) : Bool :=
  match m.messageType with
  | some (.subscribe ..) | some (.unsubscribe ..) | some (.publish ..) => true
  | _ => false

end Message

namespace Node

variable (n : Node)

def getConnection (conn : ConnId) : Option Connection := n.forwarder.getConnection conn

def table : SubscriptionTable := n.forwarder.subscriptionTable

/-! ## Sending -/

/-- `send_msg`: the routing flags are cleared before a message leaves the node. -/
def sendMsg (msg : Message) (outConn : ConnId) : Except DataPathError Effect :=
  match n.getConnection outConn with
  | none => .error (.ConnectionNotFound outConn)
  | some conn =>
    let msg := msg.mapHeader SlimHeader.clearFlags
    let signed := msg.isRouted &&
      (conn.connectionType == .Remote || conn.connectionType == .Edge)
    let linkId := ((conn.linkId <|> conn.configLinkId).filter (· ≠ ""))
    if signed && conn.requireHeaderMac && !conn.headerHmac then
      .error (.NegotiationError
        "strict header MAC required but link HMAC session is not installed")
    else if signed && conn.headerHmac && linkId.isNone then
      .error (.HeaderMacAwaitingLinkNegotiation outConn)
    else if ¬ conn.channelOpen then
      .error (.MessageProcessingError (.ConnectionNotFound outConn) msg)
    else .ok (.send outConn msg)

/-- The effects of a send whose failure is only logged. -/
def trySend (msg : Message) (outConn : ConnId) : List Effect :=
  match n.sendMsg msg outConn with
  | .ok e => [e]
  | .error _ => []

def sendSubscriptionAck (inConnection : ConnId) (subscriptionId : SubId)
    (result : Except DataPathError Unit) : List Effect :=
  match result with
  | .ok () => n.trySend (buildSubscriptionAck subscriptionId true "") inConnection
  | .error e => n.trySend (buildSubscriptionAck subscriptionId false e.toString) inConnection

/-- An acknowledgement to a sender that asked for one (a non-zero id). -/
def ackIfAsked (inConnection : ConnId) (subId : SubId)
    (result : Except DataPathError Unit) : List Effect :=
  if subId ≠ 0 then n.sendSubscriptionAck inConnection subId result else []

/-! ## Subscriptions -/

structure SubscriptionOutcome where
  transition : Bool
  isPeerConn : Bool
  forwardConn : Option ConnId

/-- Update the subscription table under the type the connection has now. -/
def updateSubscriptionState (dst : ProtoName) (conn : ConnId) (forward : Option ConnId)
    (add : Bool) (subscriptionId : SubId) :
    Except (Fault DataPathError) SubscriptionOutcome × Node :=
  match n.getConnection conn with
  | none => (.error (.err (.ConnectionNotFound conn)), n)
  | some connection =>
    let (r, fwd) :=
      n.forwarder.onSubscriptionMsg dst conn connection.connectionType add subscriptionId
    (r.map fun transition => ⟨transition, connection.isPeerConnection, forward⟩,
      { n with forwarder := fwd })

/-- Which peers a processed subscription is forwarded to, with what TTL. -/
def peerTarget (outcome : SubscriptionOutcome) (inConn : ConnId) (remainingTtl : Nat) :
    Option PeerTarget × Nat :=
  if !outcome.isPeerConn && outcome.transition then (some .All, n.peerSync.subscriptionTtl)
  else if outcome.isPeerConn && decide (2 ≤ remainingTtl) then
    (some (.ExcludeConn inConn), remainingTtl)
  else (none, 0)

/-- The end of `process_subscription`, after the table was updated: notify the control plane of a
local transition, then spawn the forwarding task or acknowledge at once. -/
def forwardSubscription (msg : Message) (dst : ProtoName) (ttl : Nat) (subId : SubId)
    (inConnection inConn : ConnId) (connection : Connection) (add : Bool)
    (outcome : SubscriptionOutcome) : Out :=
  let notified :=
    if connection.isLocalConnection && !outcome.isPeerConn && outcome.transition && n.controlPlane
    then [Effect.controlPlane msg] else []
  let (peers, peerTtl) := n.peerTarget outcome inConn ttl
  let targets : ForwardTargets := ⟨peers, outcome.forwardConn⟩
  if targets.hasAny && n.running then
    let task : ForwardTask :=
      { msg, name := dst, subId, add, targets, inConnection
        upstreamSubscriptionId := if subId ≠ 0 then some subId else none
        peerTtl }
    ⟨.ok (), n, notified ++ [.spawn task]⟩
  else ⟨.ok (), n, notified ++ n.ackIfAsked inConnection subId (.ok ())⟩

/-- The connection a (un)subscription is forwarded on; not a local one. -/
def forwardTarget (hdr : SlimHeader) : Option ConnId :=
  hdr.forwardTo.filter fun out =>
    match n.getConnection out with
    | some c => !c.isLocalConnection
    | none => true

/-- `process_subscription`, for a message with the header `hdr`, the destination `dst` and the
subscription id `subId` (`0` for none). -/
def processSubscription (msg : Message) (hdr : SlimHeader) (dst : ProtoName)
    (subId : SubId) (inConnection : ConnId) (add : Bool) : Out :=
  let inConn := hdr.recvFrom.getD inConnection
  let forward := n.forwardTarget hdr
  match n.getConnection inConn with
  | none =>
    ⟨.error (.err (.MessageProcessingError (.ConnectionNotFound inConn) msg)), n,
      n.ackIfAsked inConnection subId (.error (.ConnectionNotFound inConn))⟩
  | some connection =>
    -- looped back to a local connection
    if hdr.recvFrom.isSome && connection.isLocalConnection then
      ⟨.ok (), n, n.ackIfAsked inConnection subId (.ok ())⟩
    -- already forwarded by this node
    else if add && subId ≠ 0 && n.peerSync.hasSeenSubId subId then
      ⟨.ok (), n, n.ackIfAsked inConnection subId (.ok ())⟩
    else
      match n.updateSubscriptionState dst inConn forward add subId with
      | (.error (.panic m), n) => ⟨.error (.panic m), n, []⟩
      | (.error (.err e), n) =>
        if subId ≠ 0 then ⟨.ok (), n, n.sendSubscriptionAck inConnection subId (.error e)⟩
        else ⟨.error (.err (.MessageProcessingError e msg)), n, []⟩
      | (.ok outcome, n) =>
        n.forwardSubscription msg dst hdr.ttl subId inConnection inConn connection add outcome

/-! ## Publications -/

/-- Send a message to several connections: it fails only if every send did, with the last
error. -/
def fanOut (n : Node) (msg : Message) : List ConnId → List Effect × Nat × Option DataPathError
  | [] => ([], 0, none)
  | c :: cs =>
    let (effects, failed, error) := fanOut n msg cs
    match n.sendMsg msg c with
    | .ok e => (e :: effects, failed, error)
    | .error e => (effects, failed + 1, error <|> some e)

def sendSingle (msg : Message) (c : ConnId) : Out :=
  match n.sendMsg msg c with
  | .ok e => ⟨.ok (), n, [e]⟩
  | .error e => ⟨.error (.err e), n, []⟩

/-- `match_and_forward_msg`: an explicit output connection is used without a match; else the
subscription table is asked, and for local senders the default gateway. -/
def matchAndForwardMsg (msg : Message) (hdr : SlimHeader) (encoded : EncodedName)
    (inConnection : ConnId) (filter : MatchFilter) (category : ConnType) : Out :=
  match hdr.forwardTo with
  | some c => n.sendSingle msg c
  | none =>
    let (r, fwd) := n.forwarder.onPublishMsgMatch encoded inConnection hdr.fanout filter
    let n := { n with forwarder := fwd }
    match r with
    | .ok [c] => n.sendSingle msg c
    | .ok out =>
      let (effects, failed, error) := n.fanOut msg out
      match error with
      | some e =>
        if failed = out.length then ⟨.error (.err e), n, effects⟩ else ⟨.ok (), n, effects⟩
      | none => ⟨.ok (), n, effects⟩
    | .error e =>
      let refused (n : Node) : Out := ⟨.error (.err (.MessageProcessingError e msg)), n, []⟩
      match category, e with
      | .Local, .NoMatchEncoded .. =>
        let (gateway, fwd) := n.forwarder.resolveDefaultGateway
        let n := { n with forwarder := fwd }
        match gateway with
        | .Some c _ => n.sendSingle msg c
        | _ => refused n
      | _, _ => refused n

/-- The types a publication may be routed to. -/
def publishFilter (category : ConnType) : MatchFilter :=
  match category with
  | .Peer => if n.relayPeerPublishes then .ALL else .EXCLUDE_PEER
  | _ => .ALL

/-! ## Dispatch -/

def headerMissing : Fault DataPathError := .panic "SLIM header missing"

/-- `process_message`, for a message that passed `validate`. -/
def processMessage (msg : Message) (inConnection : ConnId) (category : ConnType) : Out :=
  match msg.messageType with
  | some (.subscribe (some hdr) subId) =>
    match hdr.destination with
    | some dst => n.processSubscription msg hdr dst subId inConnection true
    | none => ⟨.error headerMissing, n, []⟩
  | some (.unsubscribe (some hdr) subId) =>
    match hdr.destination with
    | some dst => n.processSubscription msg hdr dst subId inConnection false
    | none => ⟨.error headerMissing, n, []⟩
  | some (.publish (some hdr) _ _) =>
    match hdr.destination.bind ProtoName.name with
    | some encoded =>
      n.matchAndForwardMsg msg hdr encoded inConnection (n.publishFilter category) category
    | none => ⟨.error headerMissing, n, []⟩
  -- link messages are only exchanged before a connection is in the table
  | some (.link _) => ⟨.ok (), n, []⟩
  | some (.subscriptionAck ack) =>
    let result := if ack.success then .ok () else .error (.RemoteSubscriptionAckError ack.error)
    ⟨.ok (), { n with peerSync := (n.peerSync.resolveAck ack.subscriptionId result).2 }, []⟩
  | _ => ⟨.error headerMissing, n, []⟩

/-- `handle_new_message`: validate, note the incoming connection, and count the hop of a message
from another node. -/
def handleNewMessage (connIndex : ConnId) (category : ConnType) (msg : Message) : Out :=
  match msg.validate with
  | .error e =>
    ⟨.error (.err (.MessageProcessingError (.MalformedMessage e) msg)), n, []⟩
  | .ok () =>
    let msg := msg.mapHeader fun h => { h with incomingConn := some connIndex }
    let msg := if category.isLocal then msg else msg.mapHeader SlimHeader.decrementTtl
    match msg.tryGetSlimHeader with
    | some h =>
      if !category.isLocal && h.ttl == 0 then ⟨.error (.err .TtlExpired), n, []⟩
      else n.processMessage msg connIndex category
    | none => n.processMessage msg connIndex category

/-! ## Forwarding tasks -/

def targetConns (n : Node) : PeerTarget → List ConnId
  | .All => n.peerSync.peerConns
  | .ExcludeConn c => n.peerSync.peerConns.filter (· ≠ c)

/-- `forward_to_peers` up to the wait: an id is registered as seen (or taken back) before the
messages leave, and acknowledgements are awaited from the peers that were reached. -/
def forwardToPeers (name : ProtoName) (subId : SubId) (add : Bool)
    (target : Option PeerTarget) (ttl : Nat) : Node × List Effect :=
  match target with
  | none => (n, [])
  | some target =>
    let conns := n.targetConns target
    if conns.isEmpty then (n, [])
    else
      let (peerSync, msg) :=
        if add then
          (n.peerSync.registerForwardedSub name subId, buildSubscribeMsg name subId ttl)
        else (n.peerSync.removeForwardedSub name subId, buildUnsubscribeMsg name subId ttl)
      let effects := conns.flatMap fun c => n.trySend msg c
      let peerSync :=
        if effects.isEmpty then peerSync else peerSync.registerAck subId effects.length
      ({ n with peerSync }, effects)

/-- `forward_to_conn` up to the wait: the original message goes out and is tracked for a
reconnect. -/
def forwardToConn (task : ForwardTask) : Node × List Effect :=
  match task.targets.forwardConn, task.msg.tryGetSlimHeader with
  | some out, some hdr =>
    match n.sendMsg task.msg out, hdr.source, hdr.destination with
    | .ok e, some source, some name =>
      let info : SubscriptionInfo := ⟨source, name, hdr.identity, task.subId⟩
      ({ n with
          peerSync := n.peerSync.registerAck task.subId 1
          remoteSync := n.remoteSync.onForwardedSubscription info out task.add }, [e])
    | _, _, _ => ({ n with peerSync := n.peerSync.removeAck task.subId }, [])
  | _, _ => (n, [])

/-- A spawned task up to where both of its halves wait. -/
def startForward (task : ForwardTask) : Node × List Effect :=
  let (n, e1) := n.forwardToPeers task.name task.subId task.add task.targets.peers task.peerTtl
  let (n, e2) := n.forwardToConn task
  (n, e1 ++ e2)

/-- The end of the task: the client that subscribed gets the result of the forward connection. -/
def ackUpstream (task : ForwardTask) (result : Except DataPathError Unit) :
    List Effect :=
  match task.upstreamSubscriptionId with
  | none => []
  | some id =>
    n.sendSubscriptionAck task.inConnection id
      (match result with
        | .ok () => .ok ()
        | .error e => .error (.RemoteSubscriptionAckError e.toString))

/-- The loop body of `RemoteSync::restore`: send one recorded subscription again and, with
`restoreTracking`, record it again if it went out. -/
def restoreOne (connIndex : ConnId) (restoreTracking : Bool) (s : Node × List Effect)
    (r : SubscriptionInfo) : Node × List Effect :=
  match s.1.sendMsg (RemoteSync.restoreMsg r) connIndex with
  | .error _ => s
  | .ok e =>
    (if restoreTracking then
        { s.1 with remoteSync := s.1.remoteSync.onForwardedSubscription r connIndex true }
      else s.1,
      s.2 ++ [e])

def restore (remoteSubs : List SubscriptionInfo) (connIndex : ConnId)
    (restoreTracking : Bool) : Node × List Effect :=
  remoteSubs.foldl (restoreOne connIndex restoreTracking) (n, [])

/-- What `reconnect` does for a remote connection once the link is up again: the records are still
there, so they are not tracked again. -/
def restoreRemoteSubscriptions (connIndex : ConnId) : Node × List Effect :=
  n.restore (n.remoteSync.getSubscriptionsForReconnect connIndex) connIndex false

/-- `notify_peers_unsubscribe`, on the drop of a connection. -/
def notifyPeersUnsubscribe (name : ProtoName) : Node × List Effect :=
  match n.peerSync.forwardedSubForName.lookup name with
  | none => (n, [])
  | some subId => n.forwardToPeers name subId false (some .All) n.peerSync.subscriptionTtl

end Node

/-! ## Streams -/

/-- The loop of `process_stream` for one connection, after it was registered. -/
structure Stream where
  connIndex : ConnId
  /-- The type the connection ended up with; whether it is local was fixed before. -/
  category : ConnType
  isLocal : Bool
  fromControlPlane : Bool := false
  /-- The control plane could be notified when the stream started. -/
  notifies : Bool := false
  deriving DecidableEq, Repr

namespace Node

/-- The copy of a remote (un)subscription the control plane gets. -/
def controlPlaneCopy (msg : Message) : Except (Fault DataPathError) (List Effect) :=
  let copy (hdr : Option SlimHeader)
      (build : ProtoName → ProtoName → String → SlimHeaderFlags → SubId → Message) :
      Except (Fault DataPathError) (List Effect) :=
    match hdr with
    | none => .error headerMissing
    | some hdr =>
      match hdr.source, hdr.destination with
      | some source, some dst => .ok [.controlPlane (build source dst "" {} 0)]
      | none, _ => .error (.panic "source not found")
      | _, none => .error (.panic "destination not found")
  match msg.messageType with
  | some (.subscribe hdr _) => copy hdr buildSubscribe
  | some (.unsubscribe hdr _) => copy hdr buildUnsubscribe
  | some _ => .ok []
  | none => .error (.panic "message type not found")

/-- What goes to the control plane before a message is processed: a copy of a (un)subscription from
another deployment or an edge. -/
def copied (n : Node) (s : Stream) (msg : Message) : Except (Fault DataPathError) (List Effect) :=
  let isRemote := !s.isLocal &&
    match n.getConnection s.connIndex with
    | some c => c.connectionType == .Remote || c.connectionType == .Edge
    | none => false
  if isRemote && !s.fromControlPlane && s.notifies then controlPlaneCopy msg
  else if !s.isLocal && msg.messageType.isNone then .error (.panic "message type not found")
  else .ok []

/-- The status a local application gets of an error; a negotiation error ends the stream instead. -/
def told (s : Stream) (out : Out) : List Effect :=
  match out.result, s.isLocal, out.node.getConnection s.connIndex with
  | .error (.err (.NegotiationError _)), _, _ => []
  | .error (.err e), true, some c => if c.isServer then [.status s.connIndex e.toString] else []
  | _, _, _ => []

def receive (n : Node) (s : Stream) (msg : Message) : Out :=
  match n.copied s msg with
  | .error f => ⟨.error f, n, []⟩
  | .ok copies =>
    let out := n.handleNewMessage s.connIndex s.category msg
    ⟨out.result, out.node, copies ++ out.effects ++ told s out⟩

/-- `fwd.notify_peers_unsubscribe` for a lost name that nothing matches any more. -/
def notifyIfUnreachable (n : Node) (name : ProtoName) : Node × List Effect :=
  match name.name with
  | none => n.notifyPeersUnsubscribe name
  | some enc =>
    let (r, fwd) := n.forwarder.onPublishMsgMatch enc (UInt64.ofNat (2 ^ 64 - 1)) (2 ^ 32 - 1) .ALL
    let n := { n with forwarder := fwd }
    match r with
    | .ok _ => (n, [])
    | .error _ => n.notifyPeersUnsubscribe name

def notifyLost (s : Node × List Effect) (name : ProtoName) : Node × List Effect :=
  let (n, e) := s.1.notifyIfUnreachable name
  (n, s.2 ++ e)

section
variable (calculateHash : String → UInt64)

/-- The end of the stream without a reconnect: the connection leaves every table, peers are told of
names that became unreachable, the control plane of every name a remote connection held. -/
def closeStream (n : Node) (s : Stream) : Node × List Effect :=
  let (lost, fwd) := n.forwarder.onConnectionDrop calculateHash s.connIndex s.category
  let n : Node :=
    { n with
      forwarder := fwd
      remoteSync := (n.remoteSync.onConnectionDrop s.connIndex).2
      peerSync := if s.category = .Peer then n.peerSync.removePeerConn s.connIndex else n.peerSync }
  let (n, effects) := lost.keys.foldl notifyLost (n, [])
  let notified :=
    if !s.isLocal && s.notifies then
      lost.keys.map fun name => Effect.controlPlane
        (buildUnsubscribe name name "" { recvFrom := some s.connIndex } 0)
    else []
  (n, effects ++ notified)

end

end Node

end Slim
