import Slim.MessageProcessing

/-!
# Waiting for acknowledgements

`forward_and_ack` step by step. The half that forwards to the peers and the half that forwards to
the forward connection run concurrently; each registers its wait in `pending_acks` under the id of
the subscription, the first half after it has sent, the second before. An acknowledgement names the
id only, and resolves whatever wait is registered. No wait runs into its timeout.

`owner` says whose sender the registered entry holds: a registration over it, or its removal, drops
that sender. `toAck` are the recipients that have yet to acknowledge, each by one message. `connAck`
and `upstream` note the success flags of the forward connection's acknowledgement and of the one
sent to the client.
-/

namespace Slim

inductive Half
  | peers
  | conn
  deriving DecidableEq, Repr

/-- The receiving end of a half's wait. -/
inductive Wait
  | idle
  | waiting
  | resolved (result : Except DataPathError Unit)
  | dropped
  deriving DecidableEq

/-- Where `forward_to_peers` is. -/
inductive PeersPc
  | start
  | sending (todo : List ConnId) (sent : Nat)
  | waiting
  | done
  deriving DecidableEq

/-- Where `forward_to_conn` is. -/
inductive ConnPc
  | start
  | registered (out : ConnId)
  | waiting
  | done (result : Except DataPathError Unit)
  deriving DecidableEq

namespace ForwardTask

def peerMessage (task : ForwardTask) : Message :=
  if task.add then buildSubscribeMsg task.name task.subId task.peerTtl
  else buildUnsubscribeMsg task.name task.subId task.peerTtl

end ForwardTask

structure ForwardRun where
  node : Node
  owner : Option Half := none
  peers : PeersPc := .start
  conn : ConnPc := .start
  rx : Half → Wait := fun _ => .idle
  toAck : List (Half × ConnId) := []
  connAck : Option Bool := none
  upstream : Option Bool := none

namespace ForwardRun

inductive Action
  | peers
  | conn
  | ack (recipient : Half × ConnId) (success : Bool) (error : String)
  /-- Both halves are through: acknowledge to the client. -/
  | finish

def init (n : Node) : ForwardRun := { node := n }

/-- The receiving ends once the sender of the registered entry is dropped. -/
def cancelled (s : ForwardRun) : Half → Wait :=
  match s.owner with
  | none => s.rx
  | some h => Function.update s.rx h .dropped

variable (task : ForwardTask)

def registerAck (s : ForwardRun) (h : Half) (expected : Nat) : ForwardRun :=
  { s with
    node := { s.node with peerSync := s.node.peerSync.registerAck task.subId expected }
    rx := Function.update s.cancelled h .waiting
    owner := some h }

def removeAck (s : ForwardRun) : ForwardRun :=
  { s with
    node := { s.node with peerSync := s.node.peerSync.removeAck task.subId }
    rx := s.cancelled
    owner := none }

def stepPeers (s : ForwardRun) : ForwardRun :=
  match s.peers with
  | .start =>
    match task.targets.peers with
    | none => { s with peers := .done }
    | some target =>
      let conns := s.node.targetConns target
      if conns.isEmpty then { s with peers := .done }
      else
        let p := s.node.peerSync
        let p := if task.add then p.registerForwardedSub task.name task.subId
          else p.removeForwardedSub task.name task.subId
        { s with node := { s.node with peerSync := p }, peers := .sending conns 0 }
  | .sending (c :: todo) sent =>
    match s.node.sendMsg task.peerMessage c with
    | .ok _ => { s with peers := .sending todo (sent + 1), toAck := s.toAck ++ [(.peers, c)] }
    | .error _ => { s with peers := .sending todo sent }
  | .sending [] sent =>
    if sent = 0 then { s with peers := .done }
    else { s.registerAck task .peers sent with peers := .waiting }
  | .waiting =>
    match s.rx .peers with
    | .resolved _ | .dropped => { s with peers := .done }
    | _ => s
  | .done => s

/-- Track a forwarded subscription for a reconnect. -/
def track (n : Node) (out : ConnId) : Node :=
  match task.msg.tryGetSlimHeader with
  | some ⟨some source, some name, identity, _, _, _, _, _, _⟩ =>
    { n with remoteSync :=
        n.remoteSync.onForwardedSubscription ⟨source, name, identity, task.subId⟩ out task.add }
  | _ => n

def stepConn (s : ForwardRun) : ForwardRun :=
  match s.conn with
  | .start =>
    match task.targets.forwardConn with
    | none => { s with conn := .done (.ok ()) }
    | some out => { s.registerAck task .conn 1 with conn := .registered out }
  | .registered out =>
    match s.node.sendMsg task.msg out with
    | .ok _ =>
      { s with
        node := track task s.node out
        conn := .waiting
        toAck := s.toAck ++ [(.conn, out)] }
    | .error e =>
      -- the half ends, and its receiving end with it
      let s := s.removeAck task
      { s with conn := .done (.error e), rx := Function.update s.rx .conn .idle }
  | .waiting =>
    match s.rx .conn with
    | .resolved r => { s.removeAck task with conn := .done r }
    | .dropped => { s.removeAck task with conn := .done (.error (.RemoteSubscriptionAckTimeout 0)) }
    | _ => s
  | .done _ => s

/-- The node processes an acknowledgement; the wait it completes, if any, is the registered one. -/
def receiveAck (s : ForwardRun) (recipient : Half × ConnId) (success : Bool)
    (error : String) : ForwardRun :=
  let result := if success then .ok () else .error (.RemoteSubscriptionAckError error)
  let category := ((s.node.getConnection recipient.2).map Connection.connectionType).getD .Remote
  let resolved := (s.node.peerSync.resolveAck task.subId result).1
  let s := { s with
    node := (s.node.handleNewMessage recipient.2 category
      (buildSubscriptionAck task.subId success error)).node
    toAck := s.toAck.erase recipient
    connAck := if recipient.1 = Half.conn then some success else s.connAck }
  match resolved, s.owner with
  | some r, some h => { s with rx := Function.update s.rx h (.resolved r), owner := none }
  | _, _ => s

def step (task : ForwardTask) (s : ForwardRun) : Action → ForwardRun
  | .peers => s.stepPeers task
  | .conn => s.stepConn task
  | .ack recipient success error =>
    if recipient ∈ s.toAck then s.receiveAck task recipient success error else s
  | .finish =>
    match s.peers, s.conn with
    | .done, .done r =>
      if task.upstreamSubscriptionId.isSome then { s with upstream := some r.isOk } else s
    | _, _ => s

/-- The client hears what the forward connection said: only its own acknowledgement completes its
wait, and no registration or removal drops a wait. -/
structure AckRight (s : ForwardRun) : Prop where
  upstream : ∀ u b, s.upstream = some u → s.connAck = some b → u = b
  own : ∀ r, s.rx .conn = .resolved r → s.connAck = some r.isOk
  kept : ∀ h, s.rx h ≠ .dropped

/-- One half at most has something to wait for: there is no forward connection, or no peer the
message can be sent to. -/
def Alone (n : Node) (task : ForwardTask) : Prop :=
  task.targets.forwardConn = none ∨ ∀ target ∈ task.targets.peers, ∀ c ∈ n.targetConns target,
    (n.sendMsg task.peerMessage c).isOk = false

end ForwardRun

end Slim
