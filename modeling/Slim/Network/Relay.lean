import Slim.Proof.Lifecycle

/-!
# A relay and its peers

One node in a standalone topology and the peers that link up with it. A peer subscribes names; the
node files and relays them. When a link drops, the cleanup of its stream runs; the peer may link up
again, on a new connection, and send its subscriptions once more, under the same ids.

The forwarding tasks and full syncs that are spawned run when they are scheduled. The cleanup of a
stream runs to its end before the peer is back. Noted beside the node: the subscriptions that were
filed on the links of today (`subs`), those of dropped links that have yet to be sent again
(`pending`), and those that have been (`resent`).
-/

namespace Slim

structure PeerSub where
  name : ProtoName
  id : SubId
  encoded : name.name.isSome
  readable : name.strName.isSome
  id_ne : id ≠ 0
  deriving DecidableEq

namespace Node

section
variable (calculateHash : String → UInt64)

/-- What `collect_subscriptions` may return: the names of the records of other connections, each
once and with the id of one of its records (which one depends on the iteration order). -/
def Collects (n : Node) (exclude : ConnId) (subscriptions : List (ProtoName × SubId)) : Prop :=
  let records := (n.table.forEachSubscription calculateHash).filter fun r =>
    n.peerSync.syncFilter.includes r.2.2.2 ∧ r.2.2.1 ≠ exclude
  (subscriptions.map Prod.fst).Nodup ∧
    (∀ x ∈ subscriptions, ∃ r ∈ records, r.1 = x.1 ∧ r.2.1 = x.2) ∧
    ∀ r ∈ records, r.1 ∈ subscriptions.map Prod.fst

instance (n : Node) (exclude : ConnId) (subscriptions : List (ProtoName × SubId)) :
    Decidable (n.Collects calculateHash exclude subscriptions) :=
  inferInstanceAs (Decidable (_ ∧ _ ∧ _))

/-- The full sync of a peer connection. The ids count as forwarded if all of it went out. -/
def fullSync (n : Node) (conn : ConnId) (subscriptions : List (ProtoName × SubId)) : Node :=
  if ∀ x ∈ subscriptions,
      (n.sendMsg (buildSubscribeMsg x.1 x.2 n.peerSync.subscriptionTtl) conn).isOk then
    { n with
      peerSync := subscriptions.foldl (fun p x => p.registerForwardedSub x.1 x.2) n.peerSync }
  else n

/-- The cleanup after the stream takes `id` out of the seen ids: it is the one forwarded for a name
of the connection that no other connection matches, and a peer is left to be told. -/
def Forgets (n : Node) (st : Stream) (id : SubId) : Prop :=
  let drop := n.forwarder.onConnectionDrop calculateHash st.connIndex st.category
  (n.peerSync.removePeerConn st.connIndex).peerConns ≠ [] ∧
    ∃ name ∈ drop.1.keys, n.peerSync.forwardedSubForName.lookup name = some id ∧
      ∀ e ∈ name.name, (drop.2.subscriptionTable.matchAll e (UInt64.ofNat (2 ^ 64 - 1)) .ALL).isOk =
        false

instance (n : Node) (st : Stream) (id : SubId) : Decidable (n.Forgets calculateHash st id) :=
  inferInstanceAs (Decidable (_ ∧ ∃ name ∈ _, _ ∧ _))

end

end Node

structure Relay (P : Type) where
  node : Node
  link : P → Option ConnId := fun _ => none
  tasks : List ForwardTask := []
  syncs : List ConnId := []
  subs : List (P × PeerSub) := []
  pending : List (P × PeerSub) := []
  resent : List (P × PeerSub) := []

namespace Relay

variable {P : Type} [DecidableEq P]

inductive Action (P : Type)
  | connect (p : P) (id : ConnId) (connection : Connection) (result : NegotiationResult)
  | subscribe (p : P) (sub : PeerSub) (ttl : Nat)
  | ack (p : P) (ack : SubscriptionAck)
  | start (i : Nat)
  | sync (conn : ConnId) (subscriptions : List (ProtoName × SubId))
  | drop (p : P)

def init (n : Node) : Relay P := { node := n }

def spawned (es : List Effect) : List ForwardTask :=
  es.filterMap fun
    | .spawn task => some task
    | _ => none

def stream (n : Node) (conn : ConnId) : Stream := ⟨conn, .Peer, false, false, n.controlPlane⟩

section
variable (calculateHash : String → UInt64)

def step (s : Relay P) : Action P → Relay P
  | .connect p id connection result =>
    if s.link p = none ∧ id ∉ s.node.forwarder.connectionTable ∧ result.connectionType = .Peer ∧
        s.node.AcceptsPeer result then
      { s with
        node := (s.node.negotiateAndRegister connection id result).2.1
        link := Function.update s.link p (some id)
        syncs := s.syncs ++ [id] }
    else s
  | .subscribe p sub ttl =>
    match s.link p with
    | none => s
    | some c =>
      let out := s.node.handleNewMessage c .Peer (buildSubscribeMsg sub.name sub.id ttl)
      let s' := { s with node := out.node, tasks := s.tasks ++ spawned out.effects }
      -- with its last hop used up the message is dropped unread
      if ttl < 2 then s'
      else
        let s' := if s.node.peerSync.hasSeenSubId sub.id then s'
          else { s' with subs := s'.subs ++ [(p, sub)] }
        if (p, sub) ∈ s.pending then
          { s' with
            pending := s.pending.filter (· ≠ (p, sub))
            resent := s.resent ++ [(p, sub)] }
        else s'
  | .ack p ack =>
    match s.link p with
    | none => s
    | some c =>
      { s with node :=
          (s.node.handleNewMessage c .Peer { messageType := some (.subscriptionAck ack) }).node }
  | .start i =>
    match s.tasks[i]? with
    | none => s
    | some task => { s with node := (s.node.startForward task).1, tasks := s.tasks.eraseIdx i }
  | .sync conn subscriptions =>
    if conn ∈ s.syncs ∧ s.node.Collects calculateHash conn subscriptions then
      { s with node := s.node.fullSync conn subscriptions, syncs := s.syncs.erase conn }
    else s
  | .drop p =>
    match s.link p with
    | none => s
    | some c =>
      { s with
        node := (s.node.closeStream calculateHash (stream s.node c)).1
        link := Function.update s.link p none
        subs := s.subs.filter (·.1 ≠ p)
        pending := s.pending ++ s.subs.filter (·.1 = p)
        resent := s.resent.filter (·.1 ≠ p) }

/-- What was sent again on a link that is up is routed to it. -/
def RoutedAgain (s : Relay P) : Prop :=
  ∀ p sub, (p, sub) ∈ s.resent → ∀ c, s.link p = some c →
    ∃ e, sub.name.name = some e ∧ s.node.table.routing.Lists e.route .Peer c

/-- The id of a subscription that is to be sent again is not seen meanwhile: the drop forgets it if
it was, and nothing that is forwarded before has that id. -/
def Forgotten (s : Relay P) : Action P → Prop
  | .drop p => ∀ c ∈ s.link p, ∀ x ∈ s.subs, x.1 = p → s.node.peerSync.hasSeenSubId x.2.id = true →
    s.node.Forgets calculateHash (stream s.node c) x.2.id
  | .start i => ∀ task ∈ s.tasks[i]?, task.add = true → ∀ x ∈ s.pending, x.2.id ≠ task.subId
  | .sync _ subscriptions => ∀ y ∈ subscriptions, ∀ x ∈ s.pending, x.2.id ≠ y.2
  | _ => True

instance (s : Relay P) : (a : Action P) → Decidable (s.Forgotten calculateHash a)
  | .drop p => (s.link p).decidableForallMem
  | .start i => inferInstanceAs (Decidable (∀ task ∈ s.tasks[i]?, _))
  | .sync _ subscriptions => inferInstanceAs (Decidable (∀ y ∈ subscriptions, _))
  | .connect .. | .subscribe .. | .ack .. => .isTrue trivial

end

end Relay

end Slim
