import Slim.Proof.Node

/-!
# Two peers joined by a link

A node `a` with local applications and its peer `b`. Applications subscribe and unsubscribe at `a`;
each message is processed and, where it changes the local state of its name, forwarded at once on
the link; `b` processes what arrives, in order. Acknowledgements only end the waits of forwarding
tasks and are not sent back.

`opened` is a history variable: for the prefix and id of a name, the subscription that last took it
from no local subscription to one.
-/

namespace Slim

namespace Node

/-- A spawned task is run up to its waits; other effects are kept. -/
def settleStep (s : Node × List Effect) : Effect → Node × List Effect
  | .spawn task => ((s.1.startForward task).1, s.2 ++ (s.1.startForward task).2)
  | e => (s.1, s.2 ++ [e])

/-- A handler's output with its spawned tasks run up to their waits. -/
def settle (out : Out) : Node × List Effect := out.effects.foldl settleStep (out.node, [])

def subscribed (n : Node) (q : Prefix × BitVec 128) : Bool :=
  n.table.state.subscriptions.keys.any fun k => k.encoded.route == q

end Node

def sentTo (conn : ConnId) (effects : List Effect) : List Message :=
  effects.filterMap fun
    | .send c m => if c = conn then some m else none
    | _ => none

/-- A local application's (un)subscription. -/
structure LocalMsg where
  conn : ConnId
  add : Bool
  source : ProtoName
  dst : ProtoName
  identity : String
  subId : SubId

namespace LocalMsg

def message (m : LocalMsg) : Message :=
  if m.add then buildSubscribe m.source m.dst m.identity {} m.subId
  else buildUnsubscribe m.source m.dst m.identity {} m.subId

end LocalMsg

structure PeerLink where
  a : Node
  b : Node
  /-- Messages on their way from `a` to `b`, oldest first. -/
  link : List Message
  opened : Prefix × BitVec 128 → Option (SubId × EncodedName)

namespace PeerLink

inductive Action
  | app (m : LocalMsg)
  | deliver

def init (a b : Node) : PeerLink := ⟨a, b, [], fun _ => none⟩

def deliverTo (connA : ConnId) (b : Node) (m : Message) : Node :=
  (Node.settle (b.handleNewMessage connA .Peer m)).1

/-- The history variable after `m` turned `s.a` into `a`. -/
def noteOpened (s : PeerLink) (m : LocalMsg) (a : Node) (q : Prefix × BitVec 128) :
    Option (SubId × EncodedName) :=
  match m.dst.name with
  | some e =>
    if m.add ∧ q = e.route ∧ ¬ s.a.subscribed q ∧ a.subscribed q then some (m.subId, e)
    else s.opened q
  | none => s.opened q

/-- `a` processes one message of a local application. -/
def appStep (connB : ConnId) (s : PeerLink) (m : LocalMsg) : PeerLink :=
  let (a, effects) := Node.settle (s.a.handleNewMessage m.conn .Local m.message)
  { s with a, link := s.link ++ sentTo connB effects, opened := s.noteOpened m a }

/-- One step; only local connections carry application messages. `connB` is the link at `a`,
`connA` the link at `b`. -/
def step (connB connA : ConnId) (s : PeerLink) : Action → PeerLink
  | .app m =>
    match s.a.getConnection m.conn with
    | some c => if c.connectionType = .Local then s.appStep connB m else s
    | none => s
  | .deliver =>
    match s.link with
    | [] => s
    | m :: rest => { s with b := deliverTo connA s.b m, link := rest }

/-- Two nodes with no subscriptions, each the only peer of the other. A node's TTL is `2` in a full
mesh and `DEFAULT_TTL` otherwise. -/
structure Joined (a b : Node) (connB connA : ConnId) : Prop where
  upB : a.Up connB .Peer
  upA : b.Up connA .Peer
  peersA : a.peerSync.peerConns = [connB]
  peersB : b.peerSync.peerConns = [connA]
  ttl : 2 ≤ a.peerSync.subscriptionTtl
  runningA : a.running = true
  runningB : b.running = true
  tableA : a.table = SubscriptionTable.empty
  tableB : b.table = SubscriptionTable.empty
  seenA : a.peerSync.seenSubIds = []
  seenB : b.peerSync.seenSubIds = []

/-- An unsubscription of a record `a` holds leaves its connection no records of the name in other
encodings only, and if it is the last of the name, it is for the subscription that opened it. -/
def Action.ClosesAsOpened (s : PeerLink) : Action → Prop
  | .deliver => True
  | .app m => ∀ e, m.add = false → m.dst.name = some e → s.a.table.Holds ⟨m.conn, m.subId, e⟩ →
    s.a.table.KeepsEncoding ⟨m.conn, m.subId, e⟩ ∧
      ((∀ k, s.a.table.Holds k → k.encoded.route = e.route → k = ⟨m.conn, m.subId, e⟩) →
        s.opened e.route = some (m.subId, e))

instance (s : PeerLink) : (x : Action) → Decidable (x.ClosesAsOpened s)
  | .deliver => .isTrue trivial
  | .app m => decidable_of_iff (m.add = false → ∀ e ∈ m.dst.name,
      s.a.table.Holds ⟨m.conn, m.subId, e⟩ → s.a.table.KeepsEncoding ⟨m.conn, m.subId, e⟩ ∧
        ((∀ k, s.a.table.Holds k → k.encoded.route = e.route → k = ⟨m.conn, m.subId, e⟩) →
          s.opened e.route = some (m.subId, e)))
    ⟨fun h e hadd he => h hadd e he, fun h hadd e he => h e hadd he⟩

/-- `b` has a route for the name of `e` to the link with `a`. -/
def PeerRoutes (connA : ConnId) (s : PeerLink) (e : EncodedName) : Prop :=
  ∃ ct, s.b.table.routing.Lists e.route ct connA

/-- A local connection of `a` has a subscription for the name of `e`. -/
def LocallySubscribed (s : PeerLink) (e : EncodedName) : Prop :=
  ∃ k, s.a.table.Holds k ∧ k.encoded.route = e.route ∧
    ∃ c, s.a.getConnection k.connId = some c ∧ c.connectionType = .Local

end PeerLink

end Slim
