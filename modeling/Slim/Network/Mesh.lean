import Mathlib.Combinatorics.SimpleGraph.Metric
import Slim.Network.PeerLink

/-!
# A mesh of peers

Nodes joined by reliable peer links, and what is under way between them: messages on links and
forwarding tasks. One subscription is made by a local application of one node; then messages are
delivered, spawned tasks are run up to their waits and waiting tasks end, in any order. How long a
task waits and with what result it ends is left open, so the acknowledgements that decide it are
delivered like other messages and decide nothing here.

`started` is a history variable: the tasks that have been run.
-/

namespace Slim

/-- Peer links: who is linked with whom, and the id of each link at its two ends. -/
structure Topology (V : Type) where
  nbrs : V → List V
  conn : V → V → ConnId
  symm : ∀ {u v}, v ∈ nbrs u → u ∈ nbrs v
  irrefl : ∀ u, u ∉ nbrs u
  inj : ∀ {u v w}, v ∈ nbrs u → w ∈ nbrs u → conn u v = conn u w → v = w

namespace Topology

variable {V : Type}

def graph (top : Topology V) : SimpleGraph V where
  Adj u v := v ∈ top.nbrs u
  symm := ⟨fun _ _ h => top.symm h⟩
  loopless := ⟨top.irrefl⟩

/-- The message an effect of `u` puts on a peer link, with its two ends. -/
def carried (top : Topology V) (u : V) : Effect → Option (V × V × Message)
  | .send c msg => ((top.nbrs u).find? fun v => top.conn u v = c).map fun v => (u, v, msg)
  | _ => none

end Topology

def taskOf {V : Type} (u : V) : Effect → Option (V × ForwardTask)
  | .spawn task => some (u, task)
  | _ => none

structure Mesh (V : Type) where
  node : V → Node
  /-- Sender, receiver and message. -/
  inflight : List (V × V × Message) := []
  /-- Spawned tasks that have not run. -/
  spawned : List (V × ForwardTask) := []
  waiting : List (V × ForwardTask) := []
  started : List (V × ForwardTask) := []

namespace Mesh

variable {V : Type} [DecidableEq V]

inductive Action
  | deliver (i : Nat)
  | start (i : Nat)
  /-- A task is through with its wait, which may have run into its timeout. -/
  | finish (i : Nat) (result : Except DataPathError Unit) (timeout : Bool)

/-- Node `u` has become `n` and had the given effects. -/
def after (top : Topology V) (s : Mesh V) (u : V) (n : Node) (effects : List Effect) : Mesh V :=
  { s with
    node := Function.update s.node u n
    inflight := s.inflight ++ effects.filterMap (top.carried u)
    spawned := s.spawned ++ effects.filterMap (taskOf u) }

def step (top : Topology V) (s : Mesh V) : Action → Mesh V
  | .deliver i =>
    match s.inflight[i]? with
    | none => s
    | some (u, v, msg) =>
      let out := (s.node v).handleNewMessage (top.conn v u) .Peer msg
      { s with inflight := s.inflight.eraseIdx i }.after top v out.node out.effects
  | .start i =>
    match s.spawned[i]? with
    | none => s
    | some (v, task) =>
      let (n, effects) := (s.node v).startForward task
      { s with
        spawned := s.spawned.eraseIdx i
        waiting := s.waiting ++ [(v, task)]
        started := (v, task) :: s.started }.after top v n effects
  | .finish i result timeout =>
    match s.waiting[i]? with
    | none => s
    | some (v, task) =>
      let n := s.node v
      let n := if timeout then { n with peerSync := n.peerSync.removeAck task.subId } else n
      { s with waiting := s.waiting.eraseIdx i }.after top v n (n.ackUpstream task result)

/-- A local application of `o` has made a subscription. -/
def init (top : Topology V) (nodes : V → Node) (o : V) (m : LocalMsg) : Mesh V :=
  let out := (nodes o).handleNewMessage m.conn .Local m.message
  ({ node := nodes } : Mesh V).after top o out.node out.effects

def Done (s : Mesh V) : Prop := s.inflight = [] ∧ s.spawned = [] ∧ s.waiting = []

instance (s : Mesh V) : Decidable s.Done := inferInstanceAs (Decidable (_ ∧ _ ∧ _))

/-- Nodes without subscriptions, with the TTL `ttl` and their links up. -/
structure Quiet (top : Topology V) (nodes : V → Node) (ttl : Nat) : Prop where
  up : ∀ v, ∀ u ∈ top.nbrs v, (nodes v).Up (top.conn v u) .Peer
  peers : ∀ v, (nodes v).peerSync.peerConns = (top.nbrs v).map (top.conn v)
  ttl : ∀ v, (nodes v).peerSync.subscriptionTtl = ttl
  running : ∀ v, (nodes v).running = true
  table : ∀ v, (nodes v).table = SubscriptionTable.empty
  seen : ∀ v, (nodes v).peerSync.seenSubIds = []

/-- A subscription with an id, for a readable name, on a local connection of the node. -/
structure Subscribes (n : Node) (m : LocalMsg) (e : EncodedName) : Prop where
  add : m.add = true
  subId : m.subId ≠ 0
  source : m.source.name.isSome
  name : m.dst.name = some e
  readable : m.dst.strName.isSome
  isLocal : ∃ c, n.getConnection m.conn = some c ∧ c.connectionType = .Local

/-- `v` has a route for the name of `e` to its link with `u`. -/
def RoutesTo (top : Topology V) (e : EncodedName) (s : Mesh V) (v u : V) : Prop :=
  u ∈ top.nbrs v ∧ ∃ ct, (s.node v).table.routing.Lists e.route ct (top.conn v u)

/-- Delivering a subscription to a node that drops it, having forwarded it already, when two hops or
more are left: some task of the node, run or not, has at least as many. -/
def Action.DropKeepsTtl (s : Mesh V) : Action → Prop
  | .deliver i => ∀ x ∈ s.inflight[i]?, ∀ y ∈ x.2.2.asSubscription,
    (s.node x.2.1).peerSync.hasSeenSubId y.2.2 = true → 2 ≤ y.2.1.ttl - 1 →
      ∃ k ∈ s.spawned ++ s.started, k.1 = x.2.1 ∧ y.2.1.ttl - 1 ≤ k.2.peerTtl
  | _ => True

instance (s : Mesh V) : (a : Action) → Decidable (a.DropKeepsTtl s)
  | .deliver i => inferInstanceAs (Decidable (∀ x ∈ s.inflight[i]?, _))
  | .start _ => .isTrue trivial
  | .finish .. => .isTrue trivial

end Mesh

end Slim
