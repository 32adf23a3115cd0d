import Slim.Proof.Lifecycle

/-!
# The control plane's view of a node

The control plane learns names from the (un)subscriptions it is sent. `lastNotice` is what it was
told last about a name, identified by prefix and id; `Held` is what it should know: that a local,
remote or edge connection other than its own has a record of the name.

The notifications come from three places that do not look at each other: the transition of the local
slot, every (un)subscription of a remote or edge connection, every name of a remote connection that
is gone. `Action.KeepsView` says of each step when they add up; a message is one step, its
notification included.
-/

namespace Slim

/-! ## Notifications -/

namespace Effect

def toControlPlane : Effect → Option Message
  | .controlPlane msg => some msg
  | _ => none

end Effect

namespace Message

/-- What a message says about the name `q`: `true` for a Subscribe, `false` for an Unsubscribe. -/
def noticeOf (q : Prefix × BitVec 128) (msg : Message) : Option Bool :=
  match msg.asSubscription with
  | some (add, hdr, _) =>
    if (hdr.destination.bind ProtoName.name).map EncodedName.route = some q then some add else none
  | none => none

end Message

def notices (es : List Effect) : List Message := es.filterMap Effect.toControlPlane

def lastNotice (q : Prefix × BitVec 128) (es : List Effect) : Option Bool :=
  ((notices es).filterMap (Message.noticeOf q)).getLast?

namespace Lifecycle

/-! ## What is held -/

variable (s : Lifecycle)

def OwnedByControlPlane (c : ConnId) : Prop :=
  ∃ st ∈ s.streams.lookup c, st.fromControlPlane = true

/-- The connection is a local, remote or edge one and not the control plane's. -/
def Counts (c : ConnId) : Prop :=
  (∃ connection ∈ s.node.getConnection c, connection.connectionType ≠ .Peer) ∧
    ¬ s.OwnedByControlPlane c

/-- A connection that counts has a record of the name `q`. -/
def Held (q : Prefix × BitVec 128) : Prop :=
  ∃ k, s.node.table.Holds k ∧ s.Counts k.connId ∧ k.encoded.route = q

instance (s : Lifecycle) (c : ConnId) : Decidable (s.OwnedByControlPlane c) :=
  inferInstanceAs (Decidable (∃ st ∈ s.streams.lookup c, st.fromControlPlane = true))

instance (s : Lifecycle) (c : ConnId) : Decidable (s.Counts c) :=
  inferInstanceAs (Decidable (_ ∧ _))

instance (s : Lifecycle) (q : Prefix × BitVec 128) : Decidable (s.Held q) :=
  inferInstanceAs (Decidable (∃ k, s.node.table.Holds k ∧ s.Counts k.connId ∧ k.encoded.route = q))

/-! ## Steps that keep the view -/

/-- The message gets as far as the subscription table. -/
def Taken (n : Node) (ct : ConnType) (add : Bool) (hdr : SlimHeader) (subId : SubId) : Prop :=
  hdr.validateRouted = .ok () ∧ (ct.isLocal = false → 2 ≤ hdr.ttl) ∧
    ¬ (add = true ∧ subId ≠ 0 ∧ n.peerSync.hasSeenSubId subId = true)

/-- The notification a (un)subscription with the destination `dst`, encoded as `e`, gives rise to
agrees with the records it leaves. The connection has the type `ct`. -/
def NotifiesRight (ct : ConnType) (add : Bool) (hdr : SlimHeader) (dst : ProtoName)
    (e : EncodedName) (key : SubKey) : Prop :=
  match ct, add with
  | .Peer, _ | .Local, true => True
  -- the last local record goes: nothing else may hold the name
  | .Local, false => s.node.table.Holds key →
    ∀ k, s.node.table.Holds k → s.Counts k.connId → k.encoded.route = e.route → k ≠ key →
      ∃ k', s.node.table.Holds k' ∧ k'.encoded.route = e.route ∧ k' ≠ key ∧
        s.node.connType k'.connId = .Local
  -- announced before it is processed: it has to be accepted, or the name held already
  | _, true => s.Held e.route ∨ Taken s.node ct add hdr key.subId ∧
      (dst.strName.isSome ∨ (s.node.table.routing.lookup e.prefix3).isSome)
  -- withdrawn before it is processed: it has to take the only record away
  | _, false => ∀ k, s.node.table.Holds k → s.Counts k.connId → k.encoded.route = e.route →
      k = key ∧ Taken s.node ct add hdr key.subId

/-- A (un)subscription without `recv_from`, of a connection other than the control plane's. -/
def MessageKeepsView (st : Stream) (add : Bool) (hdr : SlimHeader) (subId : SubId) :
    Prop :=
  ∀ dst ∈ hdr.destination, ∀ e ∈ dst.name,
    s.node.controlPlane = true ∧ st.fromControlPlane = false ∧ hdr.recvFrom = none ∧
      (add = false → s.node.table.KeepsEncoding ⟨st.connIndex, subId, e⟩) ∧
      s.NotifiesRight st.category add hdr dst e ⟨st.connIndex, subId, e⟩

section
variable (calculateHash : String → UInt64)

/-- What the end of a stream asks of a record of its connection. A local stream withdraws nothing,
so another record has to stand for it; any other withdraws the name, so no other record may, and the
name is rebuilt from the strings of its prefix. -/
def DropKeepsView (st : Stream) (id : ConnId) (k : SubKey) : Prop :=
  if st.isLocal then
    ∃ k', s.node.table.Holds k' ∧ s.Counts k'.connId ∧ k'.connId ≠ id ∧
      k'.encoded.route = k.encoded.route
  else
    (∀ k', s.node.table.Holds k' → s.Counts k'.connId → k'.encoded.route = k.encoded.route →
      k'.connId = id) ∧
    ∀ pe ∈ s.node.table.routing.lookup k.encoded.prefix3,
      (calculateHash pe.strings.strComponent0, calculateHash pe.strings.strComponent1,
        calculateHash pe.strings.strComponent2) = k.encoded.prefix3

def Action.KeepsView (s : Lifecycle) : Action → Prop
  | .establish id connection result =>
    s.node.controlPlane = true ∧ connection.connectionType ≠ .Local ∧
      result.connectionType ≠ .Local ∧ (Action.establish id connection result).KeepsType s
  | .message id msg =>
    ∀ st ∈ s.streams.lookup id, ∀ x ∈ msg.asSubscription, s.MessageKeepsView st x.1 x.2.1 x.2.2
  | .close id =>
    ∀ st ∈ s.streams.lookup id, ∀ k, s.node.table.Holds k → k.connId = id →
      s.DropKeepsView calculateHash st id k
  | .registerLocal _ _ | .forwarding _ => True

instance (n : Node) (ct : ConnType) (add : Bool) (hdr : SlimHeader) (subId : SubId) :
    Decidable (Taken n ct add hdr subId) :=
  inferInstanceAs (Decidable (_ ∧ _ ∧ _))

instance (s : Lifecycle) (ct : ConnType) (add : Bool) (hdr : SlimHeader) (dst : ProtoName)
    (e : EncodedName) (key : SubKey) : Decidable (s.NotifiesRight ct add hdr dst e key) := by
  unfold NotifiesRight
  split <;> infer_instance

instance (s : Lifecycle) (st : Stream) (add : Bool) (hdr : SlimHeader) (subId : SubId) :
    Decidable (s.MessageKeepsView st add hdr subId) := by
  unfold MessageKeepsView
  infer_instance

instance (s : Lifecycle) (st : Stream) (id : ConnId) (k : SubKey) :
    Decidable (s.DropKeepsView calculateHash st id k) := by
  unfold DropKeepsView
  infer_instance

instance (s : Lifecycle) : DecidablePred (Action.KeepsView calculateHash s)
  | .establish _ _ _ => inferInstanceAs (Decidable (_ ∧ _ ∧ _ ∧ _))
  | .message id msg =>
      inferInstanceAs (Decidable (∀ st ∈ s.streams.lookup id, ∀ x ∈ msg.asSubscription,
      s.MessageKeepsView st x.1 x.2.1 x.2.2))
  | .close id => inferInstanceAs (Decidable (∀ st ∈ s.streams.lookup id, ∀ k, s.node.table.Holds k →
      k.connId = id → s.DropKeepsView calculateHash st id k))
  | .registerLocal _ _ | .forwarding _ => inferInstanceAs (Decidable True)

end

end Lifecycle

end Slim
