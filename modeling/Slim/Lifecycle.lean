import Slim.Negotiation

/-!
# The streams of a node

A node with the streams of its connections: remote connections are negotiated, local ones are
registered, each stream brings messages in and ends. `trace` collects what the node hands to the
outside.

A connection id is handed out when no connection has it; a dialled connection that is lost may be
negotiated again at its id. Forwarding tasks and acknowledgements change the peer state at any time
(`Action.forwarding`): its content is left open.
-/

namespace Slim

structure Lifecycle where
  node : Node
  streams : AList fun _ : ConnId => Stream := ∅
  trace : List Effect := []

namespace Lifecycle

inductive Action
  | establish (id : ConnId) (connection : Connection) (result : NegotiationResult)
  | registerLocal (id : ConnId) (fromControlPlane : Bool)
  | message (id : ConnId) (msg : Message)
  | close (id : ConnId)
  | forwarding (peerSync : PeerSync)

def Free (s : Lifecycle) (id : ConnId) : Prop :=
  id ∉ s.node.forwarder.connectionTable ∧ id ∉ s.streams

instance (s : Lifecycle) (id : ConnId) :
    Decidable (s.Free id) := inferInstanceAs (Decidable (_ ∧ _))

/-- The id is that of a connection that was dialled, and is dialled again when it is lost. -/
def CanReconnect (s : Lifecycle) (id : ConnId) : Prop :=
  (∃ st ∈ s.streams.lookup id, st.category ≠ .Remote) ∧
    ∃ c ∈ s.node.getConnection id, c.isServer = false

instance (s : Lifecycle) (id : ConnId) : Decidable (s.CanReconnect id) :=
  inferInstanceAs (Decidable ((∃ st ∈ s.streams.lookup id, st.category ≠ .Remote) ∧
    ∃ c ∈ s.node.getConnection id, c.isServer = false))

section
variable (calculateHash : String → UInt64)

def step (s : Lifecycle) : Action → Lifecycle
  | .establish id connection result =>
    if s.Free id ∨ s.CanReconnect id then
      let (category, node, effects) := s.node.negotiateAndRegister connection id result
      { node
        streams := s.streams.insert id
          ⟨id, category, connection.connectionType.isLocal, false, s.node.controlPlane⟩
        trace := s.trace ++ effects }
    else s
  | .registerLocal id fromControlPlane =>
    if s.Free id then
      let node := { s.node with
        forwarder := s.node.forwarder.onConnectionEstablished { connectionType := .Local } id
        controlPlane := s.node.controlPlane || fromControlPlane }
      { s with
        node
        streams := s.streams.insert id ⟨id, .Local, true, fromControlPlane, node.controlPlane⟩ }
    else s
  | .message id msg =>
    match s.streams.lookup id with
    | none => s
    | some st =>
      let out := s.node.receive st msg
      { s with node := out.node, trace := s.trace ++ out.effects }
  | .close id =>
    match s.streams.lookup id with
    | none => s
    | some st =>
      let (node, effects) := s.node.closeStream calculateHash st
      { node, streams := s.streams.erase id, trace := s.trace ++ effects }
  | .forwarding peerSync => { s with node := { s.node with peerSync } }

end

def init (n : Node) : Lifecycle :=
  { node := { n with forwarder := {} } }

end Lifecycle

end Slim
