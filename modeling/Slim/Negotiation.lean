import Slim.MessageProcessing

/-!
# Link negotiation

What `negotiate_and_register` does with the outcome of the handshake. The handshake itself
(versions, key agreement) is not part of this module: `NegotiationResult` is what the remote side
announced, and a handshake that fails registers nothing.
-/

namespace Slim

structure NegotiationResult where
  connectionType : ConnType
  remoteNodeId : String
  remoteDeploymentName : String
  deriving DecidableEq, Repr

namespace NegotiationResult

/-- An announced type other than peer and edge, or none, reads as remote. -/
def ofPayload (p : LinkNegotiationPayload) : NegotiationResult where
  connectionType :=
    match p.connectionType with
    | some .Peer => .Peer
    | some .Edge => .Edge
    | _ => .Remote
  remoteNodeId := p.nodeId
  remoteDeploymentName := p.deploymentName

end NegotiationResult

namespace Node

/-- A connection from the node itself, or from another deployment, is not upgraded to a peer: the
remote side gets a status and the stream is cancelled, if it can be. The node runs without
discovery. -/
def handlePeerUpgrade (n : Node) (remoteNodeId remoteDeploymentName : String)
    (inConnection : ConnId) : Node × List Effect :=
  if remoteNodeId = n.serviceId then
    (n, [.status inConnection "self-connection rejected: same node_id"])
  else if n.deploymentName ≠ "" ∧ remoteDeploymentName ≠ n.deploymentName then
    (n, [.status inConnection "deployment_name mismatch"])
  else
    ({ n with
        forwarder := n.forwarder.setConnectionType inConnection .Peer
        peerSync := (n.peerSync.onIncomingPeer none remoteNodeId inConnection).2 }, [])

/-- The notification of an incoming remote link. -/
def remoteLinkMsg (linkId : String) : Message where
  messageType := some (.link (some
    { linkId
      slimVersion := ""
      isReply := false
      linkEcdhPublicKey := []
      connectionType := some .Remote
      nodeId := ""
      deploymentName := ""
      linkKemPayload := none }))

/-- `negotiate_and_register` after a successful handshake: the connection enters the table at `idx`,
then its type is settled. Returns the category its stream runs with. -/
def negotiateAndRegister (n : Node) (connection : Connection) (idx : ConnId)
    (result : NegotiationResult) : ConnType × Node × List Effect :=
  let n := { n with forwarder := n.forwarder.onConnectionEstablished connection idx }
  match result.connectionType with
  | .Peer =>
    let (n, effects) := n.handlePeerUpgrade result.remoteNodeId result.remoteDeploymentName idx
    (.Peer, n, effects)
  | .Remote =>
    (.Remote, n, if n.controlPlane then [.controlPlane (remoteLinkMsg (connection.linkId.getD ""))]
      else [])
  | .Edge => (.Edge, { n with forwarder := n.forwarder.setConnectionType idx .Edge }, [])
  | other => (other, n, [])

end Node

end Slim
