import Mathlib.Data.String.Basic
import Slim.Sync
import Slim.Tables.Pool

/-!
# Peer discovery

`PeerState` and the handlers that change it: peers that link up (`on_incoming_peer`), peers that
discovery reports as joined or left (`handle_peer_joined`, `handle_peer_left`), and the end of a
link as `process_stream` performs it. A connection is in the pool while its stream runs; a
connection that is disconnected has its token cancelled, and the stream ends later.

A node that is dialled as `p` announces itself as `p`. A link that is turned away in the negotiation
(the node itself, another deployment) is not modelled.
-/

namespace Slim

structure PeerConn where
  nodeId : String
  isOutgoing : Bool
  /-- It has a cancellation token, which connections accepted over gRPC do not. -/
  hasToken : Bool
  cancelled : Bool := false
  deriving DecidableEq, Repr

structure PeerInfo where
  id : String
  endpoint : String
  deriving DecidableEq, Repr

structure Discovery where
  conns : Pool PeerConn := {}
  peerState : PeerState := {}
  peerConns : List ConnId := []

namespace Discovery

variable (s : Discovery)

def addPeerConn (conn : ConnId) : Discovery :=
  { s with peerConns := Vec.pushNew s.peerConns conn }

def removePeerConn (conn : ConnId) : Discovery :=
  { s with peerConns := s.peerConns.filter (· ≠ conn) }

def onIncomingPeer (nodeId : String) (conn : ConnId) : Discovery :=
  let (state, p) := PeerSync.onIncomingPeer { peerConns := s.peerConns } s.peerState nodeId conn
  { s with peerState := state.getD s.peerState, peerConns := p.peerConns }

/-- A connection is registered and upgraded to a peer, whichever side dialled it. -/
def register (conn : PeerConn) : Option (ConnId × Discovery) :=
  match s.conns.insert conn with
  | none => none
  | some (id, conns) => some (id, { s with conns }.onIncomingPeer conn.nodeId id)

/-- `disconnect` cancels the token of the connection, if it has one. -/
def disconnect (conn : ConnId) : Discovery :=
  { s with
    conns := s.conns.update conn fun c => if c.hasToken then { c with cancelled := true } else c }

def handlePeerJoined (selfId : String) (s : Discovery) (peer : PeerInfo) : Discovery :=
  if peer.id = selfId then s
  -- of two nodes the one with the smaller id dials
  else if ¬ selfId < peer.id then s
  else if s.peerState.contains peer.id then s
  else
    match s.register ⟨peer.id, true, true, false⟩ with
    | none => s
    | some (conn, s) =>
      { s with peerState := s.peerState.insert peer.id ⟨conn, peer.endpoint, true⟩ }.addPeerConn
        conn

def handlePeerLeft (peerId : String) : Discovery :=
  match s.peerState.remove peerId with
  | (none, _) => s
  | (some entry, peerState) =>
    ({ s with peerState }.removePeerConn entry.connId).disconnect entry.connId

inductive Action
  /-- A peer dials this node. -/
  | incoming (nodeId : String) (hasToken : Bool)
  | joined (peer : PeerInfo)
  | left (peerId : String)
  /-- A stream ends and its connection leaves the tables. -/
  | drop (conn : ConnId)
  /-- A lost connection that this node had dialled is dialled again, and keeps its id. -/
  | reconnect (conn : ConnId)
  deriving DecidableEq

section
variable (selfId : String)

def step (s : Discovery) : Action → Discovery
  | .incoming nodeId hasToken =>
    match s.register ⟨nodeId, false, hasToken, false⟩ with
    | none => s
    | some (_, s) => s
  | .joined peer => handlePeerJoined selfId s peer
  | .left peerId => s.handlePeerLeft peerId
  | .drop conn =>
    match s.conns.get conn with
    | none => s
    | some _ => { s with conns := (s.conns.remove conn).2 }.removePeerConn conn
  | .reconnect conn =>
    match s.conns.get conn with
    | none => s
    | some c =>
      if c.isOutgoing ∧ ¬ c.cancelled then
        { s with conns := s.conns.insertAt c conn }.onIncomingPeer c.nodeId conn
      else s

end

/-- The accepted connections that have not been cancelled are those to the peers. -/
def LiveTracked : Prop :=
  ∀ c k, s.conns.get c = some k → k.isOutgoing = false → k.cancelled = false → c ∈ s.peerConns

/-- The two maps are inverse. -/
def Inverse (s : PeerState) : Prop :=
  ∀ p c, (∃ entry ∈ s.peers.lookup p, entry.connId = c) ↔ s.connToPeer.lookup c = some p

/-- The connection that would be removed and disconnected if `p` left is one with `p`. -/
def LeavesAlone : Prop :=
  ∀ p entry, s.peerState.peers.lookup p = some entry →
    ∀ k, s.conns.get entry.connId = some k → k.nodeId = p

structure Tracks (s : Discovery) : Prop where
  live : s.LiveTracked
  inverse : Inverse s.peerState
  left : s.LeavesAlone

/-- Links come up once, end after discovery has reported their peer as left, and can be cancelled
then. -/
def InOrder (s : Discovery) : Action → Prop
  | .incoming nodeId _ => s.peerState.contains nodeId = false
  | .drop conn => s.peerState.connToPeer.lookup conn = none
  | .left peerId => ∀ entry ∈ s.peerState.peers.lookup peerId,
    ∀ k ∈ s.conns.get entry.connId, k.isOutgoing = true ∨ k.hasToken = true
  | .joined _ | .reconnect _ => True

instance (s : Discovery) : (a : Action) → Decidable (s.InOrder a)
  | .incoming nodeId _ => inferInstanceAs (Decidable (s.peerState.contains nodeId = false))
  | .drop conn => inferInstanceAs (Decidable (s.peerState.connToPeer.lookup conn = none))
  | .left peerId => inferInstanceAs (Decidable (∀ entry ∈ s.peerState.peers.lookup peerId, _))
  | .joined _ | .reconnect _ => .isTrue trivial

end Discovery

end Slim
