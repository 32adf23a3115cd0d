import Slim.Forwarder
import Slim.Tables.Pool

/-!
# Pinning a default gateway

Runs of the forwarder's connections and its default gateway. The pool hands out the ids of the
connection table; each connection that is established has a number of its own, so that `pool` tells
which connection is stored under an id, and `pinned` notes the one that was there when the gateway
was set.
-/

namespace Slim

structure PinnedGateway where
  forwarder : Forwarder := {}
  pool : Pool Nat := {}
  /-- The number of the next connection. -/
  next : Nat := 0
  /-- The id that is pinned and the connection that was stored there. -/
  pinned : Option (ConnId × Nat) := none

namespace PinnedGateway

inductive Action
  | establish (connection : Connection)
  | drop (conn : ConnId) (category : ConnType)
  | set (conn : ConnId)
  | clear
  | setEnabled (enabled : Bool)
  | changeType (conn : ConnId) (ct : ConnType)
  | resolve

section
variable (calculateHash : String → UInt64)

def step (s : PinnedGateway) : Action → PinnedGateway
  | .establish connection =>
    match s.pool.insert s.next with
    | none => s
    | some (id, pool) =>
      { s with
        forwarder := s.forwarder.onConnectionEstablished connection id
        pool
        next := s.next + 1 }
  | .drop conn category =>
    { s with
      forwarder := (s.forwarder.onConnectionDrop calculateHash conn category).2
      pool := (s.pool.remove conn).2 }
  | .set conn =>
    match s.forwarder.setDefaultGateway conn with
    | (.ok (), forwarder) =>
      { s with forwarder, pinned := (s.pool.get conn).map fun n => (conn, n) }
    | (.error _, forwarder) => { s with forwarder }
  | .clear => { s with forwarder := s.forwarder.clearDefaultGateway, pinned := none }
  | .setEnabled enabled => { s with forwarder := s.forwarder.setDefaultGatewayEnabled enabled }
  | .changeType conn ct => { s with forwarder := s.forwarder.setConnectionType conn ct }
  | .resolve => { s with forwarder := s.forwarder.resolveDefaultGateway.2 }

end

/-- An explicit gateway is the connection that was pinned; when that is gone there is none. -/
structure PinHolds (s : PinnedGateway) : Prop where
  explicit : ∀ id, s.forwarder.resolveDefaultGateway.1 = .Some id .Explicit →
    ∃ n, s.pinned = some (id, n) ∧ s.pool.get id = some n
  gone : ∀ id n, s.pinned = some (id, n) → s.pool.get id ≠ some n →
    s.forwarder.resolveDefaultGateway.1 = .Empty

/-- A connection is not established in the slot that the pinned one has left. -/
def NotReused (s : PinnedGateway) : Action → Prop
  | .establish _ => ∀ id ∈ s.forwarder.defaultGateway.explicit, s.pool.nextFree ≠ some id
  | _ => True

instance (s : PinnedGateway) : (a : Action) → Decidable (s.NotReused a)
  | .establish _ => s.forwarder.defaultGateway.explicit.decidableForallMem
  | .drop .. | .set _ | .clear | .setEnabled _ | .changeType .. | .resolve => .isTrue trivial

end PinnedGateway

end Slim
