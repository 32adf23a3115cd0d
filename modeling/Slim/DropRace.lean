import Slim.Tables.Pool
import Slim.Tables.Proof.SubscriptionTable

/-!
# A connection is dropped while another one is established

`on_connection_drop` takes the connection out of the connection table and then its subscriptions out
of the subscription table. In between the pool may hand out the id again, and the new connection may
subscribe. `old` is the connection that drops, under the category `category`; `acked` notes the
subscriptions of the new connection that were accepted.
-/

namespace Slim

inductive DropPhase
  | present
  | removed
  | done
  deriving DecidableEq, Repr

structure DropRace where
  conns : Pool ConnType
  table : SubscriptionTable
  phase : DropPhase := .present
  new : Option (ConnId × ConnType) := none
  acked : List (EncodedName × SubId) := []

namespace DropRace

inductive Action
  /-- `connection_table.remove`. -/
  | removeConnection
  /-- `subscription_table.remove_connection`. -/
  | removeSubscriptions
  | establish (ct : ConnType)
  | subscribe (name : ProtoName) (subId : SubId)

section
variable (calculateHash : String → UInt64) (old : ConnId) (category : ConnType)

def step (s : DropRace) : Action → DropRace
  | .removeConnection =>
    match s.phase with
    | .present => { s with conns := (s.conns.remove old).2, phase := .removed }
    | _ => s
  | .removeSubscriptions =>
    match s.phase with
    | .removed =>
      { s with table := (s.table.removeConnection calculateHash old category).2, phase := .done }
    | _ => s
  | .establish ct =>
    match s.new, s.conns.insert ct with
    | none, some (id, conns) => { s with conns, new := some (id, ct) }
    | _, _ => s
  | .subscribe name subId =>
    match s.new with
    | none => s
    | some (id, ct) =>
      match s.table.addSubscription name id ct subId, name.name with
      | (.ok _, table), some e => { s with table, acked := s.acked ++ [(e, subId)] }
      | (_, table), _ => { s with table }

end

/-- What was accepted from the new connection is recorded and routed, and what is matched to the old
connection's id is a subscription of the new one. -/
structure Kept (old : ConnId) (s : DropRace) : Prop where
  acked : ∀ id ct, s.new = some (id, ct) → ∀ x ∈ s.acked,
    s.table.Holds ⟨id, x.2, x.1⟩ ∧ s.table.routing.Lists x.1.route ct id
  matched : ∀ e incoming filter, old ∈ s.table.candidates e incoming filter →
    (∃ ct, s.new = some (old, ct)) ∧ ∃ x ∈ s.acked, SubscriptionTable.EncodedMatches e x.1.route

/-- The new connection does not subscribe while its id is half dropped. -/
def NotBetween (old : ConnId) (s : DropRace) : Action → Prop
  | .subscribe _ _ => ∀ x ∈ s.new, x.1 = old → s.phase = .done
  | _ => True

instance (old : ConnId) (s : DropRace) : (a : Action) → Decidable (s.NotBetween old a)
  | .subscribe _ _ => inferInstanceAs (Decidable (∀ x ∈ s.new, x.1 = old → s.phase = .done))
  | .removeConnection | .removeSubscriptions | .establish _ => .isTrue trivial

/-- Before the drop: the table is that of connections that exist, each under its type. -/
structure Start (old : ConnId) (category : ConnType) (conns : Pool ConnType)
    (table : SubscriptionTable) : Prop where
  old : conns.get old = some category
  inv : table.Inv fun c => (conns.get c).getD .Local
  held : ∀ k, table.Holds k → (conns.get k.connId).isSome

end DropRace

end Slim
