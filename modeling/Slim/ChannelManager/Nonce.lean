import Slim.Lib.Run
import Slim.Lib.Table

/-!
# Nonces of signed statements

A signed statement (a create request, a delete request or a grant) names a channel and a nonce, and
it may be used once, before it expires. `NonceStore` remembers the nonces that were used, in memory
and, if there is a store, on disk; a nonce is forgotten once its statement has expired.

`SpendSystem` is any number of concurrent calls of `GrantPolicy::spend` over one nonce store. A call
reads the clock, takes the lock of the nonces and drops those that have expired by its reading,
looks for its own nonce and writes it to the store, and puts it into memory; these are separate
steps, and the process may stop between any two of them. Records in the store are kept under a hash
of channel and nonce, which is taken to be injective.
-/

namespace Slim.ChannelManager

structure ConsumedNonce where
  channel : String
  nonce : String
  notAfter : Nat
  deriving DecidableEq, Repr

namespace ConsumedNonce

def id (e : ConsumedNonce) : String × String := (e.channel, e.nonce)

/-- `nonce_key`, before it is hashed. -/
def nonceKey (id : String × String) : String := id.1 ++ "\x00" ++ id.2

def storeKey (e : ConsumedNonce) : String := nonceKey e.id

end ConsumedNonce

structure NonceStore where
  consumed : Table ConsumedNonce.id
  store : Option (Table ConsumedNonce.storeKey)

namespace NonceStore

def new : NonceStore := ⟨∅, none⟩

/-- What the store holds after the records of these nonces were deleted. -/
def deleteNonces (expired : List ConsumedNonce) (store : Table ConsumedNonce.storeKey) :
    Table ConsumedNonce.storeKey :=
  expired.foldl (fun store e => store.erase e.storeKey) store

def load (store : Table ConsumedNonce.storeKey) (now : Nat) : NonceStore where
  consumed := (store.rows.filter fun e => now ≤ e.notAfter).foldl Table.put ∅
  store := some (deleteNonces (store.rows.filter fun e => e.notAfter < now) store)

/-- `deleted` says which deletions from the store succeed; an error is only logged. -/
def prune (n : NonceStore) (now : Nat) (deleted : ConsumedNonce → Bool) : NonceStore where
  consumed := n.consumed.filter fun e => now ≤ e.notAfter
  store :=
    n.store.map (deleteNonces (n.consumed.rows.filter fun e => e.notAfter < now && deleted e))

def contains (n : NonceStore) (id : String × String) : Bool := (n.consumed.get? id).isSome

/-- Write a nonce through to the store, if there is one and it does not fail. -/
def putNonce (n : NonceStore) (e : ConsumedNonce) (ok : Bool) : Option NonceStore :=
  match n.store with
  | none => some n
  | some store => if ok then some { n with store := some (store.put e) } else none

def insert (n : NonceStore) (e : ConsumedNonce) : NonceStore :=
  { n with consumed := n.consumed.put e }

end NonceStore

/-! ## Concurrent calls -/

/-- A signed statement is identified by its channel and its nonce. -/
abbrev Statement := String × String

inductive SpendError
  | expired
  | notRecorded
  | alreadyUsed
  deriving DecidableEq, Repr

/-- How far a call is; from `pruned` to the end it holds the lock. -/
inductive Phase
  | started
  | read (now : Nat)
  | pruned (now : Nat)
  | stored
  | accepted
  | refused (error : SpendError)
  deriving DecidableEq, Repr

structure SpendCall where
  statement : Statement
  phase : Phase
  deriving DecidableEq, Repr

structure SpendSystem where
  clock : Nat
  nonces : NonceStore
  holder : Option Nat := none
  calls : List SpendCall := []
  /-- History: the statements that were accepted. -/
  accepted : List Statement := []
  /-- History: the latest clock value by which a nonce was dropped. -/
  latest : Nat := 0

inductive SpendAction
  | tick (seconds : Nat)
  | call (statement : Statement)
  | readClock (call : Nat)
  | lock (call : Nat) (deleted : ConsumedNonce → Bool)
  | record (call : Nat) (stored : Bool)
  | insert (call : Nat)
  /-- The process stops, and starts again with what is in the store. -/
  | restart

namespace SpendSystem

variable (notAfter : Statement → Nat)

def record (st : Statement) : ConsumedNonce := ⟨st.1, st.2, notAfter st⟩

/-- `latest`, once the nonces among `rows` that have expired by `now` are dropped. -/
def dropped (latest now : Nat) (rows : List ConsumedNonce) : Nat :=
  if rows.any fun e => e.notAfter < now then max latest now else latest

variable (s : SpendSystem)

def setPhase (i : Nat) (c : SpendCall) (phase : Phase) : SpendSystem :=
  { s with calls := s.calls.set i { c with phase } }

/-- `spend` reads the clock; an expired statement is refused. -/
def readClock (i : Nat) (c : SpendCall) : SpendSystem :=
  if notAfter c.statement < s.clock then s.setPhase i c (.refused .expired)
  else s.setPhase i c (.read s.clock)

/-- `consume` takes the lock and drops what has expired. -/
def lock (i : Nat) (c : SpendCall) (now : Nat) (deleted : ConsumedNonce → Bool) :
    SpendSystem :=
  { s.setPhase i c (.pruned now) with
    holder := some i
    nonces := s.nonces.prune now deleted
    latest := dropped s.latest now s.nonces.consumed.rows }

/-- `consume` looks for the nonce and writes it to the store. -/
def store (i : Nat) (c : SpendCall) (ok : Bool) : SpendSystem :=
  if s.nonces.contains c.statement then
    { s.setPhase i c (.refused .alreadyUsed) with holder := none }
  else
    match s.nonces.putNonce (record notAfter c.statement) ok with
    | none => { s.setPhase i c (.refused .notRecorded) with holder := none }
    | some nonces => { s.setPhase i c .stored with nonces }

/-- `consume` puts the nonce into memory and gives the lock back. -/
def insert (i : Nat) (c : SpendCall) : SpendSystem :=
  { s.setPhase i c .accepted with
    nonces := s.nonces.insert (record notAfter c.statement)
    holder := none
    accepted := s.accepted ++ [c.statement] }

/-- `with_state_store` at the next start; without a store nothing is left. -/
def restart : SpendSystem :=
  { s with
    nonces := match s.nonces.store with
      | some store => .load store s.clock
      | none => .new
    holder := none
    calls := []
    latest := dropped s.latest s.clock ((s.nonces.store.map Table.rows).getD []) }

def step (s : SpendSystem) : SpendAction → SpendSystem
  | .tick seconds => { s with clock := s.clock + seconds }
  | .call statement => { s with calls := s.calls ++ [⟨statement, .started⟩] }
  | .readClock i =>
    match s.calls[i]? with
    | some c => if c.phase = .started then s.readClock notAfter i c else s
    | none => s
  | .lock i deleted =>
    match s.calls[i]?, s.holder with
    | some c, none =>
      match c.phase with
      | .read now => s.lock i c now deleted
      | _ => s
    | _, _ => s
  | .record i ok =>
    match s.calls[i]? with
    | some c =>
      match c.phase with
      | .pruned _ => s.store notAfter i c ok
      | _ => s
    | none => s
  | .insert i =>
    match s.calls[i]? with
    | some c => if c.phase = .stored then s.insert notAfter i c else s
    | none => s
  | .restart => s.restart

def init (clock : Nat) (persistent : Bool) : SpendSystem where
  clock
  nonces := if persistent then ⟨∅, some ∅⟩ else .new

end SpendSystem

end Slim.ChannelManager
