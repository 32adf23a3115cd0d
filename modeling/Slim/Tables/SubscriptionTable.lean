import Mathlib.Data.List.AList
import Slim.Errors
import Slim.Tables.PrefixEntry

/-!
# The subscription table

`SubscriptionTableImpl`: the routing snapshot (one `PrefixEntry` per name prefix) and the
subscription state (the records and, per connection, the set of its keys). A call returns its
result and the table after it, since the source edits the table in place; hash maps are `AList`s
and hash sets are lists, so nothing here depends on iteration order except the order of results
that are sets.

A record is identified by connection, subscription id and encoding (`SubKey`), so that a
connection may hold several records for one name: the connection leaves the routing slot of an
encoding only when its last record for that encoding goes.
-/

namespace Slim

structure SubRecord where
  encoded : EncodedName
  connId : ConnId
  category : ConnType
  deriving DecidableEq, Repr

structure SubKey where
  connId : ConnId
  subId : SubId
  encoded : EncodedName
  deriving DecidableEq, Repr

structure SubscriptionState where
  subscriptions : AList fun _ : SubKey => SubRecord
  connSubs : AList fun _ : ConnId => List SubKey

namespace SubscriptionState

def empty : SubscriptionState := ⟨∅, ∅⟩

def add (ss : SubscriptionState) (subId : SubId) (record : SubRecord) : SubscriptionState :=
  let key : SubKey := ⟨record.connId, subId, record.encoded⟩
  { subscriptions := ss.subscriptions.insert key record
    connSubs := ss.connSubs.insert record.connId
      (Vec.pushNew ((ss.connSubs.lookup record.connId).getD []) key) }

/-- Remove a record; its connection leaves `connSubs` with its last key. -/
def remove (ss : SubscriptionState) (key : SubKey) : Option SubRecord × SubscriptionState :=
  match ss.subscriptions.lookup key with
  | none => (none, ss)
  | some record =>
    let connSubs :=
      match ss.connSubs.lookup key.connId with
      | none => ss.connSubs
      | some set =>
        let set := set.filter (· ≠ key)
        if set.isEmpty then ss.connSubs.erase key.connId else ss.connSubs.insert key.connId set
    (some record, { subscriptions := ss.subscriptions.erase key, connSubs })

def connStillSubscribed (ss : SubscriptionState) (conn : ConnId) (encoded : EncodedName) : Bool :=
  match ss.connSubs.lookup conn with
  | none => false
  | some subs => subs.any fun key => key.encoded == encoded

end SubscriptionState

abbrev Routing := AList fun _ : Prefix => PrefixEntry

structure SubscriptionTable where
  routing : Routing
  state : SubscriptionState

namespace SubscriptionTable

def empty : SubscriptionTable := ⟨∅, SubscriptionState.empty⟩

def UNWRAP_NONE : String := "called Option::unwrap() on a None value"

/-! ## Writes -/

/-- `rs.entry(prefix).or_insert_with(..)`: a new entry takes the strings of the name, which panics
when the name has none. -/
def entryOrNew (routing : Routing) (pfx : Prefix) (name : ProtoName) :
    Except (Fault DataPathError) PrefixEntry :=
  match routing.lookup pfx with
  | some entry => .ok entry
  | none =>
    match name.strName with
    | some strings => .ok (PrefixEntry.new strings)
    | none => .error (.panic "string name missing")

variable (t : SubscriptionTable)

/-- Returns whether `conn` is the first connection of its category for the name. -/
def addSubscription (name : ProtoName) (conn : ConnId)
    (category : ConnType) (subscriptionId : SubId) :
    Except (Fault DataPathError) Bool × SubscriptionTable :=
  match name.name with
  | none => (.error (.panic UNWRAP_NONE), t)
  | some enc =>
    match entryOrNew t.routing enc.prefix3 name with
    | .error e => (.error e, t)
    | .ok entry =>
      let (first, entry) := entry.insertConnForId enc.id conn category
      (.ok first,
        { routing := t.routing.insert enc.prefix3 entry
          state := t.state.add subscriptionId ⟨enc, conn, category⟩ })

/-- Take `conn` out of the slot of `encoded`, compact the entry and drop it when it is empty.
Returns whether the slot's list of that category became empty. -/
def removeRoute (routing : Routing) (encoded : EncodedName) (conn : ConnId) (category : ConnType) :
    Bool × Routing :=
  match routing.lookup encoded.prefix3 with
  | none => (false, routing)
  | some entry =>
    let (last, pe) := entry.removeConnForId encoded.id conn category
    let pe := pe.retainNonEmpty
    (last, if pe.isEmpty then routing.erase encoded.prefix3 else routing.insert encoded.prefix3 pe)

/-- Returns whether `conn` was the last connection of its category for the name. -/
def removeSubscription (name : ProtoName) (conn : ConnId)
    (category : ConnType) (subscriptionId : SubId) :
    Except (Fault DataPathError) Bool × SubscriptionTable :=
  match name.name with
  | none => (.error (.panic UNWRAP_NONE), t)
  | some enc =>
    match t.routing.lookup enc.prefix3 with
    | none => (.error (.err (.SubscriptionNotFound name)), t)
    | some entry =>
      if ¬ entry.hasId enc.id then
        (.error (.err (.IdNotFound (NameId.ofU128 enc.id).toString)), t)
      else
        match t.state.remove ⟨conn, subscriptionId, enc⟩ with
        | (none, ss) =>
          (.error (.err (.SubscriptionIdNotFound subscriptionId)), { t with state := ss })
        | (some _, ss) =>
          if ss.connStillSubscribed conn enc then (.ok false, { t with state := ss })
          else
            let (last, routing) := removeRoute t.routing enc conn category
            (.ok last, { routing, state := ss })

section
variable (calculateHash : String → UInt64)

/-- The readable name of a record: from the routing entry, or without strings when there is no
entry. -/
def recordName (routing : Routing) (record : SubRecord) : ProtoName :=
  match routing.lookup record.encoded.prefix3 with
  | some pe => pe.toProtoName calculateHash record.encoded.id
  | none => { name := some record.encoded, strName := none }

/-- Names with the subscription ids a dropped connection held for them. -/
abbrev LostSubscriptions := AList fun _ : ProtoName => List SubId

structure DropScan where
  subscriptions : AList fun _ : SubKey => SubRecord
  result : LostSubscriptions
  encodedNames : List EncodedName

/-- First pass of `remove_connection`, one key. -/
def dropKey (routing : Routing) (s : DropScan) (key : SubKey) : DropScan :=
  match s.subscriptions.lookup key with
  | none => s
  | some record =>
    let name := recordName calculateHash routing record
    { subscriptions := s.subscriptions.erase key
      result := s.result.insert name (Vec.pushNew ((s.result.lookup name).getD []) key.subId)
      encodedNames := Vec.pushNew s.encodedNames record.encoded }

/-- Remove every record and route of a connection. Returns the names it held. -/
def removeConnection (conn : ConnId) (category : ConnType) :
    Except (Fault DataPathError) LostSubscriptions × SubscriptionTable :=
  match t.state.connSubs.lookup conn with
  | none => (.error (.err (.ConnectionIdNotFound conn)), t)
  | some keys =>
    let scan := keys.foldl (dropKey calculateHash t.routing) ⟨t.state.subscriptions, ∅, []⟩
    (.ok scan.result,
      { routing := scan.encodedNames.foldl
          (fun rs encoded => (removeRoute rs encoded conn category).2) t.routing
        state :=
          { subscriptions := scan.subscriptions, connSubs := t.state.connSubs.erase conn } })

end

/-- Take `conn` out of the entry of one prefix, whatever its type. -/
def repairEntry (conn : ConnId) (routing : Routing) (pfx : Prefix) : Routing :=
  match routing.lookup pfx with
  | none => routing
  | some entry =>
    if ¬ entry.hasConn conn then routing
    else
      let pe := (entry.removeConn conn).retainNonEmpty
      if pe.isEmpty then routing.erase pfx else routing.insert pfx pe

/-- Take `conn` out of every entry that lists it; the records stay. -/
def removeRoutesTo (conn : ConnId) : SubscriptionTable :=
  { t with routing := t.routing.keys.foldl (repairEntry conn) t.routing }

/-! ## Reads -/

def noMatch (encoded : EncodedName) : DataPathError :=
  .NoMatchEncoded encoded.component0 encoded.component1 encoded.component2 encoded.stringId

/-- One matching connection, round-robin: cursors move. -/
def matchOne (encoded : EncodedName) (incomingConn : ConnId)
    (filter : MatchFilter) : Except DataPathError ConnId × SubscriptionTable :=
  match t.routing.lookup encoded.prefix3 with
  | none => (.error (noMatch encoded), t)
  | some entry =>
    let (found, entry) :=
      if encoded.id ≠ NameId.NULL_COMPONENT then entry.getOne encoded.id incomingConn filter
      else entry.pickOneAny incomingConn filter
    let t := { t with routing := t.routing.insert encoded.prefix3 entry }
    match found with
    | some c => (.ok c, t)
    | none => (.error (noMatch encoded), t)

def matchAll (encoded : EncodedName) (incomingConn : ConnId)
    (filter : MatchFilter) : Except DataPathError (List ConnId) :=
  match t.routing.lookup encoded.prefix3 with
  | none => .error (noMatch encoded)
  | some entry =>
    if encoded.id ≠ NameId.NULL_COMPONENT then
      match entry.getAll encoded.id incomingConn filter with
      | none => .error (noMatch encoded)
      | some out => if out.isEmpty then .error (noMatch encoded) else .ok out
    else
      let out := entry.getAllAny incomingConn filter
      if out.isEmpty then .error (noMatch encoded) else .ok out

section
variable (calculateHash : String → UInt64)

/-- The records with their readable names (`for_each_subscription`). -/
def forEachSubscription : List (ProtoName × SubId × ConnId × ConnType) :=
  t.state.subscriptions.entries.map fun ⟨key, record⟩ =>
    (recordName calculateHash t.routing record, key.subId, record.connId, record.category)

end

end SubscriptionTable

end Slim
