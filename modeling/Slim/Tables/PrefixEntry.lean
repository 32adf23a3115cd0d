import Slim.Lib.Vec
import Slim.Proto.Name
import Slim.Tables.ConnType

/-!
# The routing entry of one name prefix

`PrefixEntry` is a struct of arrays: `ids`, and for each connection type the parallel vector
`slots` of connection lists, so that the `i`-th lists hold the connections subscribed under the
`i`-th id; `aggregates` is kept as the union of the lists of a type. The arrays
`[_; ConnType::COUNT]` of the source are functions of the connection type. That `ids` and every
slot vector have the same length is a field of the structure.

Round-robin cursors (`AtomicUsize`) are 64-bit counters that wrap; reading through one returns the
entry with the cursor advanced.
-/

namespace Slim

open Vec

/-! ## Connection lists -/

/-- A duplicate-free list of connections with a round-robin cursor. -/
structure ConnList where
  conns : List ConnId
  cursor : UInt64
  nodup : conns.Nodup

namespace ConnList

variable {l : ConnList}

def new : ConnList := ⟨[], 0, List.nodup_nil⟩

@[simp] theorem conns_new : new.conns = [] := rfl

def push (l : ConnList) (conn : ConnId) : ConnList :=
  ⟨pushNew l.conns conn, l.cursor, nodup_pushNew conn l.nodup⟩

def remove (l : ConnList) (conn : ConnId) : ConnList :=
  ⟨removeFirst l.conns conn, l.cursor, nodup_removeFirst conn l.nodup⟩

def isEmpty (l : ConnList) : Bool := l.conns.isEmpty

/-- The `for _ in 0..n` loop of `next`: up to `k` more reads through the cursor. -/
def nextLoop (conns : List ConnId) (h : 0 < conns.length) (skip : ConnId) :
    Nat → UInt64 → Option ConnId × UInt64
  | 0, cursor => (none, cursor)
  | k + 1, cursor =>
    let c := conns.get ⟨cursor.toNat % conns.length, Nat.mod_lt _ h⟩
    if c ≠ skip then (some c, cursor + 1) else nextLoop conns h skip k (cursor + 1)

/-- Round-robin next connection, skipping `skip`. -/
def next (l : ConnList) (skip : ConnId) : Option ConnId × ConnList :=
  if h : 0 < l.conns.length then
    if l.conns.length = 1 then
      let c := l.conns.get ⟨0, h⟩
      (if c ≠ skip then some c else none, l)
    else
      let r := nextLoop l.conns h skip l.conns.length l.cursor
      (r.1, { l with cursor := r.2 })
  else (none, l)

@[simp] theorem mem_push {conn c : ConnId} :
    c ∈ (l.push conn).conns ↔ c ∈ l.conns ∨ c = conn := mem_pushNew

@[simp] theorem mem_remove {conn c : ConnId} :
    c ∈ (l.remove conn).conns ↔ c ∈ l.conns ∧ c ≠ conn := mem_removeFirst l.nodup

theorem isEmpty_iff : l.isEmpty = true ↔ ∀ c, c ∉ l.conns := by
  rw [isEmpty, List.isEmpty_iff, List.eq_nil_iff_forall_not_mem]

end ConnList

/-! ## Prefix entries -/

structure PrefixEntry where
  ids : List (BitVec 128)
  /-- Connection lists, parallel to `ids`. -/
  slots : ConnType → List ConnList
  /-- Deduplicated union of the connections of all slots. -/
  aggregates : ConnType → List ConnId
  /-- Round-robin cursor over an aggregate. -/
  slotCursor : UInt64
  strings : StringName
  slots_length : ∀ ct, (slots ct).length = ids.length

namespace PrefixEntry

def new (strings : StringName) : PrefixEntry where
  ids := []
  slots := fun _ => []
  aggregates := fun _ => []
  slotCursor := 0
  strings := strings
  slots_length := fun _ => rfl

variable (pe : PrefixEntry)

/-- `self.ids.iter().position(|&i| i == id)`. -/
def position (id : BitVec 128) : Option (Fin pe.ids.length) :=
  pe.ids.finIdxOf? id

/-- `self.slots[ct.index()][idx]`. -/
def slot (ct : ConnType) (idx : Fin pe.ids.length) : ConnList :=
  (pe.slots ct).get (idx.cast (pe.slots_length ct).symm)

def isEmpty : Bool := pe.ids.isEmpty

/-- Append a new id with an empty list for each type. -/
def pushId (id : BitVec 128) : PrefixEntry where
  ids := pe.ids ++ [id]
  slots := fun ct => pe.slots ct ++ [ConnList.new]
  aggregates := pe.aggregates
  slotCursor := pe.slotCursor
  strings := pe.strings
  slots_length := fun ct => by simp [pe.slots_length ct]

/-- Replace the list of one type at one index (`slots[idx].push(..)`, `slots[idx].remove(..)`). -/
def modifySlot (ct : ConnType) (idx : Nat) (f : ConnList → ConnList) :
    PrefixEntry where
  ids := pe.ids
  slots := fun ct' => if ct' = ct then (pe.slots ct').modify idx f else pe.slots ct'
  aggregates := pe.aggregates
  slotCursor := pe.slotCursor
  strings := pe.strings
  slots_length := fun ct' => by split <;> simp [pe.slots_length ct']

def setAggregate (ct : ConnType) (agg : List ConnId) : PrefixEntry :=
  { pe with aggregates := fun ct' => if ct' = ct then agg else pe.aggregates ct' }

def rebuildAggregates : PrefixEntry :=
  { pe with
    aggregates := fun ct =>
      (pe.slots ct).foldl (fun agg list => pushAllNew agg list.conns) [] }

/-- True when the lists of every type are empty at `idx`. -/
def isSlotEmpty (idx : Fin pe.ids.length) : Bool :=
  ConnType.ALL.all fun ct => (pe.slot ct idx).isEmpty

def removeSlot (idx : Nat) : PrefixEntry :=
  rebuildAggregates
    { ids := swapRemove pe.ids idx
      slots := fun ct => swapRemove (pe.slots ct) idx
      aggregates := pe.aggregates
      slotCursor := pe.slotCursor
      strings := pe.strings
      slots_length := fun ct => by simp [pe.slots_length ct] }

/-- The `while` loop of `retain_non_empty`. Every iteration either advances `i` or shortens `ids`,
so that `ids.len() - i` iterations are the whole loop. -/
def retainLoop : Nat → Nat → PrefixEntry → PrefixEntry
  | 0, _, pe => pe
  | k + 1, i, pe =>
    if h : i < pe.ids.length then
      if pe.isSlotEmpty ⟨i, h⟩ then retainLoop k i (pe.removeSlot i)
      else retainLoop k (i + 1) pe
    else pe

/-- Remove every index whose lists are all empty. -/
def retainNonEmpty : PrefixEntry := retainLoop pe.ids.length 0 pe

def hasId (id : BitVec 128) : Bool := pe.ids.contains id

/-- The index of `id`, appending a slot for it when there is none. -/
def ensureId (id : BitVec 128) : (pe' : PrefixEntry) × Fin pe'.ids.length :=
  match pe.position id with
  | some i => ⟨pe, i⟩
  | none => ⟨pe.pushId id, ⟨pe.ids.length, by simp [pushId]⟩⟩

/-- Ensure a slot for `id` and insert `conn`. Returns whether `conn` is the first connection of
its type for `id`. -/
def insertConnForId (id : BitVec 128) (conn : ConnId) (category : ConnType) :
    Bool × PrefixEntry :=
  let ⟨pe, idx⟩ := pe.ensureId id
  let wasEmpty := (pe.slot category idx).isEmpty
  let pe := pe.modifySlot category idx (·.push conn)
  (wasEmpty, pe.setAggregate category (pushNew (pe.aggregates category) conn))

/-- Remove `conn` from the slot of `id`. Returns whether the slot's list of that type is now
empty. -/
def removeConnForId (id : BitVec 128) (conn : ConnId) (category : ConnType) :
    Bool × PrefixEntry :=
  match pe.position id with
  | none => (false, pe)
  | some idx =>
    let pe := pe.modifySlot category idx (·.remove conn)
    let aggregate := pe.aggregates category
    let aggregate :=
      if (pe.slots category).any (·.conns.contains conn) then aggregate
      else removeFirst aggregate conn
    let pe := pe.setAggregate category aggregate
    ((pe.slot category idx).isEmpty, pe)

/-- True when some aggregate lists `conn`. -/
def hasConn (conn : ConnId) : Bool :=
  ConnType.ALL.any fun ct => (pe.aggregates ct).contains conn

/-- Remove `conn` from every slot and aggregate, whatever its type. -/
def removeConn (conn : ConnId) : PrefixEntry where
  ids := pe.ids
  slots := fun ct => (pe.slots ct).map (·.remove conn)
  aggregates := fun ct => (pe.aggregates ct).filter (· ≠ conn)
  slotCursor := pe.slotCursor
  strings := pe.strings
  slots_length := fun ct => by simp [pe.slots_length ct]

/-- The lists at `idx` that the filter includes, in the order of `ConnType::ALL`. -/
def filteredSlots (idx : Fin pe.ids.length) (filter : MatchFilter) :
    List ConnList :=
  (ConnType.ALL.filter filter.includes).map fun ct => pe.slot ct idx

def filteredAggregates (filter : MatchFilter) : List (List ConnId) :=
  (ConnType.ALL.filter filter.includes).map pe.aggregates

/-- All connections of `id`; `none` when there is no slot for it. -/
def getAll (id : BitVec 128) (skip : ConnId) (filter : MatchFilter) :
    Option (List ConnId) :=
  (pe.position id).map fun idx =>
    (pe.filteredSlots idx filter).flatMap fun list => list.conns.filter (· ≠ skip)

/-- All connections of the prefix, read from the aggregates. -/
def getAllAny (skip : ConnId) (filter : MatchFilter) : List ConnId :=
  (pe.filteredAggregates filter).flatMap fun conns => conns.filter (· ≠ skip)

/-- The first type, in the order given, whose list at `idx` yields a connection (`find_map`);
cursors of the lists asked on the way have moved. -/
def getOneLoop (pe : PrefixEntry) (idx : Fin pe.ids.length) (skip : ConnId) :
    List ConnType → Option ConnId × (ConnType → Option ConnList)
  | [] => (none, fun _ => none)
  | ct :: cts =>
    let (found, list) := (pe.slot ct idx).next skip
    match found with
    | some c => (some c, fun ct' => if ct' = ct then some list else none)
    | none =>
      let r := getOneLoop pe idx skip cts
      (r.1, fun ct' => if ct' = ct then some list else r.2 ct')

/-- Write back the lists that `getOneLoop` advanced. -/
def setLists (idx : Nat) (lists : ConnType → Option ConnList) : PrefixEntry where
  ids := pe.ids
  slots := fun ct => (pe.slots ct).modify idx fun l => (lists ct).getD l
  aggregates := pe.aggregates
  slotCursor := pe.slotCursor
  strings := pe.strings
  slots_length := fun ct => by simp [pe.slots_length ct]

/-- One connection of `id`, round-robin, in the filter's order of types. -/
def getOne (id : BitVec 128) (skip : ConnId) (filter : MatchFilter) :
    Option ConnId × PrefixEntry :=
  match pe.position id with
  | none => (none, pe)
  | some idx =>
    let r := pe.getOneLoop idx skip (ConnType.ALL.filter filter.includes)
    (r.1, pe.setLists idx r.2)

/-- `for conns in self.filtered_aggregates(filter)` of `pick_one_any`: a non-empty aggregate is
scanned from the cursor on, wrapping around once. -/
def pickLoop (skip : ConnId) : List (List ConnId) → UInt64 → Option ConnId × UInt64
  | [], cursor => (none, cursor)
  | conns :: rest, cursor =>
    if conns.length > 0 then
      let start := cursor.toNat % conns.length
      match (conns.drop start ++ conns.take start).find? (· ≠ skip) with
      | some c => (some c, cursor + 1)
      | none => pickLoop skip rest (cursor + 1)
    else pickLoop skip rest cursor

/-- One connection of the prefix, round-robin over the aggregates. -/
def pickOneAny (skip : ConnId) (filter : MatchFilter) :
    Option ConnId × PrefixEntry :=
  let r := pickLoop skip (pe.filteredAggregates filter) pe.slotCursor
  (r.1, { pe with slotCursor := r.2 })

section
variable (calculateHash : String → UInt64)

/-- The name of `id` under this prefix, rebuilt from the stored strings. -/
def toProtoName (id : BitVec 128) : ProtoName :=
  let base := ProtoName.fromStrings calculateHash pe.strings
  if id ≠ NameId.NULL_COMPONENT then base.withId id else base

end

end PrefixEntry

end Slim
