import Mathlib.Data.Finset.Card
import Slim.Proto.Message

/-!
# The receiver buffer

The reordering buffer of one stream. Ids are sequence numbers modulo `MAX_ID + 1`. Messages that
arrive out of order wait in `buffer`, whose entry `first_entry` stands for the id after `last_sent`;
positions given up as lost are in `lost_msgs`.

Results are in `Option`: `none` is a panic, of a checked `usize` operation or an index out of
bounds.
-/

namespace Slim

def USIZE_MAX : Nat := 2 ^ 64 - 1

def checkedAdd (a b : Nat) : Option Nat := if a + b ≤ USIZE_MAX then some (a + b) else none

def checkedSub (a b : Nat) : Option Nat := if b ≤ a then some (a - b) else none

structure ReceiverBuffer where
  /-- `usize::MAX` before the first message. -/
  lastSent : Nat := USIZE_MAX
  firstEntry : Nat := 0
  lostMsgs : Finset Nat := ∅
  buffer : List (Option Message) := []

namespace ReceiverBuffer

def MAX_ID : Nat := MAX_PUBLISH_ID

/-! ## Ids -/

/-- A buffer for a stream known to start at `firstId`. -/
def startingAt (firstId : Nat) : Option ReceiverBuffer := do
  let sum ← checkedAdd firstId MAX_ID
  some { lastSent := sum % (MAX_ID + 1) }

def idDistance (src dst : Nat) : Option Nat :=
  if src ≤ dst then some (dst - src)
  else do
    let wrapped ← checkedSub (MAX_ID + 1) src
    checkedAdd wrapped dst

/-- `a` comes after `b`, within half of the id space. -/
def isAfter (a b : Nat) : Option Bool := do
  let distance ← idDistance b a
  -- `div_ceil(2)`
  some (0 < distance && distance ≤ (MAX_ID + 1) / 2)

def addWithWraparound (base offset : Nat) : Option Nat := do
  let sum ← checkedAdd base offset
  some (sum % (MAX_ID + 1))

/-- The ids of `n` packets from `current` on, to be requested again. -/
def rtxFrom (current : Nat) : Nat → Option (List Nat)
  | 0 => some []
  | n + 1 => do
    let next ← addWithWraparound current 1
    let rest ← rtxFrom next n
    some (current % 2 ^ 32 :: rest)

/-! ## Release -/

/-- The first loop of `release_msgs`, from position `i`: entries that are there, or lost. -/
def releaseBuffered : Nat → Nat → List (Option Message) → ReceiverBuffer →
    Option (List (Option Message) × ReceiverBuffer)
  | 0, _, ret, rb => some (ret, rb)
  | fuel + 1, i, ret, rb =>
    match rb.buffer[i]? with
    | none => some (ret, rb)
    | some (some m) => do
      let lastSent ← addWithWraparound rb.lastSent 1
      releaseBuffered fuel (i + 1) (ret ++ [some m])
        { rb with buffer := rb.buffer.set i none, lastSent, firstEntry := rb.firstEntry + 1 }
    | some none => do
      let nextId ← addWithWraparound rb.lastSent 1
      if nextId ∈ rb.lostMsgs then
        releaseBuffered fuel (i + 1) (ret ++ [none])
          { rb with
            lostMsgs := rb.lostMsgs.erase nextId
            lastSent := nextId
            firstEntry := rb.firstEntry + 1 }
      else some (ret, rb)

/-- The second loop: lost positions past the buffer. -/
def releaseLost : Nat → List (Option Message) → ReceiverBuffer →
    Option (List (Option Message) × ReceiverBuffer)
  | 0, ret, rb => some (ret, rb)
  | fuel + 1, ret, rb => do
    let nextId ← addWithWraparound rb.lastSent 1
    if nextId ∈ rb.lostMsgs then
      releaseLost fuel (ret ++ [none])
        { rb with lastSent := nextId, lostMsgs := rb.lostMsgs.erase nextId }
    else some (ret, rb)

variable (rb : ReceiverBuffer)

/-- Between the loops, a buffer with nothing left is reset. -/
def resetIfDrained : ReceiverBuffer :=
  if rb.firstEntry = rb.buffer.length then { rb with firstEntry := 0, buffer := [] } else rb

/-- Every round of a loop takes an entry or a lost id away, which bounds the rounds. -/
def releaseMsgs : Option (List (Option Message) × ReceiverBuffer) := do
  let (ret, rb) ← releaseBuffered rb.buffer.length rb.firstEntry [] rb
  let rb := rb.resetIfDrained
  releaseLost (rb.lostMsgs.card + 1) ret rb

/-! ## Reception -/

/-- The first message out of order: an empty entry for each hole before it. Without a message (a
beacon) `msgId` is a hole too. -/
def openBuffer (msgId : Nat) (msg : Option Message) :
    Option (List (Option Message) × List Nat × ReceiverBuffer) := do
  let nextExpected ← addWithWraparound rb.lastSent 1
  let numMissing ← idDistance nextExpected msgId
  match msg with
  | some m =>
    let rtx ← rtxFrom nextExpected numMissing
    some ([], rtx,
      { rb with firstEntry := 0, buffer := List.replicate numMissing none ++ [some m] })
  | none =>
    let rtx ← rtxFrom nextExpected (numMissing + 1)
    some ([], rtx, { rb with firstEntry := 0, buffer := List.replicate (numMissing + 1) none })

/-- A message inside the range of the buffer: the first one takes the entry. -/
def fillEntry (msgId : Nat) (msg : Option Message) :
    Option (List (Option Message) × List Nat × ReceiverBuffer) :=
  match msg with
  | none => some ([], [], rb)
  | some m => do
    let nextExpected ← addWithWraparound rb.lastSent 1
    let distance ← idDistance nextExpected msgId
    let pos ← checkedAdd distance rb.firstEntry
    match rb.buffer[pos]? with
    | none => none
    | some (some _) => some ([], [], rb)
    | some none =>
      let (ret, rb) ← releaseMsgs { rb with buffer := rb.buffer.set pos (some m) }
      some (ret, [], rb)

/-- A message past the end of the buffer, which grows up to it. -/
def extendBuffer (bufferEnd msgId : Nat) (msg : Option Message) :
    Option (List (Option Message) × List Nat × ReceiverBuffer) := do
  let bufferNext ← addWithWraparound bufferEnd 1
  let numNewEntries ← idDistance bufferNext msgId
  let rtx ← rtxFrom bufferNext numNewEntries
  let buffer := rb.buffer ++ List.replicate numNewEntries none
  match msg with
  | some m => some ([], rtx, { rb with buffer := buffer ++ [some m] })
  | none => some ([], rtx ++ [msgId % 2 ^ 32], { rb with buffer })

/-- Returns what to deliver and the ids to request again. -/
def internalOnReceivedMessage (msgId : Nat) (msg : Option Message) :
    Option (List (Option Message) × List Nat × ReceiverBuffer) := do
  let nextExpected ←
    if rb.lastSent = USIZE_MAX then some USIZE_MAX else addWithWraparound rb.lastSent 1
  if rb.lastSent = USIZE_MAX ∨ msgId = nextExpected ∧ rb.buffer.isEmpty then
    match msg with
    | some m => some ([some m], [], { rb with lastSent := msgId })
    | none => some ([], [msgId % 2 ^ 32], rb)
  else
    let after ← isAfter msgId rb.lastSent
    -- delivered already, or too late
    if !after then some ([], [], rb)
    else if rb.buffer.isEmpty then rb.openBuffer msgId msg
    else
      let width ← checkedSub rb.buffer.length rb.firstEntry
      let bufferEnd ← addWithWraparound rb.lastSent width
      let beyond ← isAfter msgId bufferEnd
      if !beyond then rb.fillEntry msgId msg else rb.extendBuffer bufferEnd msgId msg

def onReceivedMessage (msg : Message) :
    Option (List (Option Message) × List Nat × ReceiverBuffer) := do
  let id ← msg.getId
  rb.internalOnReceivedMessage id (some msg)

def onLostMessage (msgId : Nat) :
    Option (List (Option Message) × ReceiverBuffer) :=
  releaseMsgs { rb with lostMsgs := insert msgId rb.lostMsgs }

def messageAlreadyReceived (msgId : Nat) : Option Bool :=
  if rb.lastSent = USIZE_MAX then some false
  else do
    let after ← isAfter msgId rb.lastSent
    if !after then some true
    else
      let nextExpected ← addWithWraparound rb.lastSent 1
      let width ← checkedSub rb.buffer.length rb.firstEntry
      let bufferEnd ← addWithWraparound rb.lastSent width
      if rb.buffer.isEmpty then some false
      else
        let beyond ← isAfter msgId bufferEnd
        if beyond then some false
        else
          let distance ← idDistance nextExpected msgId
          let pos ← checkedAdd distance rb.firstEntry
          let entry ← rb.buffer[pos]?
          some entry.isSome

end ReceiverBuffer

end Slim
