import Slim.Session.ReceiverBuffer
import Slim.Session.Sender

/-!
# The receiver of a session

`SessionReceiver` has one reordering buffer for each peer and the retransmissions it asked for. In a
session that is not reliable, and for a message sent with `publish_to`, there is no reordering.

As in the sender, a timer is not modelled and `timer_factory` is the flag `reliable`.
-/

namespace Slim

open Prog

structure SessionReceiver where
  buffer : AList fun _ : EncodedName => ReceiverBuffer
  /-- The request for a retransmission, by peer and id. -/
  pendingRtxs : AList fun _ : EncodedName × Nat => Publish
  reliable : Bool
  sessionId : Nat
  localName : ProtoName
  sessionType : SessionType
  /-- The id a peer's stream starts at, when known. -/
  streamStart : Option Nat
  drainingState : DrainStatus

namespace SessionReceiver

abbrev M (α : Type) := Prog SessionReceiver SessionError α

def new (reliable : Bool) (sessionId : Nat) (localName : ProtoName) (sessionType : SessionType) :
    SessionReceiver where
  buffer := ∅
  pendingRtxs := ∅
  reliable
  sessionId
  localName
  sessionType
  streamStart := if sessionType = .PointToPoint then some SessionSender.FIRST_MESSAGE_ID else none
  drainingState := .NotDraining

/-! ### Delivery -/

/-- What the buffer released, for the application; `none` is a lost message. -/
def released (sessionId : Nat) (recv : List (Option Message)) : SessionOutput :=
  recv.map fun
    | some m => .toApp (.ok m)
    | none => .toApp (.error (.MessageLost sessionId))

variable (r : SessionReceiver)

def rtxRequest (source : ProtoName) (inConn : ConnId) (id : Nat) : Publish where
  source := r.localName
  destination := source
  flags := { forwardTo := some inConn }
  session := ⟨r.sessionType.toWire, SessionMessageType.RtxRequest.toWire, r.sessionId, id⟩
  payload := some (.appPayload "" [])

def handleRecvAndRtxVectors (source : ProtoName) (inConn : ConnId) (recv : List (Option Message))
    (rtx : List Nat) : M SessionOutput := do
  let r ← Prog.read id
  let out := released r.sessionId recv
  if rtx.isEmpty then pure out
  else
    let encoded ← expect "called `Option::unwrap()` on a `None` value" source.name
    -- the timer of a request comes from the factory
    if !r.reliable then Prog.panic "called `Option::unwrap()` on a `None` value" else
    Prog.modify fun r =>
      { r with
        pendingRtxs := rtx.foldl
          (fun m id => m.insert (encoded, id) (r.rtxRequest source inConn id)) r.pendingRtxs }
    pure (out ++ rtx.map fun id => .toSlim (r.rtxRequest source inConn id))

def retirePendingRetry (name : EncodedName) (id : Nat) : M Unit :=
  Prog.modify fun r => { r with pendingRtxs := r.pendingRtxs.erase (name, id) }

/-- The buffer of a stream that is heard for the first time. -/
def openStream : Option ReceiverBuffer :=
  match r.streamStart with
  | some first => ReceiverBuffer.startingAt first
  | none => some {}

def deliverPublishMessage (message : Publish) : M SessionOutput := do
  let r ← Prog.read id
  if !r.reliable ∨ message.containsMetadata PUBLISH_TO then pure [.toApp (.ok message.toMessage)]
  else
    let source ← expect "called `Option::unwrap()` on a `None` value" message.source.name
    let inConn ← expect "incoming connection not found" message.incomingConn
    let buffer ← match r.buffer.lookup source with
      | some buffer => pure buffer
      | none => expect "attempt to add with overflow" r.openStream
    let (recv, rtx, buffer) ← expect "receiver buffer arithmetic"
      (buffer.onReceivedMessage message.toMessage)
    Prog.modify fun r => { r with buffer := r.buffer.insert source buffer }
    handleRecvAndRtxVectors message.source inConn recv rtx

def onPublishMessage (message : Publish) : M SessionOutput := do
  let r ← Prog.read id
  if r.reliable ∧ !message.containsMetadata PUBLISH_TO then
    let source ← expect "source encoded name not found" message.source.name
    retirePendingRetry source message.id
  deliverPublishMessage message

def buildAck (message : Publish) : M SessionOutput := do
  let r ← Prog.read id
  if !r.reliable then pure []
  else
    let inConn ← expect "incoming connection not found" message.incomingConn
    pure [.toSlim
      { source := r.localName
        destination := message.source
        flags := { forwardTo := some inConn }
        session := ⟨r.sessionType.toWire, SessionMessageType.MsgAck.toWire,
          message.session.sessionId, message.id⟩
        payload := some (.appPayload "" [])
        metadata := if message.containsMetadata PUBLISH_TO then [(PUBLISH_TO, TRUE_VAL)] else [] }]

def onRtxMessage (message : Publish) : M SessionOutput := do
  let source ← expect "called `Option::unwrap()` on a `None` value" message.source.name
  let inConn ← expect "incoming connection not found" message.incomingConn
  retirePendingRetry source message.id
  if message.flags.error.isNone then deliverPublishMessage message
  else
    let r ← Prog.read id
    match r.buffer.lookup source with
    -- the endpoint was removed while the reply was on its way
    | none => pure []
    | some buffer =>
      let (recv, buffer) ← expect "receiver buffer arithmetic" (buffer.onLostMessage message.id)
      Prog.modify fun r => { r with buffer := r.buffer.insert source buffer }
      handleRecvAndRtxVectors message.source inConn recv []

def onMessage (message : Publish) : M SessionOutput := do
  let r ← Prog.read id
  if r.drainingState = .Completed then Prog.throw .SessionDrainingDrop
  else
    match message.type with
    | .Msg =>
      if r.drainingState = .Initiated then Prog.throw .SessionDrainingDrop
      else
        let message := if r.sessionType = .PointToPoint then message.removeMetadata PUBLISH_TO
          else message
        let ack ← buildAck message
        let out ← onPublishMessage message
        pure (ack ++ out)
    | .RtxReply => onRtxMessage message
    | _ => pure []

/-! ### Timers -/

/-- The log entry asks the buffer whether the message came after all. -/
def logMissingRetry (id : Nat) (name : EncodedName) : M Unit := do
  let r ← Prog.read fun r => r
  match r.buffer.lookup name with
  | some buffer =>
    if id ≤ MAX_PUBLISH_ID then
      let _ ← expect "receiver buffer arithmetic" (buffer.messageAlreadyReceived id)
      pure ()
    else pure ()
  | none => pure ()

def onTimerTimeout (id : Nat) (name : EncodedName) : M SessionOutput := do
  let r ← Prog.read fun r => r
  match r.pendingRtxs.lookup (name, id) with
  | some message => pure [.toSlim message]
  | none =>
    logMissingRetry id name
    pure []

def onTimerFailure (id : Nat) (name : EncodedName) : M SessionOutput := do
  let r ← Prog.read fun r => r
  match r.pendingRtxs.lookup (name, id) with
  | none =>
    logMissingRetry id name
    pure []
  | some _ =>
    retirePendingRetry name id
    let failed : SessionOutput := [.toApp (.error (.MessageReceiveRetryFailed id))]
    match r.buffer.lookup name with
    | none => pure failed
    | some buffer =>
      let (recv, buffer) ← expect "receiver buffer arithmetic" (buffer.onLostMessage id)
      Prog.modify fun r => { r with buffer := r.buffer.insert name buffer }
      -- the first one is `id` itself, which is reported already
      pure (failed ++ released r.sessionId recv.tail)

/-! ### Endpoints and draining -/

def removeEndpoint (endpoint : ProtoName) : M Unit := do
  let encoded ← expect "called `Option::unwrap()` on a `None` value" endpoint.name
  Prog.modify fun r =>
    { r with
      buffer := r.buffer.erase encoded
      pendingRtxs := (r.pendingRtxs.keys.filter fun k => k.1 = encoded).foldl
        (fun m k => m.erase k) r.pendingRtxs }

def startDrain : SessionReceiver :=
  { r with drainingState := if r.pendingRtxs.keys.isEmpty then .Completed else .Initiated }

def drainCompleted : Bool :=
  r.drainingState = .Completed ∨ r.drainingState = .Initiated ∧ r.pendingRtxs.keys.isEmpty

def close : SessionReceiver :=
  { r with pendingRtxs := ∅, drainingState := .Completed }

end SessionReceiver

end Slim
