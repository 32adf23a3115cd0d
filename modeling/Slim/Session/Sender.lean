import Slim.Session.Types

/-!
# The sender of a session

`SessionSender` numbers the messages of the application, keeps the last ones in a ring
(`ProducerBuffer`) and, in a reliable session, the acknowledgements it still waits for. Messages
that find no endpoint are held back in the ring (`to_flush`) and sent when the first endpoint is
added.

A timer is not modelled: its timeouts and its failure are events. `timer_factory`, which a reliable
session has, is the flag `reliable`. The persistence of the sequence number is left out.
-/

namespace Slim

/-! ## The ring of sent messages -/

structure ProducerBuffer where
  capacity : Nat
  next : Nat
  messages : AList fun _ : Nat => Publish
  /-- Ids in the order they came; `usize::MAX` for an empty slot. -/
  ring : List Nat

namespace ProducerBuffer

/-- `usize::MAX`. -/
def EMPTY_SLOT : Nat := 2 ^ 64 - 1

def withCapacity (capacity : Nat) : ProducerBuffer where
  capacity
  next := 0
  messages := ∅
  ring := List.replicate capacity EMPTY_SLOT

def push (b : ProducerBuffer) (msg : Publish) : ProducerBuffer :=
  if (b.messages.lookup msg.id).isSome then b
  else
    { b with
      messages := (b.messages.erase (b.ring.getD b.next EMPTY_SLOT)).insert msg.id msg
      ring := b.ring.set b.next msg.id
      next := (b.next + 1) % b.capacity }

def clear (b : ProducerBuffer) : ProducerBuffer :=
  { b with messages := ∅, next := 0, ring := List.replicate b.ring.length EMPTY_SLOT }

def get (b : ProducerBuffer) (id : Nat) : Option Publish := b.messages.lookup id

def iter (b : ProducerBuffer) : List Publish :=
  (List.range b.capacity).filterMap fun i =>
    b.messages.lookup (b.ring.getD ((b.next + i) % b.capacity) EMPTY_SLOT)

end ProducerBuffer

/-! ## The sender -/

/-- An acknowledgement that is waited for: the endpoints it is missing from, and the message when it
is not in the ring. -/
structure GroupTimer where
  missingTimers : List EncodedName
  message : Option Publish

structure SessionSender where
  buffer : ProducerBuffer
  reliable : Bool
  pendingAcks : AList fun _ : Nat => GroupTimer
  pendingAcksPerEndpoint : AList fun _ : EncodedName => List Nat
  endpointsList : AList fun _ : EncodedName => ProtoName
  nextId : Nat
  sessionId : Nat
  sessionType : SessionType
  toFlush : Bool
  drainingState : DrainStatus
  ackNotifiers : AList fun _ : Nat => AckTx
  acks : Acks

namespace SessionSender

abbrev M (α : Type) := Prog SessionSender SessionError α

def FIRST_MESSAGE_ID : Nat := 1

def MAX_FANOUT : Nat := 256

def new (reliable : Bool) (sessionId : Nat) (sessionType : SessionType) : SessionSender where
  buffer := .withCapacity 512
  reliable
  pendingAcks := ∅
  pendingAcksPerEndpoint := ∅
  endpointsList := ∅
  nextId := FIRST_MESSAGE_ID - 1
  sessionId
  sessionType
  toFlush := false
  drainingState := .NotDraining
  ackNotifiers := ∅
  acks := []

def notify (ackTx : Option AckTx) (r : Except SessionError Unit) : M Unit :=
  Prog.modify fun s =>
    match ackTx with
    | some tx => { s with acks := s.acks ++ [(tx, r)] }
    | none => s

/-! ### Publishing -/

/-- The id and the fanout of a message; `draw` is the random number a `publish_to` takes its id
from. -/
def idAndFanout (draw : Nat) (isPublishTo : Bool) : M (Nat × Nat) := do
  if isPublishTo then
    pure (MAX_PUBLISH_ID + 1 + draw % (2 ^ 32 - 1 - (MAX_PUBLISH_ID + 1)), 1)
  else
    Prog.modify fun s => { s with nextId := (s.nextId + 1) % (MAX_PUBLISH_ID + 1) }
    let s ← Prog.read id
    pure (s.nextId, if s.sessionType = .Multicast then MAX_FANOUT else 1)

/-- Wait for acknowledgement `messageId` of each of `endpoints`. -/
def track (messageId : Nat) (endpoints : List EncodedName)
    (perEndpoint : AList fun _ : EncodedName => List Nat) : AList fun _ : EncodedName => List Nat :=
  endpoints.foldl
    (fun m enc => m.insert enc (((m.lookup enc).getD []).insert messageId)) perEndpoint

def setTimerAndSend (message : Publish) : M SessionOutput := do
  let isPublishTo := message.containsMetadata PUBLISH_TO
  let s ← Prog.read id
  if s.reliable then
    let dst ← if isPublishTo then
        (fun e => [e]) <$> Prog.expect "destination encoded name not found" message.destination.name
      else pure s.endpointsList.keys
    Prog.modify fun s =>
      { s with
        pendingAcks := s.pendingAcks.insert message.id
          { missingTimers := dst, message := if isPublishTo then some message else none }
        pendingAcksPerEndpoint := track message.id dst s.pendingAcksPerEndpoint }
    pure [.toSlim message]
  else pure [.toSlim message]

def onPublishMessage (draw : Nat) (message : Publish) (ackTx : Option AckTx) : M SessionOutput := do
  let isPublishTo := message.containsMetadata PUBLISH_TO
  let s ← Prog.read id
  let unknown ← if isPublishTo then do
      let dst ← Prog.expect "destination encoded name not found" message.destination.name
      pure (s.endpointsList.lookup dst).isNone
    else pure false
  if unknown then Prog.throw (.UnknownDestination message.destination) else
  let (messageId, fanout) ← idAndFanout draw isPublishTo
  let message :=
    { message with
      session := { message.session with
        messageId, sessionId := s.sessionId, sessionType := s.sessionType.toWire }
      flags := { message.flags with fanout } }
  if s.reliable then
    Prog.modify fun s =>
      match ackTx with
      | some tx => { s with ackNotifiers := s.ackNotifiers.insert messageId tx }
      | none => s
  else notify ackTx (.ok ())
  if s.endpointsList.keys.isEmpty then
    -- nobody to send to yet
    Prog.modify fun s =>
      { s with
        buffer := if isPublishTo then s.buffer else s.buffer.push message
        toFlush := true }
    pure []
  else
    if s.reliable ∧ !isPublishTo then
      Prog.modify fun s => { s with buffer := s.buffer.push message }
    setTimerAndSend message

/-! ### Acknowledgements -/

def onAckMessage (message : Publish) : M Unit := do
  let source ← Prog.expect "source encoded name not found" message.source.name
  Prog.modify fun s =>
    let s :=
      match s.pendingAcks.lookup message.id with
      | none => s
      | some pending =>
        let missing := pending.missingTimers.erase source
        if missing.isEmpty then
          { s with
            pendingAcks := s.pendingAcks.erase message.id
            ackNotifiers := s.ackNotifiers.erase message.id
            acks := s.acks ++
              ((s.ackNotifiers.lookup message.id).map fun tx => (tx, Except.ok ())).toList }
        else
          let pending := { pending with missingTimers := missing }
          { s with pendingAcks := s.pendingAcks.insert message.id pending }
    match s.pendingAcksPerEndpoint.lookup source with
    | none => s
    | some ids =>
      { s with
        pendingAcksPerEndpoint := s.pendingAcksPerEndpoint.insert source (ids.erase message.id) }

def onRtxMessage (message : Publish) : M SessionOutput := do
  let incomingConn ← Prog.expect "incoming connection not found" message.incomingConn
  let s ← Prog.read id
  match s.buffer.get message.id with
  | some msg =>
    pure [.toSlim (
      { msg with
        destination := message.source
        flags := { msg.flags with forwardTo := some incomingConn } }.setType .RtxReply)]
  | none =>
    pure [.toSlim
      { source := message.destination
        destination := message.source
        flags := { forwardTo := some incomingConn, error := some true }
        session := ⟨(SessionType.ofWire message.session.sessionType).toWire,
          SessionMessageType.RtxReply.toWire, s.sessionId, message.id⟩
        payload := some (.appPayload "" []) }]

def onMessage (draw : Nat) (message : Publish) (ackTx : Option AckTx) : M SessionOutput := do
  let s ← Prog.read id
  if s.drainingState = .Completed then
    notify ackTx (.error .SessionDrainingDrop)
    Prog.throw .SessionDrainingDrop
  else
    match message.type with
    | .Msg =>
      if s.drainingState = .Initiated then
        notify ackTx (.error .SessionDrainingDrop)
        Prog.throw .SessionDrainingDrop
      else
        let message := if s.sessionType = .PointToPoint then message.removeMetadata PUBLISH_TO
          else message
        onPublishMessage draw message ackTx
    | .MsgAck =>
      notify ackTx (.ok ())
      if !s.reliable then pure [] else
      onAckMessage message
      pure []
    | .RtxRequest =>
      notify ackTx (.ok ())
      if !s.reliable then pure [] else
      onAckMessage message
      onRtxMessage message
    | _ =>
      notify ackTx (.ok ())
      pure []

/-! ### Failures -/

/-- A message that is given up. Who did not answer counts as gone, so that only an unexpected error
is reported. -/
def onFailure (id : Nat) (error : SessionError) : M SessionOutput := do
  Prog.modify fun s =>
    { s with
      pendingAcksPerEndpoint :=
        match s.pendingAcks.lookup id with
        | none => s.pendingAcksPerEndpoint
        | some pending => pending.missingTimers.foldl
            (fun m enc =>
              match m.lookup enc with
              | some ids => m.insert enc (ids.erase id)
              | none => m)
            s.pendingAcksPerEndpoint
      pendingAcks := s.pendingAcks.erase id
      ackNotifiers := s.ackNotifiers.erase id
      acks := s.acks ++ ((s.ackNotifiers.lookup id).map fun tx => (tx,
        match error with
        | .UnexpectedError _ => Except.error error
        | _ => Except.ok ())).toList }
  pure []

def onTimerFailure (id : Nat) : M SessionOutput := onFailure id (.MessageSendRetryFailed id)

def onSlimFailure (error : SessionError) : M SessionOutput :=
  match error.sessionContext with
  | none => Prog.throw (.UnexpectedError error)
  | some ctx => onFailure ctx.messageId error

def onTimerTimeout (id : Nat) : M SessionOutput := do
  let s ← Prog.read fun s => s
  if MAX_PUBLISH_ID < id then
    match (s.pendingAcks.lookup id).bind GroupTimer.message with
    | some msg => pure [.toSlim msg]
    | none => onTimerFailure id
  else
    match s.buffer.get id with
    | some message =>
      match s.pendingAcks.lookup id with
      | none => pure []
      | some pending =>
        pure (pending.missingTimers.filterMap fun enc =>
          (s.endpointsList.lookup enc).map fun name => .toSlim (message.setDestination name))
    | none => onTimerFailure id

/-! ### Endpoints -/

/-- Send what was held back; what each message leaves is sent too. -/
def flush : List Publish → M SessionOutput
  | [] => pure []
  | p :: ps => do
    let out ← setTimerAndSend p
    let rest ← flush ps
    pure (out ++ rest)

def addEndpoint (endpoint : Participant) : M SessionOutput := do
  let settings ← Prog.okOr .MalformedParticipant endpoint.settings
  let name ← Prog.okOr .MalformedParticipant endpoint.name
  if !settings.receivesData then pure [] else
  let enc ← Prog.expect "called `Option::unwrap()` on a `None` value" name.name
  Prog.modify fun s => { s with endpointsList := s.endpointsList.insert enc name }
  let s ← Prog.read id
  if s.toFlush ∧ s.endpointsList.keys.length = 1 then
    Prog.modify fun s => { s with toFlush := false }
    flush s.buffer.iter
  else pure []

/-- The acknowledgements without endpoint `key`; one that waits for nobody else is dropped. -/
def forgetEndpoint (key : EncodedName) (ids : List Nat)
    (pending : AList fun _ : Nat => GroupTimer) : AList fun _ : Nat => GroupTimer :=
  ids.foldl
    (fun m id =>
      match m.lookup id with
      | none => m
      | some p =>
        let missing := p.missingTimers.erase key
        if missing.isEmpty then m.erase id else m.insert id { p with missingTimers := missing })
    pending

def removeEndpoint (endpoint : ProtoName) : M Unit := do
  let key ← Prog.expect "called `Option::unwrap()` on a `None` value" endpoint.name
  Prog.modify fun s =>
    { s with
      pendingAcks :=
        forgetEndpoint key ((s.pendingAcksPerEndpoint.lookup key).getD []) s.pendingAcks
      pendingAcksPerEndpoint := s.pendingAcksPerEndpoint.erase key
      endpointsList := s.endpointsList.erase key }

/-! ### Draining -/

def startDrain (s : SessionSender) : SessionSender :=
  { s with drainingState := if s.pendingAcks.keys.isEmpty then .Completed else .Initiated }

def drainCompleted (s : SessionSender) : Bool :=
  s.drainingState = .Completed ∨ s.drainingState = .Initiated ∧ s.pendingAcks.keys.isEmpty

/-- Who has not acknowledged message `id` yet. -/
def missingAcksFor (s : SessionSender) (id : Nat) : List ProtoName :=
  match s.pendingAcks.lookup id with
  | none => []
  | some pending => pending.missingTimers.filterMap s.endpointsList.lookup

def close (s : SessionSender) : SessionSender :=
  { s with
    pendingAcks := ∅
    pendingAcksPerEndpoint := ∅
    ackNotifiers := ∅
    acks := s.acks ++ s.ackNotifiers.entries.map fun e => (e.2, .error .SessionClosed)
    drainingState := .Completed }

end SessionSender

end Slim
