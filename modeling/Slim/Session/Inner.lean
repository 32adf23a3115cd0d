import Slim.Session.Receiver

/-!
# The application's part of a session

`Session` is the inner layer: the sender and the receiver, each of which a direction can shut down.
It routes application messages, their acknowledgements and retransmissions, and their timers.
-/

namespace Slim

structure Session where
  sender : Option SessionSender
  receiver : Option SessionReceiver
  processingState : ProcessingState
  /-- What this layer itself sent on one-shot channels. -/
  acks : Acks

namespace Session

abbrev M (α : Type) := Prog Session SessionError α

/-- Timers, and so a reliable session, need an interval and a number of retries. -/
def reliable (config : SessionConfig) : Bool := config.interval.isSome && config.maxRetries.isSome

def new (sessionId : Nat) (config : SessionConfig) (localName : ProtoName) (direction : Direction) :
    Session where
  sender := if direction.toFlags.1 then none
    else some (.new (reliable config) sessionId config.sessionType)
  receiver := if direction.toFlags.2 then none
    else some (.new (reliable config) sessionId localName config.sessionType)
  processingState := .Active
  acks := []

/-! ### The layers below -/

/-- Run `x` on the sender; `shut` when there is none. -/
def onSender {α : Type} (x : SessionSender.M α) (shut : M α) : M α := fun s =>
  match s.sender with
  | some sender => ((x sender).1, { s with sender := some (x sender).2 })
  | none => shut s

/-- Run `x` on the receiver; `shut` when there is none. -/
def onReceiver {α : Type} (x : SessionReceiver.M α) (shut : M α) : M α := fun s =>
  match s.receiver with
  | some receiver => ((x receiver).1, { s with receiver := some (x receiver).2 })
  | none => shut s

/-! ### Messages -/

def notify (ackTx : Option AckTx) (r : Except SessionError Unit) : M Unit :=
  Prog.modify fun s =>
    match ackTx with
    | some tx => { s with acks := s.acks ++ [(tx, r)] }
    | none => s

/-- A message for the sender, which tells the application when it is shut down. -/
def toSender (draw : Nat) (message : Publish) (ackTx : Option AckTx) : M SessionOutput :=
  onSender (SessionSender.onMessage draw message ackTx) do
    notify ackTx (.error .SessionSenderShutdown)
    Prog.throw .SessionSenderShutdown

def onApplicationMessage (draw : Nat) (message : Publish) (direction : MessageDirection)
    (ackTx : Option AckTx) : M SessionOutput :=
  match message.type with
  | .Msg =>
    if direction = .South then toSender draw message ackTx
    else onReceiver (SessionReceiver.onMessage message) (Prog.throw .SessionReceiverShutdown)
  | .MsgAck | .RtxRequest => toSender draw message ackTx
  | .RtxReply =>
    onReceiver (SessionReceiver.onMessage message) (Prog.throw .SessionReceiverShutdown)
  | t => do
    notify ackTx (.ok ())
    Prog.throw (.SessionMessageTypeUnexpected t)

/-- A timer of the sender (`Msg`) or of the receiver (`RtxRequest`). -/
def onTimer (messageType : SessionMessageType) (name : Option EncodedName)
    (send : SessionSender.M SessionOutput)
    (receive : EncodedName → SessionReceiver.M SessionOutput) :
    M SessionOutput :=
  match messageType with
  | .Msg => onSender send (Prog.throw .SessionSenderShutdown)
  | .RtxRequest =>
    match name with
    | some name => onReceiver (receive name) (Prog.throw .SessionReceiverShutdown)
    | none => Prog.throw .MissingParticipantNameOnTimer
  | t => Prog.throw (.SessionMessageTypeUnexpected t)

def onTimerTimeout (id : Nat) (messageType : SessionMessageType) (name : Option EncodedName) :
    M SessionOutput :=
  onTimer messageType name (SessionSender.onTimerTimeout id) (SessionReceiver.onTimerTimeout id)

def onTimerFailure (id : Nat) (messageType : SessionMessageType) (name : Option EncodedName) :
    M SessionOutput :=
  onTimer messageType name (SessionSender.onTimerFailure id) (SessionReceiver.onTimerFailure id)

def startDrain (s : Session) : Session :=
  { s with
    sender := s.sender.map SessionSender.startDrain
    receiver := s.receiver.map SessionReceiver.startDrain
    processingState := .Draining }

def onMessage (draw : Nat) (message : SessionMessage) : M SessionOutput :=
  match message with
  | .onMessage message direction ackTx => onApplicationMessage draw message direction ackTx
  | .messageError error =>
    onSender (SessionSender.onSlimFailure error) (Prog.throw .SessionSenderShutdown)
  | .timerTimeout id messageType name => onTimerTimeout id messageType name
  | .timerFailure id messageType name => onTimerFailure id messageType name
  | .startDrain => do
    Prog.modify startDrain
    pure []
  | _ => Prog.throw .SessionMessageInternalUnexpected

/-! ### Endpoints and shutdown -/

def addEndpoint (endpoint : Participant) : M SessionOutput := do
  let _ ← Prog.ofExcept (SessionError.ofMessage endpoint.getName)
  onSender (SessionSender.addEndpoint endpoint) (pure [])

def removeEndpoint (endpoint : ProtoName) : M Unit := do
  onSender (SessionSender.removeEndpoint endpoint) (pure ())
  onReceiver (SessionReceiver.removeEndpoint endpoint) (pure ())

def needsDrain (s : Session) : Bool :=
  !(s.sender.all SessionSender.drainCompleted && s.receiver.all SessionReceiver.drainCompleted)

def missingAcksFor (s : Session) (id : Nat) : List ProtoName :=
  (s.sender.map fun sender => sender.missingAcksFor id).getD []

def close (s : Session) : Session :=
  { s with
    sender := s.sender.map SessionSender.close
    receiver := s.receiver.map SessionReceiver.close }

end Session

end Slim
