import Slim.Proto.Command
import Slim.Tables.ConnType

/-!
# Messages of the data plane

The protobuf `Message` and the accessors the data path uses. Optional sub-messages of the wire
format stay optional; `validate` is what a node checks before it reads them. TTLs, message ids and
fanouts (`u32`) are natural numbers.
-/

namespace Slim

/-- The TTL of a message without an explicit one. -/
def DEFAULT_TTL : Nat := 8

/-- The largest id of a sequenced message (`u32::MAX / 2`). -/
def MAX_PUBLISH_ID : Nat := (2 ^ 32 - 1) / 2

inductive MessageError
  | SlimHeaderNotFound
  | SourceNotFound
  | SourceEncodedNameNotFound
  | DestinationNotFound
  | DestinationEncodedNameNotFound
  | SessionHeaderNotFound
  | MessageTypeNotFound
  | ContentTypeNotSet
  | NotApplicationPayload
  | NotCommandPayload
  | LinkTypeNotSet
  /-- The payload that was there instead is not kept. -/
  | InvalidCommandPayloadType (expected : String)
  | ParticipantNameNotFound
  deriving DecidableEq, Repr

namespace MessageError

def toString : MessageError → String
  | SlimHeaderNotFound => "SLIM header not found"
  | SourceNotFound => "source not found"
  | SourceEncodedNameNotFound => "source encoded name not found"
  | DestinationNotFound => "destination not found"
  | DestinationEncodedNameNotFound => "destination encoded name not found"
  | SessionHeaderNotFound => "session header not found"
  | MessageTypeNotFound => "message type not found"
  | ContentTypeNotSet => "content type is not set"
  | NotApplicationPayload => "content is not an application payload"
  | NotCommandPayload => "content is not a command payload"
  | LinkTypeNotSet => "link type is not set"
  | InvalidCommandPayloadType expected => "invalid command payload type: expected " ++ expected
  | ParticipantNameNotFound => "participant name not found"

end MessageError

/-! ## Headers -/

structure SlimHeader where
  source : Option ProtoName
  destination : Option ProtoName
  identity : String
  fanout : Nat
  ttl : Nat
  /-- Connection a (un)subscription is supposed to be received from. -/
  recvFrom : Option ConnId
  /-- Connection to forward the message to. -/
  forwardTo : Option ConnId
  /-- Connection the message was received from, set by the receiving node. -/
  incomingConn : Option ConnId
  error : Option Bool
  deriving DecidableEq, Repr

structure SlimHeaderFlags where
  fanout : Nat := 1
  recvFrom : Option ConnId := none
  forwardTo : Option ConnId := none
  incomingConn : Option ConnId := none
  error : Option Bool := none
  ttl : Nat := DEFAULT_TTL
  deriving DecidableEq, Repr

namespace SlimHeader

def new (source destination : ProtoName) (identity : String) (flags : SlimHeaderFlags) :
    SlimHeader where
  source := some source
  destination := some destination
  identity := identity
  fanout := flags.fanout
  ttl := flags.ttl
  recvFrom := flags.recvFrom
  forwardTo := flags.forwardTo
  incomingConn := flags.incomingConn
  error := flags.error

def clearFlags (h : SlimHeader) : SlimHeader := { h with recvFrom := none, forwardTo := none }

/-- `saturating_sub(1)`. -/
def decrementTtl (h : SlimHeader) : SlimHeader := { h with ttl := h.ttl - 1 }

def validateRouted (h : SlimHeader) : Except MessageError Unit :=
  match h.source with
  | none => .error .SourceNotFound
  | some src =>
    if src.name.isNone then .error .SourceEncodedNameNotFound else
    match h.destination with
    | none => .error .DestinationNotFound
    | some dst => if dst.name.isNone then .error .DestinationEncodedNameNotFound else .ok ()

end SlimHeader

structure SessionHeader where
  sessionType : Nat
  sessionMessageType : Nat
  sessionId : Nat
  messageId : Nat
  deriving DecidableEq, Repr

/-! ## Messages -/

/-- What a publication carries; the data path does not look into it. A command payload may lack its
`oneof`, and so may the content itself. -/
inductive Content
  | appPayload (payloadType : String) (blob : Bytes)
  | commandPayload (command : Option CommandPayload)
  | unset
  deriving DecidableEq, Repr

inductive LinkConnectionType
  | Remote
  | Peer
  | Edge
  deriving DecidableEq, Repr

structure LinkNegotiationPayload where
  linkId : String
  slimVersion : String
  isReply : Bool
  linkEcdhPublicKey : List UInt8
  /-- `none` for a value outside the enumeration. -/
  connectionType : Option LinkConnectionType
  nodeId : String
  deploymentName : String
  linkKemPayload : Option (List UInt8)
  deriving DecidableEq, Repr

structure SubscriptionAck where
  subscriptionId : SubId
  success : Bool
  error : String
  deriving DecidableEq, Repr

inductive MessageType
  | subscribe (header : Option SlimHeader) (subscriptionId : SubId)
  | unsubscribe (header : Option SlimHeader) (subscriptionId : SubId)
  | publish (header : Option SlimHeader) (session : Option SessionHeader) (msg : Option Content)
  | link (linkType : Option LinkNegotiationPayload)
  | subscriptionAck (ack : SubscriptionAck)
  deriving DecidableEq, Repr

structure Message where
  messageType : Option MessageType
  metadata : List (String × String) := []
  deriving DecidableEq, Repr

namespace Message

def validateHeader (h : Option SlimHeader) : Except MessageError Unit :=
  match h with
  | none => .error .SlimHeaderNotFound
  | some h => h.validateRouted

def validate (m : Message) : Except MessageError Unit :=
  match m.messageType with
  | none => .error .MessageTypeNotFound
  | some (.link l) => if l.isNone then .error .LinkTypeNotSet else .ok ()
  | some (.publish h s _) => do
    validateHeader h
    if s.isNone then .error .SessionHeaderNotFound else .ok ()
  | some (.subscribe h _) => validateHeader h
  | some (.unsubscribe h _) => validateHeader h
  | some (.subscriptionAck _) => .ok ()

def tryGetSlimHeader (m : Message) : Option SlimHeader :=
  match m.messageType with
  | some (.publish h _ _) => h
  | some (.subscribe h _) => h
  | some (.unsubscribe h _) => h
  | _ => none

def mapHeader (m : Message) (f : SlimHeader → SlimHeader) : Message :=
  { m with
    messageType := m.messageType.map fun
      | .publish h s c => .publish (h.map f) s c
      | .subscribe h i => .subscribe (h.map f) i
      | .unsubscribe h i => .unsubscribe (h.map f) i
      | mt => mt }

/-- A (un)subscription, with its header and id; `true` for a subscription. -/
def asSubscription (m : Message) : Option (Bool × SlimHeader × SubId) :=
  match m.messageType with
  | some (.subscribe (some hdr) subId) => some (true, hdr, subId)
  | some (.unsubscribe (some hdr) subId) => some (false, hdr, subId)
  | _ => none

/-- The `messageId` of the session header (`get_id`). -/
def getId (m : Message) : Option Nat :=
  match m.messageType with
  | some (.publish _ (some s) _) => some s.messageId
  | _ => none

end Message

end Slim
