import Slim.Proto.Message

/-!
# Publications

`Publish` is a publication with both of its headers and the names in them, the only messages the
session layer is handed: `toMessage` is the message it stands for, built as `build_publish` builds
one, and every publication a node accepts is of that form (`validate_publish`).

The source panics when it reads the id of a name without an encoding; the functions that would are
partial here.
-/

namespace Slim

namespace ProtoName

def id (n : ProtoName) : Option (BitVec 128) := n.name.map EncodedName.id

/-- `reset_id`: the name of every instance. -/
def resetId (n : ProtoName) : Option ProtoName :=
  if n.name.isSome then some (n.withId NameId.NULL_COMPONENT) else none

/-- The components agree. -/
def matchPrefix (n m : ProtoName) : Option Bool := do
  let a ← n.name
  let b ← m.name
  some (a.prefix3 = b.prefix3)

/-- The same full name: readable components and id. -/
def sameName (n m : ProtoName) : Option Bool := do
  let prefixes ← n.matchPrefix m
  if prefixes then
    let a ← n.id
    let b ← m.id
    some (a = b)
  else some false

end ProtoName

structure Publish where
  source : ProtoName
  destination : ProtoName
  identity : String := ""
  flags : SlimHeaderFlags := {}
  session : SessionHeader
  payload : Option Content
  metadata : List (String × String) := []
  deriving DecidableEq, Repr

namespace Publish

variable (p : Publish)

def toMessage : Message where
  messageType := some
    (.publish (some (SlimHeader.new p.source p.destination p.identity p.flags)) (some p.session)
      p.payload)
  metadata := p.metadata

/-! ## Headers -/

def type : SessionMessageType := .ofWire p.session.sessionMessageType

def id : Nat := p.session.messageId

def incomingConn : Option ConnId := p.flags.incomingConn

def setMessageId (id : Nat) : Publish :=
  { p with session := { p.session with messageId := id } }

def setType (t : SessionMessageType) : Publish :=
  { p with session := { p.session with sessionMessageType := t.toWire } }

def setDestination (dst : ProtoName) : Publish := { p with destination := dst }

/-! ## Metadata -/

def containsMetadata (key : String) : Bool := (p.metadata.lookup key).isSome

def removeMetadata (key : String) : Publish :=
  { p with metadata := p.metadata.filter fun e => e.1 ≠ key }

def insertMetadata (key val : String) : Publish :=
  { p with metadata := (key, val) :: p.metadata.filter fun e => e.1 ≠ key }

/-! ## Payloads -/

/-- `as_command_payload`, of the content if there is one. -/
def extractCommandPayload : Except MessageError (Option CommandPayload) :=
  match p.payload with
  | some (.commandPayload command) => .ok command
  | some (.appPayload _ _) => .error .NotCommandPayload
  | some .unset => .error .ContentTypeNotSet
  | none => .error .ContentTypeNotSet

end Publish

namespace CommandPayload

/-- The payload of one kind; every `as_…_payload` is one of these. -/
def pick {α : Type} (expected : String) (f : CommandPayload → Option α)
    (c : Option CommandPayload) : Except MessageError α :=
  match c.bind f with
  | some a => .ok a
  | none => .error (.InvalidCommandPayloadType expected)

def asJoinReply : Option CommandPayload → Except MessageError JoinReplyPayload :=
  pick "JoinReply" fun | joinReply p => some p | _ => none

def asGroupUpdate : Option CommandPayload → Except MessageError GroupUpdatePayload :=
  pick "GroupUpdate" fun | groupUpdate p => some p | _ => none

def asGroupWelcome : Option CommandPayload → Except MessageError GroupWelcomePayload :=
  pick "GroupWelcome" fun | groupWelcome p => some p | _ => none

def asGroupProposal : Option CommandPayload → Except MessageError GroupProposalPayload :=
  pick "GroupProposal" fun | groupProposal p => some p | _ => none

def asHeartbeat : Option CommandPayload → Except MessageError UInt64 :=
  pick "Heartbeat" fun | heartbeat epoch => some epoch | _ => none

def asUpdateParticipantState :
    Option CommandPayload → Except MessageError UpdateParticipantStatePayload :=
  pick "UpdateParticipantState" fun | updateParticipantState p => some p | _ => none

def asRejoinRequest : Option CommandPayload → Except MessageError RejoinRequestPayload :=
  pick "RejoinRequest" fun | rejoinRequest p => some p | _ => none

def asRejoinReply : Option CommandPayload → Except MessageError RejoinReplyPayload :=
  pick "RejoinReply" fun | rejoinReply p => some p | _ => none

end CommandPayload

namespace Publish

def extract {α : Type} (p : Publish) (as : Option CommandPayload → Except MessageError α) :
    Except MessageError α := p.extractCommandPayload >>= as

end Publish

namespace Participant

def getName (p : Participant) : Except MessageError ProtoName :=
  match p.name with
  | some name => .ok name
  | none => .error .ParticipantNameNotFound

end Participant

end Slim
