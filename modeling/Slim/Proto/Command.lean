import Slim.Proto.Name

/-!
# Session messages

The enumerations and command payloads of the session protocol, as they are on the wire: an
enumeration field is any `i32`, and a sub-message may be missing. `getName` and the `as…` accessors
are the checks the source makes when it reads them.
-/

namespace Slim

abbrev Bytes := List UInt8

inductive SessionType
  | Unspecified
  | PointToPoint
  | Multicast
  deriving DecidableEq, Repr

inductive SessionMessageType
  | Unspecified
  | Msg
  | MsgAck
  | RtxRequest
  | RtxReply
  | DiscoveryRequest
  | DiscoveryReply
  | JoinRequest
  | JoinReply
  | LeaveRequest
  | LeaveReply
  | GroupUpdate
  | GroupWelcome
  | GroupClose
  | GroupProposal
  | GroupAck
  | GroupNack
  | Heartbeat
  | UpdateParticipantState
  | RejoinRequest
  | RejoinReply
  deriving DecidableEq, Repr

namespace SessionType

/-- A value outside the enumeration reads as the default. -/
def ofWire : Nat → SessionType
  | 1 => PointToPoint
  | 2 => Multicast
  | _ => Unspecified

def toWire : SessionType → Nat
  | Unspecified => 0
  | PointToPoint => 1
  | Multicast => 2

@[simp] theorem ofWire_toWire (t : SessionType) : ofWire t.toWire = t := by cases t <;> rfl

end SessionType

namespace SessionMessageType

def all : List SessionMessageType :=
  [Unspecified, Msg, MsgAck, RtxRequest, RtxReply, DiscoveryRequest, DiscoveryReply, JoinRequest,
    JoinReply, LeaveRequest, LeaveReply, GroupUpdate, GroupWelcome, GroupClose, GroupProposal,
    GroupAck, GroupNack, Heartbeat, UpdateParticipantState, RejoinRequest, RejoinReply]

def ofWire (n : Nat) : SessionMessageType := all.getD n Unspecified

def toWire (t : SessionMessageType) : Nat := all.idxOf t

@[simp] theorem ofWire_toWire (t : SessionMessageType) : ofWire t.toWire = t := by cases t <;> rfl

def isCommandMessage : SessionMessageType → Bool
  | DiscoveryRequest | DiscoveryReply | JoinRequest | JoinReply | LeaveRequest | LeaveReply
  | GroupUpdate | GroupWelcome | GroupClose | GroupProposal | GroupAck | GroupNack | Heartbeat
  | UpdateParticipantState | RejoinRequest | RejoinReply => true
  | Unspecified | Msg | MsgAck | RtxRequest | RtxReply => false

end SessionMessageType

inductive ParticipantState
  | Online
  | Offline
  deriving DecidableEq, Repr

namespace ParticipantState

def toInt : ParticipantState → Int
  | Online => 0
  | Offline => 1

def ofInt : Int → Option ParticipantState
  | 0 => some Online
  | 1 => some Offline
  | _ => none

end ParticipantState

inductive GroupUpdateOp
  | Add
  | Remove
  | Rejoin
  deriving DecidableEq, Repr

namespace GroupUpdateOp

def toInt : GroupUpdateOp → Int
  | Add => 0
  | Remove => 1
  | Rejoin => 2

def ofInt : Int → Option GroupUpdateOp
  | 0 => some Add
  | 1 => some Remove
  | 2 => some Rejoin
  | _ => none

end GroupUpdateOp

structure ParticipantSettings where
  sendsData : Bool
  receivesData : Bool
  deriving DecidableEq, Repr

structure Participant where
  name : Option ProtoName
  settings : Option ParticipantSettings
  /-- A `ParticipantState` as it is on the wire. -/
  status : Int
  deriving DecidableEq, Repr

namespace Participant

def new (name : ProtoName) (settings : ParticipantSettings) : Participant :=
  ⟨some name, some settings, ParticipantState.Online.toInt⟩

def isOnline (p : Participant) : Bool := p.status = ParticipantState.Online.toInt

def isOffline (p : Participant) : Bool := p.status = ParticipantState.Offline.toInt

def setStatus (p : Participant) (st : ParticipantState) : Participant :=
  { p with status := st.toInt }

end Participant

structure TimerSettings where
  timeout : Nat
  maxRetries : Nat
  deriving DecidableEq, Repr

structure MlsPayload where
  commitId : UInt32
  mlsContent : Bytes
  deriving DecidableEq, Repr

structure GroupUpdatePayload where
  op : Int
  participant : Option Participant
  participants : List Participant
  mls : Option MlsPayload
  deriving DecidableEq, Repr

structure GroupWelcomePayload where
  participants : List Participant
  mls : Option MlsPayload
  deriving DecidableEq, Repr

structure JoinReplyPayload where
  keyPackage : Option Bytes
  participant : Option Participant
  deriving DecidableEq, Repr

namespace JoinReplyPayload

/-- `key_package()`: the bytes, empty when there are none. -/
def keyPackageBytes (p : JoinReplyPayload) : Bytes := p.keyPackage.getD []

end JoinReplyPayload

structure GroupProposalPayload where
  source : Option ProtoName
  mlsProposal : Bytes
  deriving DecidableEq, Repr

structure UpdateParticipantStatePayload where
  participant : Option ProtoName
  newState : Int
  epoch : UInt64
  deriving DecidableEq, Repr

structure RejoinRequestPayload where
  participant : Option ProtoName
  keyPackage : Bytes
  deriving DecidableEq, Repr

structure RejoinReplyPayload where
  commitId : UInt32
  mlsContent : Bytes
  deriving DecidableEq, Repr

/-- `CommandPayloadType`. Of a join request only what the session reads back is kept. -/
inductive CommandPayload
  | discoveryRequest
  | discoveryReply
  | joinRequest (timerSettings : Option TimerSettings) (channel control : Option ProtoName)
      (headerIntegrityValidationPercent : Option Nat)
  | joinReply (p : JoinReplyPayload)
  | leaveRequest
  | leaveReply
  | groupUpdate (p : GroupUpdatePayload)
  | groupWelcome (p : GroupWelcomePayload)
  | groupClose (participants : List ProtoName)
  | groupProposal (p : GroupProposalPayload)
  | groupAck
  | groupNack
  | heartbeat (epoch : UInt64)
  | updateParticipantState (p : UpdateParticipantStatePayload)
  | rejoinRequest (p : RejoinRequestPayload)
  | rejoinReply (p : RejoinReplyPayload)
  deriving DecidableEq, Repr

end Slim
