import Mathlib.Data.List.AList
import Slim.Lib.Prog
import Slim.Proto.Publish

/-!
# Types of the session layer

Errors, settings and the messages between the parts of a session. `SessionError` keeps the variants
the modelled functions return; an error that carries the text of another one carries the error. An
application waits for its requests on one-shot channels: `AckTx` names a channel, and what is sent
on one is recorded in a list of `Acks`.

Hash maps are `AList`s and hash sets are lists without duplicates; the order in which the source
walks through one is not fixed, here it is the order of the list.
-/

namespace Slim

/-! ## Errors -/

inductive MlsError
  | NoGroupUpdatePayload
  | UnknownPayloadType
  | VerificationFailed (reason : String)
  | Library (reason : String)
  deriving DecidableEq, Repr

inductive SubscriptionAckError
  | Rejected (message : String)
  | ChannelClosed
  | Timeout
  deriving DecidableEq, Repr

/-- What SLIM says about a message it could not send. -/
structure MessageContext where
  messageId : Nat
  sessionMessageType : SessionMessageType
  deriving DecidableEq, Repr

inductive SessionError
  | MessageError (e : Slim.MessageError)
  | InvalidGroupUpdateOp (op : Int)
  | MissingNewParticipantInGroupAdd
  | SessionMessageInternalUnexpected
  | SessionMessageTypeUnknown (t : SessionMessageType)
  | SessionMessageTypeUnexpected (t : SessionMessageType)
  | MalformedParticipant
  | MissingParticipantSettings
  | SignatureKeyIsEmpty
  | SignatureKeyCollectionFailed
  | UnexpectedError (source : SessionError)
  | MessageLost (sessionId : Nat)
  | SessionClosed
  | MlsOp (e : MlsError)
  | Auth (reason : String)
  | ControlMessageReplay (messageId : Nat)
  | SubscriptionAckFailed (e : SubscriptionAckError)
  | UnknownDestination (name : ProtoName)
  | ParticipantNotFound (name : ProtoName)
  | ParticipantAlreadyInGroup (name : ProtoName)
  | SessionDeleteMessageSendFailed
  | SlimMessageSendFailed
  | SlimSendFailure (ctx : Option MessageContext)
  | SessionDrainingDrop
  | ParticipantOffLine
  | RejoinFailed
  | ModeratorNotFound
  | StatusChangeInProgress
  | SessionCleanupFailed (details : SessionError)
  | MessageSendRetryFailed (id : Nat)
  | MessageReceiveRetryFailed (id : Nat)
  | SessionSenderShutdown
  | SessionReceiverShutdown
  | MissingParticipantNameOnTimer
  | MissingPayload (context : String)
  | WelcomeMessageMissingMlsPayload
  | ParticipantDisconnected (name : ProtoName)
  | MissingParticipantNameOnDisconnection
  | TimerNotFound (id : Nat)
  | ModeratorTaskUnsupportedPhase
  | ModeratorTaskUnexpectedTimerId (id : Nat)
  | ModeratorTaskAddFailed (source : SessionError)
  | ModeratorTaskRemoveFailed (source : SessionError)
  | ModeratorTaskUpdateFailed (source : SessionError)
  | ModeratorTaskCloseFailed (source : SessionError)
  deriving DecidableEq, Repr

namespace SessionError

def sessionContext : SessionError → Option MessageContext
  | SlimSendFailure ctx => ctx
  | _ => none

def isCommandMessageError (e : SessionError) : Bool :=
  match e.sessionContext with
  | some ctx => ctx.sessionMessageType.isCommandMessage
  | none => false

/-- `?` on an error of a message accessor. -/
def ofMessage {α : Type} : Except Slim.MessageError α → Except SessionError α
  | .ok a => .ok a
  | .error e => .error (.MessageError e)

end SessionError

namespace Publish

/-- An `extract_…` accessor and `?`. -/
def read {σ α : Type} (p : Publish) (as : Option CommandPayload → Except MessageError α) :
    Prog σ SessionError α := .ofExcept (SessionError.ofMessage (p.extract as))

end Publish

/-! ## Messages -/

/-- The sending half of a one-shot channel. -/
abbrev AckTx := Nat

/-- What was sent on one-shot channels, in order. -/
abbrev Acks := List (AckTx × Except SessionError Unit)

inductive MessageDirection
  /-- From SLIM. -/
  | North
  /-- From the application. -/
  | South
  deriving DecidableEq, Repr

inductive OutboundMessage
  | toSlim (message : Publish)
  | toApp (result : Except SessionError Message)

/-- The messages a layer asks the processing loop to send. -/
abbrev SessionOutput := List OutboundMessage

def SessionOutput.slim (out : SessionOutput) : List Publish :=
  out.filterMap fun
    | .toSlim m => some m
    | .toApp _ => none

inductive ProcessingState
  | Active
  | Draining
  deriving DecidableEq, Repr

/-- The drain state of a sender or receiver. -/
inductive DrainStatus
  | NotDraining
  | Initiated
  | Completed
  deriving DecidableEq, Repr

inductive SessionMessage
  | onMessage (message : Publish) (direction : MessageDirection) (ackTx : Option AckTx)
  | messageError (error : SessionError)
  | timerTimeout (messageId : Nat) (messageType : SessionMessageType) (name : Option EncodedName)
  | timerFailure (messageId : Nat) (messageType : SessionMessageType) (name : Option EncodedName)
  | participantDisconnected (name : Option ProtoName)
  | startDrain
  | deleteSession (sessionId : Nat)
  | leaveCleanup

/-! ## Metadata keys -/

def TRUE_VAL : String := "TRUE"

def PUBLISH_TO : String := "PUBLISH_TO"

def LEAVING_SESSION : String := "LEAVING_SESSION"

def LEAVE_REPLY_SENT : String := "LEAVE_REPLY_SENT"

/-- Set by the session's own decryption only. -/
def PEER_SUBJECT_KEY : String := "slim-peer-subject"

/-! ## Settings -/

/-- How a peer's name is held to its verified identity. -/
inductive IdentityBinding
  | Off
  | Warn
  | Enforce
  deriving DecidableEq, Repr

/-- `binding_mismatch`: whether to drop the message; the log entry is not modelled. -/
def IdentityBinding.mismatch (mode : IdentityBinding) : Bool := mode = .Enforce

inductive Direction
  | Send
  | Recv
  | Bidirectional
  | None
  deriving DecidableEq, Repr

namespace Direction

def toParticipantSettings : Direction → ParticipantSettings
  | Send => ⟨true, false⟩
  | Recv => ⟨false, true⟩
  | Bidirectional => ⟨true, true⟩
  | None => ⟨false, false⟩

/-- `to_flags`: whether the sender and the receiver are shut down. -/
def toFlags : Direction → Bool × Bool
  | Send => (false, true)
  | Recv => (true, false)
  | Bidirectional => (false, false)
  | None => (true, true)

end Direction

structure SessionConfig where
  sessionType : SessionType
  maxRetries : Option Nat := none
  /-- In milliseconds. -/
  interval : Option Nat := none
  /-- `header_integrity_validation_percent`, when MLS is enabled. -/
  mlsSettings : Option Nat := none
  initiator : Bool := false
  metadata : List (String × String) := []
  deriving DecidableEq, Repr

structure SessionSettings where
  id : Nat
  source : ProtoName
  destination : ProtoName
  control : ProtoName
  config : SessionConfig
  direction : Direction := .Bidirectional
  identityBinding : IdentityBinding := .Warn
  /-- Whether the session is persisted. -/
  kvStore : Bool := false
  deriving DecidableEq, Repr

end Slim
