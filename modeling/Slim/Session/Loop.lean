import Slim.Lib.Lru
import Slim.Session.Moderator
import Slim.Session.Participant

/-!
# The processing loop of a session

The loop takes one message at a time, checks it, has the handler (a moderator or a participant)
process it and sends what the handler returned. It ends when the session has drained, or by an error
while it drains; a panic of the handler ends it too.

The verification of tokens and signatures and the caches of the replay filter are parameters
(`Checks`). What happens after the loop has ended (`on_shutdown`, the deletion of the session) is
not modelled.
-/

namespace Slim

/-! ## The replay filter -/

def MAX_SEEN_CONTROL_MESSAGE_SENDERS_SIZE : Nat := 100

/-- What `verify_identity` established about a control message. -/
structure VerifiedControl where
  /-- The subject of the verified identity, if the claims name one. -/
  subject : Option String
  payloadSigned : Bool

structure Checks where
  /-- `verify_identity` of a control message. -/
  verify : Publish → Except SessionError VerifiedControl
  /-- The identity a name is pinned to. -/
  pinned : ProtoName → Option String
  /-- `name_id::app_id`. -/
  appId : String → BitVec 128
  /-- `name_id::is_channel_of`. -/
  isChannelOf : String → ProtoName → ProtoName → Bool
  maxSeenControlMessageIds : Nat
  /-- The cache of the ids that a sender used, and that of the senders. -/
  ids : Lru Nat Unit := .list
  senders : Lru ProtoName ids.Cache := .list

namespace Checks

variable (ck : Checks)

/-- The ids of the control messages seen from each sender. -/
abbrev Seen := ck.senders.Cache

def tokenInvalid : SessionError := .Auth "TokenInvalid"

/-- The part that holds a name to the verified identity. -/
def checkIdentity (st : SessionSettings) (msg : Publish) (verified : VerifiedControl) :
    Prog ck.Seen SessionError Unit := do
  if !verified.payloadSigned ∧ st.identityBinding.mismatch then Prog.throw tokenInvalid else
  match verified.subject with
  | none => pure ()
  | some sub =>
    let sourceId ← Prog.expect "encoded name missing" msg.source.id
    if sourceId ≠ ck.appId sub ∧ st.identityBinding.mismatch then Prog.throw tokenInvalid
    else if msg.type = .JoinRequest ∧ st.config.sessionType = .Multicast ∧
        !ck.isChannelOf sub st.destination st.control ∧ st.identityBinding.mismatch then
      Prog.throw tokenInvalid
    else pure ()

/-- An id is accepted once from each sender. -/
def checkReplay (msg : Publish) : Prog ck.Seen SessionError Unit := do
  if msg.id = 0 then Prog.throw tokenInvalid else
  let seen ← Prog.read id
  let ids := (ck.senders.peek seen msg.source).getD (ck.ids.new ck.maxSeenControlMessageIds)
  Prog.modify fun seen => ck.senders.put seen msg.source (ck.ids.put ids msg.id ())
  if (ck.ids.peek ids msg.id).isSome then Prog.throw (.ControlMessageReplay msg.id) else pure ()

def verifyAndCheckReplay (st : SessionSettings) (msg : Publish) :
    Prog ck.Seen SessionError Unit := do
  let command := msg.type.isCommandMessage
  let replying := msg.type = .DiscoveryReply ∨ msg.type = .JoinReply
  let pinned := if replying then ck.pinned msg.source else none
  let required := command && (st.config.mlsSettings.isSome || msg.type = .JoinRequest ||
    pinned.isSome)
  let binding := command && st.identityBinding ≠ .Off
  if !required && !binding then pure () else
  let verified ← match ck.verify msg with
    | .ok verified => pure (some verified)
    | .error e =>
      if required ∨ st.identityBinding.mismatch then Prog.throw e else pure none
  match verified with
  | some verified => if binding then checkIdentity ck st msg verified else pure ()
  | none => pure ()
  if pinned.isSome ∧ verified.bind VerifiedControl.subject ≠ pinned then Prog.throw tokenInvalid
  else if required then checkReplay ck msg else pure ()

end Checks

/-! ## Handlers -/

/-- What the loop needs of a handler with state `σ`. -/
structure MessageHandler (σ : Type) where
  onMessage : SessionMessage → Prog σ SessionError SessionOutput
  needsDrain : σ → Bool
  common : σ → SessionControllerCommon
  mapCommon : (SessionControllerCommon → SessionControllerCommon) → σ → σ
  clear : σ → σ

def SessionModerator.handler {G : Type} (X : MlsLib G) : MessageHandler (SessionModerator G) where
  onMessage := SessionModerator.onMessage X
  needsDrain := SessionModerator.needsDrain
  common := SessionModerator.common
  mapCommon f s := { s with common := f s.common }
  clear s := { s with flushed := [], returned := [] }

def SessionParticipant.handler {G : Type} (X : MlsLib G) :
    MessageHandler (SessionParticipant G) where
  onMessage := SessionParticipant.onMessage X
  needsDrain := SessionParticipant.needsDrain
  common := SessionParticipant.common
  mapCommon f s := { s with common := f s.common }
  clear s := { s with flushed := [], returned := [] }

/-! ## The loop -/

inductive LoopEvent
  | fromApp (msg : Publish) (ackTx : Option AckTx)
  | fromSlim (msg : Publish)
  | sendFailed (error : SessionError)
  | timeout (messageId : Nat) (messageType : SessionMessageType) (name : Option EncodedName)
  | failure (messageId : Nat) (messageType : SessionMessageType) (name : Option EncodedName)
  /-- The next message that the session sent to itself. -/
  | own
  /-- The session is asked to close. -/
  | cancel

structure SessionLoop (ck : Checks) (σ : Type) where
  inner : σ
  seen : ck.Seen
  running : Bool
  panicked : Option String
  sent : SessionOutput

namespace SessionLoop

variable {σ : Type} (H : MessageHandler σ) {ck : Checks}

def new (inner : σ) : SessionLoop ck σ where
  inner
  seen := ck.senders.new MAX_SEEN_CONTROL_MESSAGE_SENDERS_SIZE
  running := true
  panicked := none
  sent := []

def draining (l : SessionLoop ck σ) : Bool := (H.common l.inner).processingState = .Draining

/-- Stop once there is nothing left to drain. -/
def exitIfDrained (l : SessionLoop ck σ) : SessionLoop ck σ :=
  if l.draining H ∧ !H.needsDrain l.inner then { l with running := false } else l

/-- Metadata that only the session itself may set. -/
def stripReservedMetadata : SessionMessage → SessionMessage
  | .onMessage msg .North ackTx => .onMessage (msg.removeMetadata PEER_SUBJECT_KEY) .North ackTx
  | m => m

/-- Whose replay cache is dropped once this message is processed. -/
def leaveSender : SessionMessage → Option ProtoName
  | .onMessage msg .North _ =>
    if msg.type = .LeaveRequest then some msg.source
    else if msg.type = .GroupUpdate then
      match msg.extract CommandPayload.asGroupUpdate with
      | .ok payload =>
        if payload.op = GroupUpdateOp.Remove.toInt then payload.participant.bind Participant.name
        else none
      | .error _ => none
    else none
  | _ => none

/-- Have the handler process a message; `fatal` says whether an error ends the loop. -/
def dispatch (fatal : Bool) (m : SessionMessage) (l : SessionLoop ck σ) : SessionLoop ck σ :=
  match H.onMessage m l.inner with
  | (.ok out, inner) =>
    exitIfDrained H
      { l with
        inner
        sent := l.sent ++ out
        seen := match leaveSender m with
          | some sender => ck.senders.pop l.seen sender
          | none => l.seen }
  | (.err _, inner) =>
    if fatal then { l with inner, running := false } else exitIfDrained H { l with inner }
  | (.panic msg, inner) => { l with inner, running := false, panicked := some msg }

/-- A message that passed the checks: while draining, nothing more is taken from the application. -/
def accept (m : SessionMessage) (l : SessionLoop ck σ) : SessionLoop ck σ :=
  match l.draining H, m with
  | true, .onMessage _ .South ackTx =>
    { l with
      inner := H.mapCommon
        (fun c => (SessionControllerCommon.notify ackTx (.error .SessionDrainingDrop) c).2)
          l.inner }
  | draining, m => dispatch H draining m l

variable (ck) in
def process (m : SessionMessage) (l : SessionLoop ck σ) : SessionLoop ck σ :=
  match stripReservedMetadata m with
  | .onMessage msg .North ackTx =>
    match ck.verifyAndCheckReplay (H.common l.inner).settings msg l.seen with
    | (.ok (), seen) => accept H (.onMessage msg .North ackTx) { l with seen }
    | (.err _, seen) => { l with seen }
    | (.panic text, seen) => { l with seen, running := false, panicked := some text }
  | m => accept H m l

/-- The handler at the start of an event: a new environment and empty histories. -/
def begin (env : Env) (l : SessionLoop ck σ) : SessionLoop ck σ :=
  { l with inner := H.clear (H.mapCommon (SessionControllerCommon.withEnv env) l.inner) }

/-- Take the next message that the session sent to itself. -/
def takeOwn (l : SessionLoop ck σ) : Option (SessionMessage × SessionLoop ck σ) :=
  match (H.common l.inner).sender.txSession with
  | [] => none
  | m :: rest =>
    some (m,
      { l with
        inner := H.mapCommon
          (fun c => { c with sender := { c.sender with txSession := rest } }) l.inner })

variable (ck) in
def onEvent (ev : LoopEvent) (l : SessionLoop ck σ) : SessionLoop ck σ :=
  match ev with
  | .fromApp msg ackTx => process H ck (.onMessage msg .South ackTx) l
  | .fromSlim msg => process H ck (.onMessage msg .North none) l
  | .sendFailed error => process H ck (.messageError error) l
  | .timeout messageId messageType name => process H ck (.timerTimeout messageId messageType name) l
  | .failure messageId messageType name => process H ck (.timerFailure messageId messageType name) l
  | .own =>
    match takeOwn H l with
    | some (m, l) => process H ck m l
    | none => l
  | .cancel => if l.draining H then l else dispatch H true .startDrain l

variable (ck) in
def step (l : SessionLoop ck σ) (e : Env × LoopEvent) : SessionLoop ck σ :=
  if l.running then onEvent H ck e.2 (begin H e.1 l) else l

end SessionLoop

end Slim
