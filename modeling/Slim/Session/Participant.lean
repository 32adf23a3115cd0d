import Slim.Session.Common

/-!
# A participant of a session

`SessionParticipant` joins a group it is invited to and follows the moderator's updates of it. Its
roster is by full name.

As for the moderator, the persisted snapshot is not modelled, and `flushed` and `returned` are
histories of one event.
-/

namespace Slim

open CommandPayload ControllerSender Prog SessionControllerCommon SessionError

structure SessionParticipant (G : Type) where
  moderatorName : Option ProtoName
  groupList : Roster
  mlsState : Option (MlsState G)
  common : SessionControllerCommon
  connId : Option ConnId
  subscribed : Bool
  /-- A `LeaveCleanup` is on its way. -/
  pendingLeaveCleanup : Bool
  inner : Session
  flushed : SessionOutput
  returned : SessionOutput

namespace SessionParticipant

variable {G : Type}

abbrev M (G α : Type) := Prog (SessionParticipant G) SessionError α

/-- `new` and `init`; `mls` is the state of the library for a session with MLS. -/
def new (settings : SessionSettings) (env : Env) (mls : G) : SessionParticipant G where
  moderatorName := none
  groupList := ∅
  mlsState := settings.config.mlsSettings.map fun percent =>
    { mls
      headerIntegrityValidationPercent := percent
      identityBinding := settings.identityBinding }
  common := .new settings env
  connId := none
  subscribed := false
  pendingLeaveCleanup := false
  inner := .new settings.id settings.config settings.source settings.direction
  flushed := []
  returned := []

/-! ## The parts of a participant -/

def unwrapNone : String := "called `Option::unwrap()` on a `None` value"

def onCommon {α : Type} (x : SessionControllerCommon.M α) : M G α :=
  zoom common (fun c s => { s with common := c }) x

def onSender {α : Type} (x : ControllerSender.M α) : M G α :=
  onCommon (SessionControllerCommon.onSender x)

def modifySender (f : ControllerSender → ControllerSender) : M G Unit :=
  onCommon (SessionControllerCommon.modifySender f)

def onInner {α : Type} (x : Session.M α) : M G α :=
  zoom inner (fun i s => { s with inner := i }) x

def onRoster {α : Type} (x : Prog Roster SessionError α) : M G α :=
  zoom groupList (fun g s => { s with groupList := g }) x

def modifyRoster (f : Roster → Roster) : M G Unit :=
  Prog.modify fun s => { s with groupList := f s.groupList }

def onMls {α : Type} (x : MlsState.M G α) : M G (Option α) := fun s =>
  match s.mlsState with
  | none => (.ok none, s)
  | some st =>
    match x st with
    | (.ok a, st') => (.ok (some a), { s with mlsState := some st' })
    | (.err e, st') => (.err e, { s with mlsState := some st' })
    | (.panic msg, st') => (.panic msg, { s with mlsState := some st' })

def random : M G Nat := onCommon SessionControllerCommon.random

def settings : M G SessionSettings := Prog.read fun s => s.common.settings

def control (dst : ProtoName) (t : SessionMessageType) (messageId : Nat)
    (payload : CommandPayload) : M G Publish :=
  Prog.read fun s => s.common.createControlMessage dst t messageId payload false

variable (X : MlsLib G) (msg : Publish)

def incomingConn : M G ConnId :=
  expect "incoming connection not found" msg.incomingConn

/-! ## Endpoints -/

def addEndpoint (endpoint : Participant) : M G SessionOutput := do
  let name ← expect unwrapNone endpoint.name
  modifySender (addParticipant name)
  let out ← onInner (Session.addEndpoint endpoint)
  Prog.modify fun s => { s with flushed := s.flushed ++ out }
  pure out

def removeEndpoint (endpoint : ProtoName) : M G Unit := do
  modifySender (removeParticipant endpoint)
  onInner (Session.removeEndpoint endpoint)

/-! ## Joining -/

def onJoinRequest : M G SessionOutput := do
  Prog.modify fun s => { s with moderatorName := some msg.source }
  let conn ← incomingConn msg
  onCommon (addRoute msg.source conn)
  let st ← settings
  modifySender (setGroupName
    (if st.config.sessionType = .Multicast then st.control else st.destination))
  let keyPackage ← onMls (MlsState.generateKeyPackage X)
  let reply ← control msg.source .JoinReply msg.id (.joinReply
    ⟨keyPackage, some (.new st.source st.direction.toParticipantSettings)⟩)
  pure [.toSlim reply]

/-- Subscribe to the channel, once. -/
def join : M G Unit := do
  let s ← Prog.read id
  if s.subscribed then pure ()
  else
    Prog.modify fun s => { s with subscribed := true }
    let conn ← incomingConn msg
    Prog.modify fun s => { s with connId := some conn }
    if s.common.settings.config.sessionType = .PointToPoint then pure ()
    else
      let destination := s.common.settings.destination
      let control := s.common.settings.control
      onCommon (addRoute destination conn)
      onCommon (addSubscription destination conn)
      onCommon (addRoute control conn)
      onCommon (addSubscription control conn)

/-- One member of the welcome's list. -/
def welcomeMember (p : Participant) : M G Unit := do
  let name ← ofExcept (ofMessage p.getName)
  modifyRoster fun g => g.insert name p
  let s ← Prog.read id
  if name = s.common.settings.source then pure ()
  else
    -- the route to the moderator is there since the join request
    if s.moderatorName ≠ some name then
      let conn ← incomingConn msg
      onCommon (addRoute name conn)
    if p.isOnline then
      let _ ← addEndpoint p
      pure ()

def onWelcome : M G SessionOutput := do
  let _ ← onMls (MlsState.processWelcomeMessage X msg)
  join msg
  let _ ← expect unwrapNone msg.payload
  let payload ← msg.read asGroupWelcome
  each (welcomeMember msg) payload.participants
  let ack ← control msg.source .GroupAck msg.id .groupAck
  pure [.toSlim ack]

/-! ## Group updates -/

def onAdded (p : Participant) : M G Unit := do
  let name ← ofExcept (ofMessage p.getName)
  modifyRoster fun g => g.insert name p
  let conn ← incomingConn msg
  onCommon (addRoute name conn)
  let _ ← addEndpoint p
  pure ()

/-- The endpoint leaves the inner layer only. -/
def onRemoved (p : Participant) : M G Unit := do
  let name ← ofExcept (ofMessage p.getName)
  modifyRoster fun g => g.erase name
  let st ← settings
  if name ≠ st.source then
    let conn ← incomingConn msg
    onCommon (deleteRoute name conn)
  onInner (Session.removeEndpoint name)

/-- One member of the list a participant rebuilds its roster from. -/
def rebuildMember (p : Participant) : M G Unit := do
  let name ← ofExcept (ofMessage p.getName)
  let st ← settings
  if p.isOffline then removeEndpoint name
  else if name ≠ st.source then
    let _ ← addEndpoint p
  modifyRoster fun g => g.insert name p

/-- Somebody else is back. -/
def onRejoined (p : Participant) (name : ProtoName) : M G Unit := do
  let entry ← Prog.read fun s => s.groupList.lookup name
  match entry with
  | some _ => modifyRoster (Roster.setStatus name .Online)
  | none =>
    modifyRoster fun g => g.insert name (p.setStatus .Online)
    let conn ← incomingConn msg
    onCommon (addRoute name conn)
    let _ ← addEndpoint p
    pure ()

def applyUpdate (op : GroupUpdateOp) (update : GroupUpdatePayload)
    (isSelfRejoin : Bool) : M G Unit :=
  match update.participant with
  | none => pure ()
  | some p =>
    match op with
    | .Add => onAdded msg p
    | .Remove => onRemoved msg p
    | .Rejoin => do
      let name ← ofExcept (ofMessage p.getName)
      if isSelfRejoin then
        modifyRoster fun _ => ∅
        each rebuildMember update.participants
      else onRejoined msg p name

def onGroupUpdateMessage : M G SessionOutput := do
  let _ ← expect unwrapNone msg.payload
  let update ← msg.read asGroupUpdate
  let op ← okOr (.InvalidGroupUpdateOp update.op) (GroupUpdateOp.ofInt update.op)
  let st ← settings
  -- the welcome of the rejoin reply has done the MLS part of our own rejoin
  let isSelfRejoin :=
    decide (op = .Rejoin ∧ update.participant.bind Participant.name = some st.source)
  let processed ← if isSelfRejoin then pure none
    else onMls (MlsState.processControlMessage X msg st.source)
  if processed = some false then pure []
  else
    applyUpdate msg op update isSelfRejoin
    let ack ← control msg.source .GroupAck msg.id .groupAck
    pure [.toSlim ack]

/-! ## Leaving -/

def onShutdown : M G Unit := do
  Prog.modify fun s => { s with subscribed := false }
  modifySender close
  onInner (Prog.modify Session.close)

def onLeaveRequest : M G SessionOutput := do
  onCommon (Prog.modify fun c => { c with processingState := .Draining })
  let reply ← if msg.type = .GroupClose then do
      -- the group is gone and no acknowledgement will come
      onShutdown
      control msg.source .GroupAck msg.id .groupAck
    else do
      onInner (Prog.modify Session.startDrain)
      modifySender startDrain
      control msg.source .LeaveReply msg.id .leaveReply
  let s ← Prog.read id
  if !s.common.env.sessionLayerOpen then Prog.throw .SessionDeleteMessageSendFailed
  else
    Prog.modify fun s => { s with pendingLeaveCleanup := true }
    onCommon (sendSession .leaveCleanup)
    pure [.toSlim reply]

/-- The route to one member; an error is logged. -/
def forgetMember (name : ProtoName) : M G Unit := do
  let s ← Prog.read id
  if s.moderatorName = some name then pure ()
  else
    let conn ← expect unwrapNone s.connId
    ignoreErr (onCommon (deleteRoute name conn))

def disconnectFromGroup : M G Unit := do
  let s ← Prog.read id
  if s.common.settings.config.sessionType = .PointToPoint then pure ()
  else
    match s.connId with
    | some conn =>
      onCommon (deleteRoute s.common.settings.destination conn)
      onCommon (deleteSubscription s.common.settings.destination conn)
      onCommon (deleteRoute s.common.settings.control conn)
      onCommon (deleteSubscription s.common.settings.control conn)
    | none => pure ()
    each forgetMember s.groupList.keys

def disconnectFromModerator : M G Unit := do
  let s ← Prog.read id
  match s.connId with
  | none => pure ()
  | some conn =>
    let moderator ← expect unwrapNone s.moderatorName
    ignoreErr (onCommon (deleteRoute moderator conn))

/-! ## Members that come and go -/

def epoch (s : SessionParticipant G) : Option UInt64 := s.mlsState.bind fun st => X.epoch st.mls

/-- Ask the moderator for a new welcome; `ackTx` is told how that ends. -/
def requestRejoin (ackTx : Option AckTx) : M G SessionOutput := do
  let keyPackage ← onMls (MlsState.generateKeyPackage X)
  let s ← Prog.read id
  let moderator ← okOr .ModeratorNotFound s.moderatorName
  let messageId ← random
  let request ← control moderator .RejoinRequest messageId
    (.rejoinRequest ⟨some s.common.settings.source, keyPackage.getD []⟩)
  onCommon (Prog.modify fun c =>
    { c with pendingStatusUpdate := some ⟨messageId, .RejoinRequest, .Online, ackTx⟩ })
  onSender (onMessage request)

def onHeartbeat : M G SessionOutput := do
  let s ← Prog.read id
  match s.groupList.lookup msg.source with
  | none => pure []
  | some entry =>
    let remote ← msg.read asHeartbeat
    if (s.epoch X).any (· < remote) then
      -- the group moved on without us
      if s.common.pendingStatusUpdate.isNone then requestRejoin X none else pure []
    else if entry.isOnline then onSender (onMessage msg)
    else
      modifySender forceHeartbeat
      if (s.epoch X).all (· = remote) then
        let participant := entry.setStatus .Online
        modifyRoster fun g => g.insert msg.source participant
        let _ ← addEndpoint participant
        onSender (onMessage msg)
      else pure []

/-- The payload of a state update; without a content there is an error of its own. -/
def statePayload (context : String) (msg : Publish) : M G UpdateParticipantStatePayload := do
  let _ ← okOr (.MissingPayload context) msg.payload
  msg.read asUpdateParticipantState

def stateOf (context : String) (state : Int) : M G ParticipantState :=
  okOr (.MissingPayload context) (ParticipantState.ofInt state)

def onUpdateParticipantStateFromSlim : M G SessionOutput := do
  let payload ← statePayload "update_participant_state" msg
  let name ← okOr (.MissingPayload "update_participant_state: missing participant name")
    payload.participant
  let st ← settings
  if name = st.source then pure [] else
  let state ← stateOf "update_participant_state: invalid participant state" payload.newState
  -- the peer may have come back over another connection
  match msg.incomingConn with
  | some conn => onCommon (addRoute msg.source conn)
  | none => pure ()
  let s ← Prog.read id
  let ack ← control msg.source .GroupAck msg.id .groupAck
  let nack ← control msg.source .GroupNack msg.id .groupNack
  match s.groupList.lookup name, state with
  | none, _ => pure []
  | some entry, .Offline =>
    if entry.isOffline then pure []
    else
      modifyRoster (Roster.setStatus name .Offline)
      removeEndpoint name
      pure [.toSlim ack]
  | some entry, .Online =>
    if !(s.epoch X).all (· = payload.epoch) then pure [.toSlim nack]
    else
      let participant := entry.setStatus .Online
      modifyRoster fun g => g.insert name participant
      let _ ← addEndpoint participant
      pure [.toSlim ack]

/-- The participant itself goes offline or comes back; one such change at a time. -/
def onUpdateParticipantStateFromApp (ackTx : Option AckTx) : M G SessionOutput := do
  let s ← Prog.read id
  if s.common.pendingStatusUpdate.isSome then Prog.throw .StatusChangeInProgress
  else
    let payload ← statePayload "update_participant_state_from_app" msg
    let status ← stateOf "update_participant_state: invalid state" payload.newState
    if status = .Online then modifyRoster (Roster.mapValues fun p => p.setStatus .Offline)
    onCommon (Prog.modify fun c =>
      { c with pendingStatusUpdate := some ⟨msg.id, .UpdateParticipantState, status, ackTx⟩ })
    onCommon (sendControlMessage s.common.settings.control
      .UpdateParticipantState msg.id
      (.updateParticipantState ⟨some s.common.settings.source, status.toInt, (s.epoch X).getD 0⟩)
      [] true)

/-! ## Replies to the participant's own requests -/

def setOnline (online : Bool) : M G Unit := do
  onCommon (Prog.modify fun c => { c with online })
  if online then
    let timerId ← random
    modifySender (restartHeartbeat timerId)
  else modifySender stopHeartbeat

def takeStatusUpdate : M G (Option PendingStatusUpdate) := do
  let pending ← Prog.read fun s => s.common.pendingStatusUpdate
  onCommon (Prog.modify fun c => { c with pendingStatusUpdate := none })
  pure pending

def putBack (pending : PendingStatusUpdate) : M G Unit :=
  onCommon (Prog.modify fun c => { c with pendingStatusUpdate := some pending })

/-- Process the welcome of a rejoin reply: whether that worked. An error is logged. -/
def rejoinWelcome (payload : RejoinReplyPayload) : M G Bool := fun s =>
  match s.mlsState with
  | none => (.ok false, s)
  | some st =>
    if payload.mlsContent.isEmpty then (.ok false, s)
    else
      match X.processWelcome payload.mlsContent st.mls with
      | (.ok group, mls) =>
        (.ok true,
          { s with mlsState := some { st with mls, group, lastMlsMsgId := payload.commitId } })
      | (.error _, mls) => (.ok false, { s with mlsState := some { st with mls } })

def onRejoinReply : M G SessionOutput := do
  let _ ← onSender (onMessage msg)
  let payload ← msg.read asRejoinReply
  let success ← rejoinWelcome X payload
  let pending ← takeStatusUpdate
  match pending with
  | none => pure ()
  | some pending =>
    if pending.messageId = msg.id ∧ pending.status = .Online then
      if success then
        onCommon (notify pending.ackTx (.ok ()))
        setOnline true
      else onCommon (notify pending.ackTx (.error .RejoinFailed))
    else putBack pending
  let ack ← control msg.source .GroupAck msg.id .groupAck
  pure [.toSlim ack]

/-- A status update that is not this message's is dropped when the message is pending no more. -/
def onGroupAck : M G Unit := do
  let _ ← onSender (onMessage msg)
  let s ← Prog.read id
  match s.common.pendingStatusUpdate with
  | none => pure ()
  | some pending =>
    if pending.messageId = msg.id ∧ pending.status = .Online then
      modifyRoster (Roster.setStatus msg.source .Online)
    if s.common.sender.isStillPending msg.id then pure ()
    else
      let _ ← takeStatusUpdate
      if pending.messageId = msg.id then
        onCommon (notify pending.ackTx (.ok ()))
        setOnline (decide (pending.status = .Online))

def onGroupNack : M G SessionOutput := do
  let pending ← takeStatusUpdate
  match pending with
  | none => pure []
  | some pending =>
    if pending.messageId = msg.id ∧ pending.status = .Online then
      let _ ← onSender (onFailure msg.id)
      requestRejoin X pending.ackTx
    else
      putBack pending
      pure []

/-! ## Messages -/

def sameName (a b : ProtoName) : M G Bool := expect "encoded name missing" (a.sameName b)

/-- What only the moderator may send. -/
def moderatorOnly : SessionMessageType → Bool
  | .JoinRequest | .GroupWelcome | .GroupUpdate | .LeaveRequest | .GroupClose | .LeaveReply
  | .RejoinReply => true
  | _ => false

/-- The member a state update is about. -/
def stateUpdateOf : Option ProtoName :=
  match msg.extract asUpdateParticipantState with
  | .ok payload => payload.participant
  | .error _ => none

/-- Whether to drop a control message that comes from another name than it may. -/
def rejectsNonModerator : M G Bool := do
  let s ← Prog.read id
  let mode := s.common.settings.identityBinding
  match s.moderatorName with
  | none => pure false
  | some moderator =>
    if mode = .Off then pure false else
    let fromModerator ← sameName moderator msg.source
    let allowed ← if moderatorOnly msg.type then pure fromModerator
      else if msg.type = .UpdateParticipantState ∧ !fromModerator then
        match stateUpdateOf msg with
        | some participant => sameName participant msg.source
        | none => pure false
      else pure true
    pure (!allowed && mode.mismatch)

def processControlMessage (direction : MessageDirection) (msg : Publish) (ackTx : Option AckTx) :
    M G SessionOutput := do
  let rejected ← if direction = .North then rejectsNonModerator msg else pure false
  if rejected then pure [] else
  match msg.type with
  | .JoinRequest => onJoinRequest X msg
  | .GroupWelcome => onWelcome X msg
  | .GroupUpdate => onGroupUpdateMessage X msg
  | .LeaveRequest | .GroupClose => onLeaveRequest msg
  | .Heartbeat => onHeartbeat X msg
  | .LeaveReply =>
    let state ← Prog.read fun s => s.common.processingState
    if state = .Draining then onSender (onMessage msg) else pure []
  | .UpdateParticipantState =>
    match direction with
    | .North => onUpdateParticipantStateFromSlim X msg
    | .South => onUpdateParticipantStateFromApp X msg ackTx
  | .GroupAck =>
    onGroupAck msg
    pure []
  | .GroupNack => onGroupNack X msg
  | .RejoinReply => onRejoinReply X msg
  | _ => pure []

def onData (direction : MessageDirection) (ackTx : Option AckTx) : M G SessionOutput := do
  let draw ← random
  if direction = .South then
    modifySender notifySentActivity
    onInner (Session.onMessage draw (.onMessage msg direction ackTx))
  else
    let decrypted ← onMls (MlsState.decryptMessage X draw msg)
    onInner (Session.onMessage draw (.onMessage (decrypted.getD msg) direction ackTx))

/-- Offline, only the participant's own return and the replies to it are let through. -/
def allowedOffline (direction : MessageDirection) : Bool :=
  (msg.type = .UpdateParticipantState ∧ direction = .South) ∨ msg.type = .GroupAck ∨
    msg.type = .GroupNack ∨ msg.type = .RejoinReply

def handleMessageError (error : SessionError) : M G SessionOutput := do
  match error.sessionContext with
  | some ctx =>
    if error.isCommandMessageError then
      let _ ← onSender (onFailure ctx.messageId)
      pure []
    else onInner (Session.onMessage 0 (.messageError error))
  | none => onInner (Session.onMessage 0 (.messageError error))

/-- A control message is given up. The status update is taken, whichever message it is of. -/
def handleFailure (messageId : Nat) : M G Unit := do
  let _ ← onSender (onFailure messageId)
  let pending ← takeStatusUpdate
  match pending with
  | none => pure ()
  | some pending =>
    if pending.messageId ≠ messageId then pure ()
    else if pending.messageType = .RejoinRequest then
      onCommon (notify pending.ackTx (.error .RejoinFailed))
    else if pending.messageType = .UpdateParticipantState then
      onCommon (notify pending.ackTx (.ok ()))
      setOnline (decide (pending.status = .Online))
    else pure ()

def markOffline (missing : List ProtoName) : M G Unit := do
  let gone ← onRoster (markMissingOffline false missing)
  each removeEndpoint gone

def onStartDrain : M G SessionOutput := do
  let s ← Prog.read id
  let output ← match s.moderatorName with
    | some moderator => do
      let messageId ← random
      let leave ← control moderator .LeaveRequest messageId .leaveRequest
      disconnectFromGroup
      onSender (onMessage (leave.insertMetadata LEAVING_SESSION TRUE_VAL))
    | none => pure []
  onCommon (Prog.modify fun c => { c with processingState := .Draining })
  onInner (Prog.modify Session.startDrain)
  modifySender startDrain
  pure output

def encryptOutput (output : SessionOutput) : M G SessionOutput := do
  let output ← onCommon (applyIdentity output)
  let s ← Prog.read id
  if s.mlsState.isSome then
    let output ← ofExcept (signAll s.common.env output)
    let encrypted ← onMls (MlsState.encryptOutput X output)
    pure (encrypted.getD output)
  else ofExcept (signIfPossible s.common.env output)

/-- `on_message` up to the protection of what leaves. -/
def handle (message : SessionMessage) : M G SessionOutput :=
  match message with
  | .onMessage msg direction ackTx => do
    let online ← Prog.read fun s => s.common.online
    if !online ∧ !allowedOffline msg direction then Prog.throw .ParticipantOffLine
    else
      if direction = .North then modifySender (notifyReceivedActivity msg)
      if msg.type.isCommandMessage then processControlMessage X direction msg ackTx
      else onData X msg direction ackTx
  | .messageError error => handleMessageError error
  | .timerTimeout messageId messageType name => do
    let s ← Prog.read id
    let draw ← random
    if messageType.isCommandMessage then
      onSender (onTimerTimeout s.common.env.room draw messageId messageType
        (s.epoch X))
    else onInner (Session.onMessage draw (.timerTimeout messageId messageType name))
  | .timerFailure messageId messageType name => do
    if messageType.isCommandMessage then
      handleFailure messageId
      pure []
    else
      let missing ← Prog.read fun s => s.inner.missingAcksFor messageId
      markOffline missing
      onInner (Session.onMessage 0 (.timerFailure messageId messageType name))
  | .startDrain => onStartDrain
  | .participantDisconnected name =>
    match name with
    | none => pure []
    | some name => do
      modifyRoster (Roster.setStatus name .Offline)
      removeEndpoint name
      pure []
  | .leaveCleanup => do
    disconnectFromGroup
    disconnectFromModerator
    Prog.modify fun s => { s with pendingLeaveCleanup := false }
    pure []
  | _ => Prog.throw .SessionMessageInternalUnexpected

def onMessage (message : SessionMessage) : M G SessionOutput := do
  let output ← handle X message
  Prog.modify fun s => { s with returned := output }
  encryptOutput X output

def needsDrain (s : SessionParticipant G) : Bool :=
  s.pendingLeaveCleanup || !s.common.sender.drainCompleted || s.inner.needsDrain

end SessionParticipant

end Slim
