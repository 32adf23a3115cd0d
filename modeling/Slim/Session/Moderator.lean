import Slim.Session.Common
import Slim.Session.ModeratorTask

/-!
# The moderator of a session

`SessionModerator` invites and removes the members of a group. It works on one task at a time; what
is asked of it meanwhile waits in `tasks_todo`, and the end of a task sends the next one back to the
processing loop (`pop_task`).

The persisted snapshot is not modelled: it is written, and read only by a restore. `flushed` and
`returned` are histories of one event: what `add_endpoint` flushed, and what the handler returned.
-/

namespace Slim

open CommandPayload ControllerSender MlsModeratorState ModeratorTask Prog SessionControllerCommon

structure SessionModerator (G : Type) where
  tasksTodo : List (Publish × Option AckTx)
  currentTask : Option ModeratorTask
  mlsState : Option (MlsModeratorState G)
  /-- By name without an id. -/
  groupList : Roster
  common : SessionControllerCommon
  /-- A leave request that waits for the acknowledgements of its group update. -/
  postponedMessage : Option Publish
  subscribed : Bool
  connId : Option ConnId
  inner : Session
  flushed : SessionOutput
  returned : SessionOutput

namespace SessionModerator

variable {G : Type}

abbrev M (G α : Type) := Prog (SessionModerator G) SessionError α

/-- `new` and `init`; `mls` is the state of the library for a session with MLS. -/
def new (settings : SessionSettings) (env : Env) (mls : G) : SessionModerator G where
  tasksTodo := []
  currentTask := none
  mlsState := settings.config.mlsSettings.map fun percent =>
    { common :=
        { mls
          headerIntegrityValidationPercent := percent
          identityBinding := settings.identityBinding } }
  groupList := ∅
  common := .new settings env
  postponedMessage := none
  subscribed := false
  connId := none
  inner := .new settings.id settings.config settings.source settings.direction
  flushed := []
  returned := []

/-! ## The parts of a moderator -/

def unwrapNone : String := "called `Option::unwrap()` on a `None` value"

def onCommon {α : Type} (x : SessionControllerCommon.M α) : M G α :=
  zoom common (fun c s => { s with common := c }) x

def onSender {α : Type} (x : ControllerSender.M α) : M G α :=
  onCommon (SessionControllerCommon.onSender x)

def modifySender (f : ControllerSender → ControllerSender) : M G Unit :=
  onCommon (SessionControllerCommon.modifySender f)

def onInner {α : Type} (x : Session.M α) : M G α :=
  zoom inner (fun i s => { s with inner := i }) x

def onRoster {α : Type} (x : Prog Roster SessionError α) : M G α :=
  zoom groupList (fun g s => { s with groupList := g }) x

def modifyRoster (f : Roster → Roster) : M G Unit :=
  Prog.modify fun s => { s with groupList := f s.groupList }

def onMls {α : Type} (x : MlsModeratorState.M G α) : M G (Option α) := fun s =>
  match s.mlsState with
  | none => (.ok none, s)
  | some st =>
    match x st with
    | (.ok a, st') => (.ok (some a), { s with mlsState := some st' })
    | (.err e, st') => (.err e, { s with mlsState := some st' })
    | (.panic msg, st') => (.panic msg, { s with mlsState := some st' })

def random : M G Nat := onCommon SessionControllerCommon.random

def settings : M G SessionSettings := Prog.read fun s => s.common.settings

def withoutId (name : ProtoName) : M G ProtoName := expect "encoded name missing" name.resetId

/-- A phase function of the current task, which is expected to be there. -/
def onTask (f : ModeratorTask → Result) : M G Unit := do
  let current ← Prog.read currentTask
  let task ← expect unwrapNone current
  let (task, acks) ← ofExcept (f task)
  Prog.modify fun s =>
    { s with
      currentTask := some task
      common := { s.common with acks := s.common.acks ++ acks } }

def setTask (task : Option ModeratorTask) : M G Unit :=
  Prog.modify fun s => { s with currentTask := task }

def control (dst : ProtoName) (t : SessionMessageType) (messageId : Nat)
    (payload : CommandPayload) : M G Publish :=
  Prog.read fun s => s.common.createControlMessage dst t messageId payload false

/-! ## Endpoints -/

def addEndpoint (endpoint : Participant) : M G SessionOutput := do
  let name ← expect unwrapNone endpoint.name
  modifySender (ControllerSender.addParticipant name)
  let out ← onInner (Session.addEndpoint endpoint)
  Prog.modify fun s => { s with flushed := s.flushed ++ out }
  pure out

def removeEndpoint (endpoint : ProtoName) : M G Unit := do
  modifySender (ControllerSender.removeParticipant endpoint)
  onInner (Session.removeEndpoint endpoint)

/-! ## Tasks -/

/-- Start the next queued task, unless there is a current one: it goes back to the loop. -/
def popTask : M G Unit := do
  let s ← Prog.read id
  if s.currentTask.isSome then pure ()
  else
    match s.tasksTodo with
    | [] => pure ()
    | (msg, ackTx) :: rest =>
      Prog.modify fun s => { s with tasksTodo := rest }
      onCommon (sendSession (.onMessage msg .South ackTx))

def taskDone : M G Unit := do
  let current ← Prog.read currentTask
  let task ← expect unwrapNone current
  if !task.taskComplete then pure ()
  else
    setTask none
    popTask

variable (X : MlsLib G) (msg : Publish)

/-- Put a request off until the current task has ended. -/
def enqueue (ackTx : Option AckTx) : M G Unit :=
  Prog.modify fun s => { s with tasksTodo := s.tasksTodo ++ [(msg, ackTx)] }

/-- End the current task with an error, and tell who asked for it. -/
def handleTaskError (error : SessionError) : M G SessionError := do
  let current ← Prog.read currentTask
  onCommon (notify (current.bind ModeratorTask.ackTx)
    (.error (.SessionCleanupFailed error)))
  setTask none
  pure error

def failTaskAndContinue (error : SessionError) : M G SessionError := do
  let error ← handleTaskError error
  ignoreErr popTask
  pure error

/-! ## Invitations -/

def onDiscoveryRequest (ackTx : Option AckTx) : M G SessionOutput := do
  let s ← Prog.read id
  if s.currentTask.isSome then
    enqueue msg ackTx
    pure []
  else
    let invited := msg.destination
    setTask (some (.Add { ackTx, invited := some invited }))
    if (s.groupList.lookup invited).isSome then
      let error ← handleTaskError (.ParticipantAlreadyInGroup invited)
      Prog.throw error
    else
      let messageId ← random
      (onTask (discoveryStart messageId)).mapErr handleTaskError
      (onSender (onMessage (msg.setMessageId messageId))).mapErr handleTaskError

/-- Whether to drop a discovery reply that is not from the invited name. -/
def rejectsDiscoveryReply : M G Bool := do
  let s ← Prog.read id
  match (s.currentTask.bind asAdd).bind AddParticipant.invited with
  | none => pure false
  | some invited =>
    let invitedId ← expect "encoded name missing" invited.id
    let idMatches ← if invitedId = NameId.NULL_COMPONENT then pure true
      else do
        let sourceId ← expect "encoded name missing" msg.source.id
        pure (decide (invitedId = sourceId))
    let prefixMatches ← expect "encoded name missing" (invited.matchPrefix msg.source)
    pure (!(prefixMatches && idMatches) && s.common.settings.identityBinding.mismatch)

/-- Subscribe to the channel and create the group, once. -/
def join (remote : ProtoName) (conn : ConnId) : M G Unit := do
  let s ← Prog.read id
  if s.subscribed then pure ()
  else
    Prog.modify fun s => { s with subscribed := true, connId := some conn }
    if s.common.settings.config.sessionType = .PointToPoint then
      onCommon
        (Prog.modify fun c => { c with settings := { c.settings with destination := remote } })
    else
      onCommon (addSubscription s.common.settings.destination conn)
      onCommon (addSubscription s.common.settings.control conn)
    let _ ← onMls (initModerator X)
    let settings ← settings
    let localNoId ← withoutId settings.source
    modifyRoster fun g => g.insert localNoId
      (.new settings.source settings.direction.toParticipantSettings)

/-- The payload of a join request; the channel's names are sent for a multicast session. -/
def joinRequestPayload (settings : SessionSettings) : CommandPayload :=
  let multicast := settings.config.sessionType = .Multicast
  .joinRequest
    (match settings.config.interval, settings.config.maxRetries with
      | some t, some m => some ⟨t % 2 ^ 32, m⟩
      | _, _ => none)
    (if multicast then some settings.destination else none)
    (if multicast then some settings.control else none)
    settings.config.mlsSettings

def onDiscoveryReplyInner : M G SessionOutput := do
  let rejected ← rejectsDiscoveryReply msg
  if rejected then pure [] else
  let output ← onSender (onMessage msg)
  onTask (discoveryComplete msg.id)
  let conn ← expect "incoming connection not found" msg.incomingConn
  join X msg.source conn
  onCommon (addRoute msg.source conn)
  let st ← settings
  if st.config.sessionType = .Multicast then
    -- replies may come in on different connections, so this is done every time
    onCommon (addRoute st.destination conn)
    onCommon (addRoute st.control conn)
    modifySender (setGroupName st.control)
  else modifySender (setGroupName st.destination)
  let messageId ← random
  Prog.modify fun s =>
    { s with
      currentTask := s.currentTask.map fun
        | .Add add => .Add { add with joining := some msg.source }
        | task => task }
  let sent ← onCommon (sendControlMessage msg.source .JoinRequest messageId
    (joinRequestPayload st) st.config.metadata false)
  onTask (joinStart messageId)
  pure (output ++ sent)

def onDiscoveryReply : M G SessionOutput :=
  (onDiscoveryReplyInner X msg).mapErr failTaskAndContinue

def sameName (a b : ProtoName) : M G Bool := expect "encoded name missing" (a.sameName b)

/-- Whether to drop a join reply that is not from the invited peer: it comes from the name the join
request went to, names that participant, and with MLS its key package derives that name's id. -/
def rejectsJoinReply : M G Bool := do
  let s ← Prog.read id
  let mode := s.common.settings.identityBinding
  if mode = .Off then pure false else
  let elsewhere ← match (s.currentTask.bind asAdd).bind AddParticipant.joining with
    | some joining => (fun same => !same) <$> sameName joining msg.source
    | none => pure false
  if elsewhere then pure mode.mismatch else
  let named := match msg.extract asJoinReply with
    | .ok reply => reply.participant.bind Participant.name
    | .error _ => none
  let own ← match named with
    | some named => sameName named msg.source
    | none => pure false
  if !own then pure mode.mismatch else
  let identity ← onMls (joinerIdentity X msg)
  match identity with
  | none => pure false
  | some identity =>
    let sourceId ← expect "encoded name missing" msg.source.id
    if X.appId identity ≠ sourceId then pure mode.mismatch else pure false

/-- The commit and the welcome for a joiner, of a session with MLS. -/
def addToMls : M G (Option MlsPayload × Option MlsPayload) := do
  let added ← onMls (MlsModeratorState.addParticipant X msg)
  match added with
  | none => pure (none, none)
  | some (commit, welcome) =>
    let commitId ← onMls getNextMlsMsgId
    pure (commitId.map fun id => ⟨id, commit⟩, commitId.map fun id => ⟨id, welcome⟩)

/-- No group update is sent: the commit phase counts as done. Any id would do, as long as it is the
same one. -/
def skipCommit : M G Unit := do
  onTask (commitStart 12345)
  onTask (updatePhaseCompleted 12345)

def sendGroupUpdate (op : GroupUpdateOp) (participant : Participant)
    (participants : List Participant) (mls : Option MlsPayload) : M G (Nat × SessionOutput) := do
  let messageId ← random
  let st ← settings
  let output ← onCommon (sendControlMessage st.control .GroupUpdate messageId
    (.groupUpdate ⟨op.toInt, some participant, participants, mls⟩) [] true)
  pure (messageId, output)

def onJoinReplyInner : M G SessionOutput := do
  let rejected ← rejectsJoinReply X msg
  if rejected then pure [] else
  let output ← onSender (onMessage msg)
  onTask (joinComplete msg.id)
  let reply ← msg.read asJoinReply
  let participant ← okOr .MissingParticipantSettings reply.participant
  let name ← ofExcept (SessionError.ofMessage participant.getName)
  -- before the roster changes, so that a rejected key package leaves nothing half added
  let (commit, welcome) ← addToMls X msg
  let _ ← addEndpoint participant
  let nameNoId ← withoutId name
  modifyRoster fun g => g.insert nameNoId participant
  let participants ← Prog.read fun s => s.groupList.values
  let updated ← if 2 < participants.length then do
      let (messageId, updated) ← sendGroupUpdate .Add participant participants commit
      onTask (commitStart messageId)
      pure updated
    else do
      skipCommit
      pure []
  let welcomeId ← random
  let welcomed ← onCommon (sendControlMessage msg.source .GroupWelcome
    welcomeId (.groupWelcome ⟨participants, welcome⟩) [] false)
  onTask (welcomeStart welcomeId)
  pure (output ++ updated ++ welcomed)

def onJoinReply : M G SessionOutput :=
  (onJoinReplyInner X msg).mapErr failTaskAndContinue

/-! ## Removals -/

/-- Returns the member, the roster before, and the commit of a session with MLS. -/
def removeParticipantAndComputeMls (participant : ProtoName) (msg : Publish) :
    M G (Participant × List Participant × Option MlsPayload) := do
  let participants ← Prog.read fun s => s.groupList.values
  let nameNoId ← withoutId participant
  let entry ← Prog.read fun s => s.groupList.lookup nameNoId
  modifyRoster fun g => g.erase nameNoId
  let removed ← expect unwrapNone entry
  removeEndpoint participant
  let commit ← (onMls (MlsModeratorState.removeParticipant X msg)).mapErr handleTaskError
  match commit with
  | none => pure (removed, participants, none)
  | some commit =>
    let commitId ← onMls getNextMlsMsgId
    pure (removed, participants, commitId.map fun id => ⟨id, commit⟩)

/-- `with_id`, of a name with an encoding. -/
def withId (name : ProtoName) (id : BitVec 128) : M G ProtoName :=
  if name.name.isSome then pure (name.withId id) else Prog.panic "encoded name missing"

def onLeaveRequest (ackTx : Option AckTx) : M G SessionOutput := do
  let s ← Prog.read id
  if s.currentTask.isSome then
    enqueue msg ackTx
    pure []
  else
    setTask (some (.Remove { ackTx }))
    match s.groupList.lookup msg.destination with
    | none =>
      let error ← handleTaskError (.ParticipantNotFound msg.destination)
      Prog.throw error
    | some entry =>
      let name ← ofExcept (SessionError.ofMessage entry.getName)
      let entryId ← expect "encoded name missing" name.id
      let dst ← withId msg.destination entryId
      let messageId ← random
      let leave := (msg.setDestination dst).setMessageId messageId
      let (removed, participants, mls) ← removeParticipantAndComputeMls X dst leave
      if 2 < participants.length then
        let (updateId, output) ← sendGroupUpdate .Remove removed participants mls
        onTask (commitStart updateId)
        -- the leave request follows the acknowledgements of the update
        Prog.modify fun s => { s with postponedMessage := some leave }
        pure output
      else
        skipCommit
        let output ← onSender (onMessage leave)
        onTask (leaveStart leave.id)
        pure output

/-- Drain: drop the MLS state, the queue and the timers. -/
def prepareShutdown : M G Unit := do
  Prog.modify fun s =>
    { s with
      common := { s.common with processingState := .Draining }
      mlsState := none
      tasksTodo := [] }
  modifySender clearTimers
  onInner (Prog.modify Session.startDrain)
  modifySender startDrain

/-- A member left: it said so (`LEAVING_SESSION`), or this request was put off after the reply to it
was sent (`LEAVE_REPLY_SENT`). -/
def onDisconnectionDetected (ackTx : Option AckTx) : M G SessionOutput := do
  let leaving := msg.containsMetadata LEAVING_SESSION
  let disconnected := if leaving then msg.source else msg.destination
  let nameNoId ← withoutId disconnected
  let s ← Prog.read id
  if (s.groupList.lookup nameNoId).isNone then pure [] else
  let error : OutboundMessage := .toApp (.error (.ParticipantDisconnected disconnected))
  let reply ← control disconnected .LeaveReply msg.id .leaveReply
  if leaving then modifySender (ControllerSender.removeParticipant disconnected)
  let output : SessionOutput := if leaving then [error, .toSlim reply] else [error]
  -- from here on as if the moderator had found out by itself
  let msg := if leaving then
      { (msg.removeMetadata LEAVING_SESSION).insertMetadata LEAVE_REPLY_SENT TRUE_VAL with
        destination := disconnected
        source := s.common.settings.source }
    else msg
  if s.common.settings.config.sessionType = .PointToPoint ∨ s.groupList.keys.length = 2 then
    prepareShutdown
    removeEndpoint msg.destination
    pure output
  else if s.currentTask.isSome then
    enqueue msg ackTx
    pure output
  else
    setTask (some (.CloseOrDisconnect { ackTx }))
    let (removed, participants, mls) ← removeParticipantAndComputeMls X disconnected msg
    let (messageId, updated) ← sendGroupUpdate .Remove removed participants mls
    onTask (commitStart messageId)
    pure (output ++ updated)

def fullNames : List (Sigma fun _ : ProtoName => Participant) → M G (List ProtoName)
  | [] => pure []
  | ⟨key, entry⟩ :: rest => do
    let name ← ofExcept (SessionError.ofMessage entry.getName)
    let entryId ← expect "encoded name missing" name.id
    let full ← withId key entryId
    let others ← fullNames rest
    pure (full :: others)

def deleteAll (ackTx : Option AckTx) : M G SessionOutput := do
  prepareShutdown
  let g ← Prog.read groupList
  let participants ← fullNames g.entries
  if participants.length = 1 then pure []
  else
    let closeId ← random
    let close ← Prog.read fun s => s.common.createControlMessage s.common.settings.control
      .GroupClose closeId (.groupClose participants) true
    setTask (some (.CloseOrDisconnect { ackTx }))
    onTask (commitStart closeId)
    onSender (onMessage close)

def onLeaveReply : M G SessionOutput := do
  let conn ← expect "incoming connection not found" msg.incomingConn
  onCommon (deleteRoute msg.source conn)
  let output ← onSender (onMessage msg)
  let pending ← Prog.read fun s => s.common.sender.isStillPending msg.id
  if !pending then onTask (leaveComplete msg.id)
  taskDone
  pure output

/-! ## Members that come and go -/

def epoch (s : SessionModerator G) : Option UInt64 :=
  s.mlsState.bind fun st => X.epoch st.common.mls

def onHeartbeat : M G SessionOutput := do
  let nameNoId ← withoutId msg.source
  let s ← Prog.read id
  match s.groupList.lookup nameNoId with
  | none => pure []
  | some entry =>
    if entry.name ≠ some msg.source then pure []
    else if entry.isOnline then onSender (onMessage msg)
    else
      let remote ← msg.read asHeartbeat
      modifySender forceHeartbeat
      if (s.epoch X).all (· = remote) then
        let participant := entry.setStatus .Online
        modifyRoster fun g => g.insert nameNoId participant
        let _ ← addEndpoint participant
        onSender (onMessage msg)
      else pure []

/-- The payload of a state update; without a content there is an error of its own. -/
def statePayload (context : String) (msg : Publish) : M G UpdateParticipantStatePayload := do
  let _ ← okOr (.MissingPayload context) msg.payload
  msg.read asUpdateParticipantState

def stateOf (context : String) (state : Int) : M G ParticipantState :=
  okOr (.MissingPayload context) (ParticipantState.ofInt state)

def onUpdateParticipantStateFromSlim : M G SessionOutput := do
  let payload ← statePayload "update_participant_state" msg
  let name ← okOr (.MissingPayload "update_participant_state: missing participant name")
    payload.participant
  let st ← settings
  if name = st.source then pure [] else
  -- the peer may have come back over another connection
  match msg.incomingConn with
  | some conn => onCommon (addRoute msg.source conn)
  | none => pure ()
  let state ← stateOf "update_participant_state: invalid participant state" payload.newState
  let nameNoId ← withoutId name
  let s ← Prog.read id
  let ack ← control msg.source .GroupAck msg.id .groupAck
  let nack ← control msg.source .GroupNack msg.id .groupNack
  match s.groupList.lookup nameNoId, state with
  | none, _ => pure []
  | some entry, .Offline =>
    if !entry.isOnline then pure []
    else
      modifyRoster (Roster.setStatus nameNoId .Offline)
      removeEndpoint name
      pure [.toSlim ack]
  | some entry, .Online =>
    if !(s.epoch X).all (· = payload.epoch) then pure [.toSlim nack]
    else
      let participant := entry.setStatus .Online
      modifyRoster fun g => g.insert nameNoId participant
      let _ ← addEndpoint participant
      pure [.toSlim ack]

/-- The moderator itself goes offline or comes back; one such change at a time. -/
def onUpdateParticipantStateFromApp (ackTx : Option AckTx) : M G SessionOutput := do
  let s ← Prog.read id
  if s.common.pendingStatusUpdate.isSome ∨ s.currentTask.isSome then
    Prog.throw .StatusChangeInProgress
  else
    setTask (some .UpdateLocalStatus)
    let payload ← statePayload "update_participant_state_from_app" msg
    let status ← stateOf "update_participant_state: invalid state" payload.newState
    -- on a return everybody counts as offline until the acknowledgement comes
    if status = .Online then modifyRoster (Roster.mapValues fun p => p.setStatus .Offline)
    onCommon (Prog.modify fun c =>
      { c with pendingStatusUpdate := some ⟨msg.id, .UpdateParticipantState, status, ackTx⟩ })
    onCommon (sendControlMessage s.common.settings.control
      .UpdateParticipantState msg.id
      (.updateParticipantState ⟨some s.common.settings.source, status.toInt, (s.epoch X).getD 0⟩)
      [] true)

/-- The commit id, the welcome and the commit of a rejoin; nothing without MLS. -/
def rejoinMls (name : ProtoName) (keyPackage : Bytes) : M G (UInt32 × Bytes × Bytes) := do
  let rejoined ← (onMls (rejoinParticipant X name keyPackage)).mapErr
    handleTaskError
  match rejoined with
  | none => pure (0, [], [])
  | some (commit, welcome) =>
    let commitId ← onMls getNextMlsMsgId
    pure (commitId.getD 0, welcome, commit)

def onRejoinRequest : M G SessionOutput := do
  let _ ← okOr (.MissingPayload "rejoin_request") msg.payload
  let payload ← msg.read asRejoinRequest
  let name ← okOr .MalformedParticipant payload.participant
  let nameNoId ← withoutId name
  let s ← Prog.read id
  match s.groupList.lookup nameNoId with
  | none => pure []
  | some entry =>
    -- a member that is online asks for this when its epoch is behind
    if !entry.isOffline ∧ s.mlsState.isNone then pure []
    else if s.currentTask.isSome then pure []
    else
      setTask (some (.Rejoin {}))
      let (commitId, welcome, commit) ← rejoinMls X name payload.keyPackage
      let reply ← control msg.source .RejoinReply msg.id (.rejoinReply ⟨commitId, welcome⟩)
      onTask (welcomeStart msg.id)
      if entry.isOffline then
        modifyRoster fun g => g.insert nameNoId (entry.setStatus .Online)
        let _ ← addEndpoint (entry.setStatus .Online)
      let participants ← Prog.read fun s => s.groupList.values
      let (updateId, updated) ← sendGroupUpdate .Rejoin entry participants
        (if commit.isEmpty then none else some ⟨commitId, commit⟩)
      onTask (commitStart updateId)
      pure (.toSlim reply :: updated)

/-! ## Acknowledgements -/

/-- The moderator has changed its own state. -/
def finishStatusUpdate (pending : PendingStatusUpdate) (roster : Roster → Roster) : M G Unit := do
  match pending.status with
  | .Online =>
    modifyRoster roster
    onCommon (Prog.modify fun c => { c with online := true })
    let timerId ← random
    modifySender (restartHeartbeat timerId)
  | .Offline =>
    onCommon (Prog.modify fun c => { c with online := false })
    modifySender stopHeartbeat
  onCommon (notify pending.ackTx (.ok ()))

def takeStatusUpdate : M G (Option PendingStatusUpdate) := do
  let pending ← Prog.read fun s => s.common.pendingStatusUpdate
  onCommon (Prog.modify fun c => { c with pendingStatusUpdate := none })
  pure pending

/-- The leave request that was put off, now that its group update is acknowledged. -/
def sendPostponed : M G SessionOutput := do
  let s ← Prog.read id
  match s.postponedMessage, s.currentTask with
  | some leave, some (.Remove _) =>
    let output ← onSender (onMessage leave)
    onTask (leaveStart leave.id)
    Prog.modify fun s => { s with postponedMessage := none }
    pure output
  | _, _ => pure []

/-- All acknowledgements of a message of the current task are there. -/
def onAllAcked : M G SessionOutput := do
  onTask (updatePhaseCompleted msg.id)
  let current ← Prog.read currentTask
  let output ← if current.any taskComplete then pure [] else sendPostponed
  taskDone
  pure output

def onGroupAck : M G SessionOutput := do
  let output ← onSender (onMessage msg)
  let s ← Prog.read id
  if s.common.sender.isStillPending msg.id then pure output
  else
    match s.currentTask with
    -- a late acknowledgement of a task that has ended
    | none => pure output
    | some task =>
      if task = .UpdateLocalStatus ∧ s.common.pendingStatusUpdate.isSome then
        let pending ← takeStatusUpdate
        match pending with
        | some pending =>
          finishStatusUpdate pending (Roster.mapValues fun p => p.setStatus .Online)
          setTask none
          popTask
          pure output
        | none => pure output
      else
        let more ← onAllAcked msg
        pure (output ++ more)

/-! ## Failures -/

/-- Who did not answer counts as offline. -/
def markOffline (missing : List ProtoName) : M G Unit := do
  let gone ← onRoster (markMissingOffline true missing)
  each removeEndpoint gone

/-- After a return that not everybody acknowledged. -/
def answered (missing : List ProtoName) (p : Participant) : Participant :=
  match p.name with
  | some name => p.setStatus (if missing.contains name then .Offline else .Online)
  | none => p

def reportFailure (missing : List ProtoName) (error : SessionError) : M G Unit := do
  let current ← Prog.read currentTask
  match current with
  | none => pure ()
  | some task =>
    match task.ackTx with
    | none => pure ()
    | some tx =>
      setTask (some task.ackTxTake)
      if task.partialSuccess then
        markOffline missing
        onCommon (notify (some tx) (.ok ()))
      else
        onCommon (notify (some tx) (.error (task.failureMessage error)))

def handleFailure (messageId : Nat) (error : SessionError) : M G Unit := do
  let missing ← onSender (onFailure messageId)
  let current ← Prog.read currentTask
  if current = some .UpdateLocalStatus then
    let pending ← takeStatusUpdate
    match pending with
    | some pending => finishStatusUpdate pending (Roster.mapValues (answered missing))
    | none => pure ()
  else reportFailure missing error
  setTask none
  popTask

def handleMessageError (error : SessionError) : M G SessionOutput := do
  match error.sessionContext with
  | some ctx =>
    if error.isCommandMessageError then
      handleFailure ctx.messageId error
      pure []
    else onInner (Session.onMessage 0 (.messageError error))
  | none => onInner (Session.onMessage 0 (.messageError error))

/-! ## Messages -/

def processControlMessage (direction : MessageDirection) (ackTx : Option AckTx) :
    M G SessionOutput :=
  match msg.type with
  | .DiscoveryRequest => onDiscoveryRequest msg ackTx
  | .DiscoveryReply => onDiscoveryReply X msg
  | .JoinReply => onJoinReply X msg
  | .LeaveRequest =>
    if msg.containsMetadata LEAVE_REPLY_SENT ∨ msg.containsMetadata LEAVING_SESSION then
      onDisconnectionDetected X msg ackTx
    else onLeaveRequest X msg ackTx
  | .LeaveReply => onLeaveReply msg
  | .GroupAck => onGroupAck msg
  | .Heartbeat => onHeartbeat X msg
  | .UpdateParticipantState =>
    match direction with
    | .North => onUpdateParticipantStateFromSlim X msg
    | .South => onUpdateParticipantStateFromApp X msg ackTx
  | .RejoinRequest => onRejoinRequest X msg
  | .GroupProposal | .JoinRequest | .GroupUpdate | .GroupWelcome | .GroupClose | .GroupNack
  | .RejoinReply => Prog.throw (.SessionMessageTypeUnexpected msg.type)
  | _ => Prog.throw (.SessionMessageTypeUnknown msg.type)

def onData (direction : MessageDirection) (ackTx : Option AckTx) : M G SessionOutput := do
  let st ← settings
  let draw ← random
  if direction = .South then
    modifySender notifySentActivity
    let msg := if st.config.sessionType = .PointToPoint then msg.setDestination st.destination
      else msg
    onInner (Session.onMessage draw (.onMessage msg direction ackTx))
  else
    let decrypted ← onMls (MlsModeratorState.onCommon (MlsState.decryptMessage X draw msg))
    onInner (Session.onMessage draw (.onMessage (decrypted.getD msg) direction ackTx))

/-- Offline, only the moderator's own return and acknowledgements are let through. -/
def allowedOffline (direction : MessageDirection) : Bool :=
  (msg.type = .UpdateParticipantState ∧ direction = .South) ∨ msg.type = .GroupAck

def encryptOutput (output : SessionOutput) : M G SessionOutput := do
  let output ← onCommon (applyIdentity output)
  let s ← Prog.read id
  if s.mlsState.isSome then
    let output ← ofExcept (signAll s.common.env output)
    let encrypted ← onMls (MlsModeratorState.onCommon (MlsState.encryptOutput X output))
    pure (encrypted.getD output)
  else ofExcept (signIfPossible s.common.env output)

/-- `on_message` up to the protection of what leaves. -/
def handle (message : SessionMessage) : M G SessionOutput :=
  match message with
  | .onMessage msg direction ackTx => do
    if direction = .North then modifySender (notifyReceivedActivity msg)
    let online ← Prog.read fun s => s.common.online
    if !online ∧ !allowedOffline msg direction then Prog.throw .ParticipantOffLine
    else if msg.type.isCommandMessage then processControlMessage X msg direction ackTx
    else onData X msg direction ackTx
  | .messageError error => handleMessageError error
  | .timerTimeout messageId messageType name => do
    let s ← Prog.read id
    let draw ← random
    if messageType.isCommandMessage then
      onSender (onTimerTimeout s.common.env.room draw messageId messageType
        (s.epoch X))
    else onInner (Session.onMessage draw (.timerTimeout messageId messageType name))
  | .timerFailure messageId messageType name => do
    if messageType.isCommandMessage then
      handleFailure messageId (.MessageSendRetryFailed messageId)
      pure []
    else
      let missing ← Prog.read fun s => s.inner.missingAcksFor messageId
      markOffline missing
      onInner (Session.onMessage 0 (.timerFailure messageId messageType name))
  | .startDrain => do
    onCommon (Prog.modify fun c => { c with processingState := .Draining })
    -- an id for a leave request that is built and not sent
    let _ ← random
    deleteAll none
  | .participantDisconnected name => do
    let name ← okOr .MissingParticipantNameOnDisconnection name
    let nameNoId ← withoutId name
    modifyRoster (Roster.setStatus nameNoId .Offline)
    removeEndpoint name
    pure []
  | _ => Prog.throw .SessionMessageInternalUnexpected

def onMessage (message : SessionMessage) : M G SessionOutput := do
  let output ← handle X message
  Prog.modify fun s => { s with returned := output }
  encryptOutput X output

def needsDrain (s : SessionModerator G) : Bool :=
  !s.common.sender.drainCompleted || s.inner.needsDrain || !s.tasksTodo.isEmpty

end SessionModerator

end Slim
