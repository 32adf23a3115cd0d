import Slim.Session.Types

/-!
# The sender of control messages

`ControllerSender` sends the control messages of a session and keeps the replies it waits for, and
it counts the heartbeats the other members missed.

`tx_session` is the channel back to the session's own processing loop: `txSession` holds what was
sent on it and not received yet. Timers are not modelled, except that the heartbeat timer has an id,
by which a timeout of an older one is told apart.
-/

namespace Slim

def MAX_MISSED_HEARTBEATS : Nat := 3

structure PendingReply where
  missingReplies : List ProtoName
  /-- To be sent again on a timeout. -/
  message : Publish

structure HeartbeatState where
  missedHeartbeats : AList fun _ : ProtoName => Nat
  /-- Other traffic was sent in this interval. -/
  postponeHeartbeat : Bool
  forceNextHeartbeat : Bool
  timerId : Nat

structure ControllerSender where
  localName : ProtoName
  /-- Set on the first join. -/
  groupName : Option ProtoName
  sessionType : SessionType
  sessionId : Nat
  pendingReplies : AList fun _ : Nat => PendingReply
  heartbeatState : Option HeartbeatState
  groupList : List ProtoName
  txSession : List SessionMessage
  drainingState : DrainStatus

namespace ControllerSender

abbrev M (α : Type) := Prog ControllerSender SessionError α

/-- `timerId` is the random id of the heartbeat timer. -/
def new (localName : ProtoName) (sessionType : SessionType) (sessionId timerId : Nat) :
    ControllerSender where
  localName
  groupName := none
  sessionType
  sessionId
  pendingReplies := ∅
  heartbeatState := some ⟨∅, false, false, timerId⟩
  groupList := [localName]
  txSession := []
  drainingState := .NotDraining

def onHeartbeats (f : HeartbeatState → HeartbeatState) (s : ControllerSender) : ControllerSender :=
  { s with heartbeatState := s.heartbeatState.map f }

/-! ### The group -/

def addParticipant (name : ProtoName) (s : ControllerSender) : ControllerSender :=
  { s with groupList := s.groupList.insert name }.onHeartbeats fun hs =>
    { hs with missedHeartbeats := hs.missedHeartbeats.insert name 0 }

def removeParticipant (name : ProtoName) (s : ControllerSender) : ControllerSender :=
  { s with groupList := s.groupList.erase name }.onHeartbeats fun hs =>
    { hs with missedHeartbeats := hs.missedHeartbeats.erase name }

def setGroupName (name : ProtoName) (s : ControllerSender) : ControllerSender :=
  { s with groupName := some name }

variable (s : ControllerSender)

def others : List ProtoName := s.groupList.filter (· ≠ s.localName)

/-! ### Heartbeats -/

def stopHeartbeat : ControllerSender → ControllerSender :=
  onHeartbeats fun hs => { hs with missedHeartbeats := ∅ }

/-- `timerId` is the random id of the new timer. -/
def restartHeartbeat (timerId : Nat) (s : ControllerSender) : ControllerSender :=
  s.onHeartbeats fun hs =>
    { hs with
      timerId
      missedHeartbeats := s.others.foldl (fun m name => m.insert name 0) hs.missedHeartbeats }

/-- Only the counter of a member that is tracked already is reset. -/
def onHeartbeatReceived (message : Publish) : ControllerSender → ControllerSender :=
  onHeartbeats fun hs =>
    if (hs.missedHeartbeats.lookup message.source).isSome then
      { hs with missedHeartbeats := hs.missedHeartbeats.insert message.source 0 }
    else hs

def notifySentActivity : ControllerSender → ControllerSender :=
  onHeartbeats fun hs => { hs with postponeHeartbeat := true }

def notifyReceivedActivity (message : Publish) : ControllerSender → ControllerSender :=
  onHeartbeatReceived message

def forceHeartbeat : ControllerSender → ControllerSender :=
  onHeartbeats fun hs => { hs with forceNextHeartbeat := true, postponeHeartbeat := false }

/-! ### Messages and replies -/

def onSendMessage (message : Publish) (missingReplies : List ProtoName) : M SessionOutput := do
  Prog.modify fun s =>
    { s with pendingReplies := s.pendingReplies.insert message.id ⟨missingReplies, message⟩ }
  Prog.modify fun s =>
    if s.groupName = some message.destination then s.notifySentActivity else s
  pure [.toSlim message]

/-- A discovery goes to any instance, so that its reply comes from a name with another id. -/
def withoutId (name : ProtoName) : M ProtoName := Prog.expect "encoded name missing" name.resetId

def onReplyMessage (message : Publish) : M Unit := do
  let s ← Prog.read id
  match s.pendingReplies.lookup message.id with
  | none => pure ()
  | some pending =>
    let name ← if message.type = .DiscoveryReply then withoutId message.source
      else pure message.source
    let missingReplies := pending.missingReplies.erase name
    Prog.modify fun s =>
      { s with
        pendingReplies :=
          if missingReplies.isEmpty then s.pendingReplies.erase message.id
          else s.pendingReplies.insert message.id { pending with missingReplies } }

def onMessage (message : Publish) : M SessionOutput := do
  let s ← Prog.read id
  if s.drainingState = .Completed then Prog.throw .SessionDrainingDrop
  else
    match message.type with
    | .DiscoveryRequest | .JoinRequest | .LeaveRequest | .GroupWelcome | .RejoinRequest =>
      if s.drainingState = .Initiated then Prog.throw .SessionDrainingDrop
      else
        let name ← if message.type = .DiscoveryRequest then withoutId message.destination
          else pure message.destination
        onSendMessage message [name]
    | .DiscoveryReply | .JoinReply | .LeaveReply | .GroupAck | .RejoinReply | .GroupNack =>
      onReplyMessage message
      pure []
    | .Heartbeat =>
      Prog.modify (onHeartbeatReceived message)
      pure []
    | .GroupUpdate =>
      let payload ← message.read CommandPayload.asGroupUpdate
      if payload.op = GroupUpdateOp.Add.toInt then
        -- the new member does not get this message
        let participant ← Prog.okOr .MissingNewParticipantInGroupAdd payload.participant
        let name ← Prog.ofExcept (SessionError.ofMessage participant.getName)
        onSendMessage message (s.others.erase name)
      else onSendMessage message s.others
    | .GroupClose | .UpdateParticipantState => onSendMessage message s.others
    | .GroupProposal => Prog.panic "not yet implemented"
    | _ => pure []

def isStillPending (messageId : Nat) : Bool :=
  (s.pendingReplies.lookup messageId).isSome

/-! ### Timers -/

/-- Report one silent member to the loop; without room in the channel it is tried again. -/
def reportOffline (room : ProtoName → Bool) (s : ControllerSender) (name : ProtoName) :
    ControllerSender :=
  if room name then
    { s with txSession := s.txSession ++ [SessionMessage.participantDisconnected (some name)]
      }.onHeartbeats fun hs => { hs with missedHeartbeats := hs.missedHeartbeats.erase name }
  else s

/-- Count a missed heartbeat for everybody that is tracked. -/
def countMissed (hs : HeartbeatState) : HeartbeatState :=
  { hs with
    missedHeartbeats := hs.missedHeartbeats.keys.foldl
      (fun m name => m.insert name ((hs.missedHeartbeats.lookup name).getD 0 + 1))
      hs.missedHeartbeats }

def offline (hs : HeartbeatState) : List ProtoName :=
  hs.missedHeartbeats.keys.filter fun name =>
    MAX_MISSED_HEARTBEATS ≤ (hs.missedHeartbeats.lookup name).getD 0

def allPeersOffline : Bool :=
  s.groupList.isEmpty || (s.groupList.length == 1 && s.groupList.contains s.localName)

/-- Sent with the epoch; the largest one stands for a session without MLS. -/
def heartbeat (groupName : ProtoName) (draw : Nat) (epoch : UInt64) :
    Publish where
  source := s.localName
  destination := groupName
  flags := if s.sessionType = .Multicast then { fanout := 256 } else {}
  session := ⟨s.sessionType.toWire, SessionMessageType.Heartbeat.toWire, s.sessionId, draw⟩
  payload := some (.commandPayload (some (.heartbeat epoch)))

/-- A tick of the heartbeat timer, with state `hs`. -/
def heartbeatTick (room : ProtoName → Bool) (draw : Nat) (epoch : UInt64) (hs : HeartbeatState) :
    M SessionOutput := do
  let counted := countMissed hs
  Prog.modify fun s =>
    (offline counted).foldl (reportOffline room) { s with heartbeatState := some counted }
  let s ← Prog.read id
  let shouldSend := !hs.postponeHeartbeat || hs.forceNextHeartbeat || s.allPeersOffline
  Prog.modify (onHeartbeats fun hs =>
    { hs with postponeHeartbeat := false, forceNextHeartbeat := false })
  match s.groupName with
  | some groupName =>
    pure (if shouldSend then [.toSlim (s.heartbeat groupName draw epoch)] else [])
  | none => pure []

def handleHeartbeatTimeout (room : ProtoName → Bool) (draw id : Nat) (mlsEpoch : Option UInt64) :
    M SessionOutput := do
  let s ← Prog.read fun s => s
  match s.heartbeatState with
  | some hs =>
    if hs.timerId = id then heartbeatTick room draw (mlsEpoch.getD (UInt64.ofNat (2 ^ 64 - 1))) hs
    else pure []
  | none => pure []

def onTimerTimeout (room : ProtoName → Bool) (draw id : Nat) (messageType : SessionMessageType)
    (mlsEpoch : Option UInt64) : M SessionOutput := do
  let s ← Prog.read fun s => s
  if s.heartbeatState.isSome ∧ messageType = .Heartbeat then
    handleHeartbeatTimeout room draw id mlsEpoch
  else
    match s.pendingReplies.lookup id with
    | some pending => pure [.toSlim pending.message]
    | none => Prog.throw (.TimerNotFound id)

/-- Give up on a message: who did not reply. -/
def onFailure (id : Nat) : M (List ProtoName) := do
  let s ← Prog.read fun s => s
  Prog.modify fun s => { s with pendingReplies := s.pendingReplies.erase id }
  pure (((s.pendingReplies.lookup id).map PendingReply.missingReplies).getD [])

/-! ### Draining -/

def clearTimers : ControllerSender := { s with pendingReplies := ∅ }

def startDrain : ControllerSender := { s with drainingState := .Initiated }

def drainCompleted : Bool :=
  s.drainingState = .Completed ∨ s.drainingState = .Initiated ∧ s.pendingReplies.keys.isEmpty

def close : ControllerSender :=
  { s.clearTimers with drainingState := .Completed }

end ControllerSender

end Slim
