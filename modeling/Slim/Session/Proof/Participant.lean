import Slim.Session.Proof.Frames

/-!
# What a participant's handlers do

One walk through every handler, for all invariants of a participant that are about what it flushed
and its inner layer; everything else is left alone by definition (`view`). As for a moderator, what
adds endpoints and what hands a message to the inner layer is asked for where it is used.
-/

namespace Slim.SessionParticipant

open Prog SessionControllerCommon
open SessionControllerCommon (notify_shown addEntry_shown deleteEntry_shown addRoute_shown
  deleteRoute_shown sendControlMessage_shown)

variable {G : Type}

/-- What was flushed and returned, the inner layer, and the settings. -/
def view (s : SessionParticipant G) :
    (SessionOutput × SessionOutput) × Session × SessionSettings :=
  ((s.flushed, s.returned), s.inner, s.common.fixed)

/-! ## Operations that show nothing -/

section frames
variable {α : Type}

theorem onCommon_view {x : SessionControllerCommon.M α}
    (hx : Frame shown x) : Frame view (onCommon x : M G α) :=
  fun s => congrArg (fun c => ((s.flushed, s.returned), s.inner, c.2)) (hx s.common)

theorem modifyCommon_view {f : SessionControllerCommon → SessionControllerCommon}
    (hf : ∀ c, (f c).fixed = c.fixed) : Frame view (onCommon (Prog.modify f) : M G Unit) :=
  fun s => congrArg (fun c => ((s.flushed, s.returned), s.inner, c)) (hf s.common)

theorem modifySender_view (f : ControllerSender → ControllerSender) :
    Frame view (modifySender f : M G Unit) := fun _ => rfl

theorem onSender_view (x : ControllerSender.M α) : Frame view (onSender x : M G α) :=
  fun _ => rfl

theorem sendSession_view (m : SessionMessage) :
    Frame view (onCommon (sendSession m) : M G Unit) := fun _ => rfl

theorem random_view : Frame view (random : M G Nat) :=
  onCommon_view random_shown

theorem onRoster_view (x : Prog Roster SessionError α) : Frame view (onRoster x : M G α) :=
  fun _ => rfl

theorem onMls_view (x : MlsState.M G α) : Frame view (onMls x) := by
  intro s
  unfold onMls
  cases s.mlsState with
  | none => rfl
  | some st =>
    dsimp only
    rcases x st with ⟨_ | _ | _, st'⟩ <;> rfl

theorem setOnline_view (online : Bool) : Frame view (setOnline online : M G Unit) :=
  .bind (modifyCommon_view fun _ => rfl) fun _ => .ite
    (.bind random_view fun _ => modifySender_view _) (modifySender_view _)

theorem takeStatusUpdate_view : Frame view (takeStatusUpdate : M G _) :=
  .bind (.read _) fun _ => .bind (modifyCommon_view fun _ => rfl) fun _ => .pure _

theorem statePayload_view (context : String) (msg : Publish) :
    Frame view (statePayload context msg : M G _) :=
  .bind (.okOr _ _) fun _ => .ofExcept _

theorem sameName_view (a b : ProtoName) : Frame view (sameName a b : M G Bool) := .expect _ _

variable (X : MlsLib G) (msg : Publish)

theorem onJoinRequest_view : Frame view (onJoinRequest X msg) :=
  .bind (.modify fun _ => rfl) fun _ => .bind (.expect _ _) fun _ =>
    .bind (onCommon_view addRoute_shown) fun _ =>
    .bind (.read _) fun _ => .bind (modifySender_view _) fun _ => .bind (onMls_view _) fun _ =>
    .bind (.read _) fun _ => .pure _

theorem join_view : Frame view (join msg : M G Unit) :=
  .bind (.read _) fun _ => .ite (.pure _) (.bind (.modify fun _ => rfl) fun _ =>
    .bind (.expect _ _) fun _ => .bind (.modify fun _ => rfl) fun _ => .ite (.pure _)
      (.bind (onCommon_view addRoute_shown) fun _ => .bind (onCommon_view addEntry_shown) fun _ =>
        .bind (onCommon_view addRoute_shown) fun _ => onCommon_view addEntry_shown))

theorem forgetMember_view (name : ProtoName) : Frame view (forgetMember name : M G Unit) :=
  .bind (.read _) fun _ =>
    .ite (.pure _) (.bind (.expect _ _) fun _ => .ignoreErr (onCommon_view deleteRoute_shown))

theorem disconnectFromGroup_view : Frame view (disconnectFromGroup : M G Unit) := by
  refine .bind (.read _) fun s => .ite (.pure _) ?_
  cases s.connId with
  | none => exact .each forgetMember_view _
  | some conn =>
    exact .bind (onCommon_view deleteRoute_shown) fun _ => .bind (onCommon_view deleteEntry_shown)
      fun _ =>
      .bind (onCommon_view deleteRoute_shown) fun _ => .bind (onCommon_view deleteEntry_shown)
        fun _ => .each forgetMember_view _

theorem disconnectFromModerator_view : Frame view (disconnectFromModerator : M G Unit) := by
  refine .bind (.read _) fun s => ?_
  cases s.connId with
  | none => exact .pure _
  | some conn => exact .bind (.expect _ _) fun _ => .ignoreErr (onCommon_view deleteRoute_shown)

theorem requestRejoin_view (ackTx : Option AckTx) : Frame view (requestRejoin X ackTx) :=
  .bind (onMls_view _) fun _ => .bind (.read _) fun _ => .bind (.okOr _ _) fun _ =>
    .bind random_view fun _ => .bind (.read _) fun _ => .bind (modifyCommon_view fun _ => rfl)
      fun _ =>
    onSender_view _

theorem onUpdateParticipantStateFromApp_view (ackTx : Option AckTx) :
    Frame view (onUpdateParticipantStateFromApp X msg ackTx) := by
  refine .bind (.read _) fun s => .ite (.throw _) (.bind (statePayload_view _ _) fun payload =>
    .bind (.okOr _ _) fun status => ?_)
  split
  · exact .bind (.modify fun _ => rfl) fun _ => .bind (modifyCommon_view fun _ => rfl) fun _ =>
      onCommon_view sendControlMessage_shown
  · exact .bind (modifyCommon_view fun _ => rfl) fun _ => onCommon_view sendControlMessage_shown

theorem rejoinWelcome_view (payload : RejoinReplyPayload) :
    Frame view (rejoinWelcome X payload) := by
  intro s
  unfold rejoinWelcome
  cases s.mlsState with
  | none => rfl
  | some st =>
    dsimp only
    split
    · rfl
    · rcases X.processWelcome payload.mlsContent st.mls with ⟨_ | _, mls⟩ <;> rfl

theorem onRejoinReply_view : Frame view (onRejoinReply X msg) := by
  refine .bind (onSender_view _) fun _ => .bind (.ofExcept _) fun payload =>
    .bind (rejoinWelcome_view X payload) fun success => .bind takeStatusUpdate_view fun pending =>
      ?_
  have answer : Frame view (do
      let ack ← control msg.source .GroupAck msg.id .groupAck
      pure [.toSlim ack] : M G SessionOutput) := .bind (.read _) fun _ => .pure _
  cases pending with
  | none => exact answer
  | some pending =>
    dsimp only
    split
    · split
      · exact .bind (onCommon_view notify_shown) fun _ => .bind (setOnline_view _) fun _ => answer
      · exact .bind (onCommon_view notify_shown) fun _ => answer
    · exact .bind (modifyCommon_view fun _ => rfl) fun _ => answer

theorem onGroupAck_view : Frame view (onGroupAck msg : M G Unit) := by
  refine .bind (onSender_view _) fun _ => .bind (.read _) fun s => ?_
  cases s.common.pendingStatusUpdate with
  | none => exact .pure _
  | some pending =>
    dsimp only
    split
    case' isTrue => refine .bind (.modify fun _ => rfl) fun _ => ?_
    all_goals
      exact .ite (.pure _) (.bind takeStatusUpdate_view fun _ => .ite
        (.bind (onCommon_view notify_shown) fun _ => setOnline_view _) (.pure _))

theorem onGroupNack_view : Frame view (onGroupNack X msg) := by
  refine .bind takeStatusUpdate_view fun pending => ?_
  cases pending with
  | none => exact .pure _
  | some pending =>
    exact .ite (.bind (onSender_view _) fun _ => requestRejoin_view X _)
      (.bind (modifyCommon_view fun _ => rfl) fun _ => .pure _)

theorem rejectsNonModerator_view : Frame view (rejectsNonModerator msg : M G Bool) := by
  refine .bind (.read _) fun s => ?_
  cases s.moderatorName with
  | none => exact .pure _
  | some moderator =>
    refine .ite (.pure _) (.bind (sameName_view _ _) fun fromModerator => ?_)
    split
    · exact .bind (.pure _) fun _ => .pure _
    · split
      · cases stateUpdateOf msg with
        | none => exact .bind (.pure _) fun _ => .pure _
        | some participant => exact .bind (sameName_view _ _) fun _ => .pure _
      · exact .bind (.pure _) fun _ => .pure _

theorem handleFailure_view (messageId : Nat) : Frame view (handleFailure messageId : M G Unit) := by
  refine .bind (onSender_view _) fun _ => .bind takeStatusUpdate_view fun pending => ?_
  cases pending with
  | none => exact .pure _
  | some pending =>
    exact .ite (.pure _) (.ite (onCommon_view notify_shown) (.ite
      (.bind (onCommon_view notify_shown) fun _ => setOnline_view _) (.pure _)))

theorem encryptOutput_view (output : SessionOutput) : Frame view (encryptOutput X output) :=
  .bind (onCommon_view (applyIdentity_shown output)) fun _ => .bind (.read _) fun _ => .ite
    (.bind (.ofExcept _) fun _ => .bind (onMls_view _) fun _ => .pure _) (.ofExcept _)

end frames

/-! ## Invariants -/

/-- What an invariant of a participant has to answer for. -/
structure EndpointInvariant (I : SessionParticipant G → Prop) : Prop where
  ofView : ∀ {s s' : SessionParticipant G}, s'.view = s.view → I s → I s'
  onRemove : ∀ name, Keeps I (onInner (Session.removeEndpoint name))
  onDrain : Keeps I (onInner (Prog.modify Session.startDrain))
  onClose : Keeps I (onInner (Prog.modify Session.close))

namespace EndpointInvariant

variable {I : SessionParticipant G → Prop} (inv : EndpointInvariant I) {α : Type} {x : M G α}
include inv

theorem keeps (h : Frame view x) : Keeps I x := fun s hs => inv.ofView (h s) hs

theorem removeEndpoint_keeps (name : ProtoName) : Keeps I (removeEndpoint name : M G Unit) :=
  .bind (inv.keeps (modifySender_view _)) fun _ => inv.onRemove name

variable (X : MlsLib G) (msg : Publish)

theorem onRemoved_keeps (p : Participant) : Keeps I (onRemoved msg p : M G Unit) := by
  refine .bind (.ofExcept _) fun name => .bind (inv.keeps fun _ => rfl) fun _ =>
    .bind (.read _) fun st => ?_
  split
  · exact .bind (.expect _ _) fun _ => .bind (inv.keeps (onCommon_view deleteRoute_shown)) fun _ =>
      inv.onRemove name
  · exact inv.onRemove name

theorem onLeaveRequest_keeps : Keeps I (onLeaveRequest msg : M G SessionOutput) := by
  refine .bind (inv.keeps (modifyCommon_view fun _ => rfl)) fun _ => ?_
  have close : Keeps I (onShutdown : M G Unit) :=
    .bind (inv.keeps fun _ => rfl) fun _ => .bind (inv.keeps (modifySender_view _)) fun _ =>
      inv.onClose
  split
  case' isTrue => refine .bind close fun _ => ?_
  case' isFalse =>
    refine .bind inv.onDrain fun _ => .bind (inv.keeps (modifySender_view _)) fun _ => ?_
  all_goals
    exact .bind (.read _) fun _ => .bind (.read _) fun _ => .ite (.throw _)
      (.bind (inv.keeps fun _ => rfl) fun _ => .bind (inv.keeps (sendSession_view _)) fun _ => .pure
        _)

theorem onStartDrain_keeps : Keeps I (onStartDrain : M G SessionOutput) := by
  refine .bind (.read _) fun s => ?_
  rcases s.moderatorName with _ | moderator
  case' none => refine .bind (.pure _) fun _ => ?_
  case' some =>
    refine .bind (inv.keeps random_view) fun _ => .bind (.read _) fun _ =>
      .bind (inv.keeps disconnectFromGroup_view) fun _ => .bind (inv.keeps (onSender_view _))
        fun _ => ?_
  all_goals
    exact .bind (inv.keeps (modifyCommon_view fun _ => rfl)) fun _ => .bind inv.onDrain fun _ =>
      .bind (inv.keeps (modifySender_view _)) fun _ => .pure _

theorem markOffline_keeps (missing : List ProtoName) : Keeps I (markOffline missing : M G Unit) :=
  .bind (inv.keeps (onRoster_view _)) fun _ => .each inv.removeEndpoint_keeps _

/-! ### Handlers that add endpoints -/

section endpoints
variable (hadd : ∀ p, Keeps I (addEndpoint p : M G SessionOutput)) (p : Participant)
include hadd

theorem welcomeMember_keeps : Keeps I (welcomeMember msg p : M G Unit) := by
  refine .bind (.ofExcept _) fun name => .bind (inv.keeps fun _ => rfl) fun _ =>
    .bind (.read _) fun s => .ite (.pure _) ?_
  dsimp only
  split
  case' isTrue =>
    refine .bind (.expect _ _) fun _ => .bind (inv.keeps (onCommon_view addRoute_shown)) fun _ => ?_
  all_goals exact .ite (.bind (hadd p) fun _ => .pure _) (.pure _)

theorem onWelcome_keeps : Keeps I (onWelcome X msg) :=
  .bind (inv.keeps (onMls_view _)) fun _ => .bind (inv.keeps (join_view msg)) fun _ =>
    .bind (.expect _ _) fun _ => .bind (.ofExcept _) fun _ =>
    .bind (.each (inv.welcomeMember_keeps msg hadd) _) fun _ => .bind (.read _) fun _ => .pure _

theorem onAdded_keeps : Keeps I (onAdded msg p : M G Unit) :=
  .bind (.ofExcept _) fun _ => .bind (inv.keeps fun _ => rfl) fun _ =>
    .bind (.expect _ _) fun _ => .bind (inv.keeps (onCommon_view addRoute_shown)) fun _ =>
    .bind (hadd p) fun _ => .pure _

theorem rebuildMember_keeps : Keeps I (rebuildMember p : M G Unit) := by
  refine .bind (.ofExcept _) fun name => .bind (.read _) fun st => ?_
  have insert : Keeps I (modifyRoster fun g => g.insert name p : M G Unit) :=
    inv.keeps fun _ => rfl
  split
  · exact .bind (inv.removeEndpoint_keeps name) fun _ => insert
  · split
    · exact .bind (hadd p) fun _ => insert
    · exact insert

theorem onRejoined_keeps (name : ProtoName) :
    Keeps I (onRejoined msg p name : M G Unit) := by
  refine .bind (.read _) fun entry => ?_
  cases entry with
  | some _ => exact inv.keeps fun _ => rfl
  | none =>
    exact .bind (inv.keeps fun _ => rfl) fun _ => .bind (.expect _ _) fun _ =>
      .bind (inv.keeps (onCommon_view addRoute_shown)) fun _ => .bind (hadd p) fun _ => .pure _

theorem applyUpdate_keeps (op : GroupUpdateOp) (update : GroupUpdatePayload) (isSelfRejoin : Bool) :
    Keeps I (applyUpdate msg op update isSelfRejoin : M G Unit) := by
  unfold applyUpdate
  cases update.participant with
  | none => exact .pure _
  | some p =>
    cases op with
    | Add => exact inv.onAdded_keeps msg hadd p
    | Remove => exact inv.onRemoved_keeps msg p
    | Rejoin =>
      refine .bind (.ofExcept _) fun name => .ite ?_ (inv.onRejoined_keeps msg hadd p name)
      exact .bind (inv.keeps fun _ => rfl) fun _ =>
        .each (inv.rebuildMember_keeps hadd) _

theorem onGroupUpdateMessage_keeps : Keeps I (onGroupUpdateMessage X msg) := by
  refine .bind (.expect _ _) fun _ => .bind (.ofExcept _) fun update => .bind (.okOr _ _) fun op =>
    .bind (.read _) fun st => ?_
  dsimp only
  split
  · exact .bind (.pure _) fun _ => .ite (.pure _) (.bind (inv.applyUpdate_keeps msg hadd _ _ _)
      fun _ => .bind (.read _) fun _ => .pure _)
  · exact .bind (inv.keeps (onMls_view _)) fun _ => .ite (.pure _)
      (.bind (inv.applyUpdate_keeps msg hadd _ _ _) fun _ => .bind (.read _) fun _ => .pure _)

theorem onHeartbeat_keeps : Keeps I (onHeartbeat X msg) := by
  refine .bind (.read _) fun s => ?_
  cases s.groupList.lookup msg.source with
  | none => exact .pure _
  | some entry =>
    refine .bind (.ofExcept _) fun remote => .ite
      (.ite (inv.keeps (requestRejoin_view X none)) (.pure _))
        (.ite (inv.keeps (onSender_view _)) ?_)
    exact .bind (inv.keeps (modifySender_view _)) fun _ => .ite
      (.bind (inv.keeps fun _ => rfl) fun _ => .bind (hadd _) fun _ =>
        inv.keeps (onSender_view _)) (.pure _)

theorem onUpdateParticipantStateFromSlim_keeps :
    Keeps I (onUpdateParticipantStateFromSlim X msg) := by
  refine .bind (inv.keeps (statePayload_view _ _)) fun payload => .bind (.okOr _ _) fun name =>
    .bind (.read _) fun st => .ite (.pure _) (.bind (.okOr _ _) fun state => ?_)
  have set (f : Roster → Roster) : Keeps I (modifyRoster f : M G Unit) := inv.keeps fun _ => rfl
  rcases msg.incomingConn with _ | conn
  case' some => refine .bind (inv.keeps (onCommon_view addRoute_shown)) fun _ => ?_
  all_goals
    refine .bind (.read _) fun s => .bind (.read _) fun _ => .bind (.read _) fun _ => ?_
    cases s.groupList.lookup name with
    | none => exact .pure _
    | some entry =>
      cases state with
      | Offline => exact .ite (.pure _) (.bind (set _) fun _ =>
          .bind (inv.removeEndpoint_keeps _) fun _ => .pure _)
      | Online => exact .ite (.pure _) (.bind (set _) fun _ => .bind (hadd _) fun _ => .pure _)

end endpoints

theorem processControlMessage_keeps {direction : MessageDirection} {ackTx : Option AckTx}
    (hadd : msg.type.mayAddEndpoint → ∀ p, Keeps I (addEndpoint p : M G _)) :
    Keeps I (processControlMessage X direction msg ackTx) := by
  unfold processControlMessage
  dsimp only
  split
  case' isTrue => refine .bind (inv.keeps (rejectsNonModerator_view msg)) fun _ => .ite (.pure _) ?_
  case' isFalse => refine .bind (.pure _) fun _ => .ite (.pure _) ?_
  all_goals
    split
    case h_1 => exact inv.keeps (onJoinRequest_view X msg)
    case h_2 ht => exact inv.onWelcome_keeps X msg (hadd (by rw [ht]; rfl))
    case h_3 ht => exact inv.onGroupUpdateMessage_keeps X msg (hadd (by rw [ht]; rfl))
    case h_4 => exact inv.onLeaveRequest_keeps msg
    case h_5 => exact inv.onLeaveRequest_keeps msg
    case h_6 ht => exact inv.onHeartbeat_keeps X msg (hadd (by rw [ht]; rfl))
    case h_7 => exact .bind (.read _) fun _ => .ite (inv.keeps (onSender_view _)) (.pure _)
    case h_8 ht =>
      cases direction with
      | North => exact inv.onUpdateParticipantStateFromSlim_keeps X msg (hadd (by rw [ht]; rfl))
      | South => exact inv.keeps (onUpdateParticipantStateFromApp_view X msg ackTx)
    case h_9 => exact .bind (inv.keeps (onGroupAck_view msg)) fun _ => .pure _
    case h_10 => exact inv.keeps (onGroupNack_view X msg)
    case h_11 => exact inv.keeps (onRejoinReply_view X msg)
    case h_12 => exact .pure _

theorem handle_keeps {message : SessionMessage}
    (hadd : message.mayAddEndpoint → ∀ p, Keeps I (addEndpoint p : M G _))
    (hinner : ¬ message.mayAddEndpoint → ∀ draw m, Keeps I (onInner (Session.onMessage draw m))) :
    Keeps I (handle X message) := by
  cases message with
  | onMessage msg direction ackTx =>
    refine .bind (.read _) fun _ => .ite (.throw _) ?_
    dsimp only
    split
    case' isTrue => refine .bind (inv.keeps (modifySender_view _)) fun _ => ?_
    all_goals
      split
      · exact inv.processControlMessage_keeps X msg hadd
      · rename_i hdata
        have hinner := hinner fun h => hdata (SessionMessageType.mayAddEndpoint_isCommand h)
        exact .bind (inv.keeps random_view) fun _ =>
          .ite (.bind (inv.keeps (modifySender_view _)) fun _ => hinner _ _)
            (.bind (inv.keeps (onMls_view _)) fun _ => hinner _ _)
  | messageError error =>
    have hinner := hinner (by simp [SessionMessage.mayAddEndpoint])
    show Keeps I (handleMessageError error)
    unfold handleMessageError
    cases error.sessionContext with
    | none => exact hinner _ _
    | some ctx =>
      exact .ite (.bind (inv.keeps (onSender_view _)) fun _ => .pure _) (hinner _ _)
  | timerTimeout messageId messageType name =>
    have hinner := hinner (by simp [SessionMessage.mayAddEndpoint])
    exact .bind (.read _) fun _ => .bind (inv.keeps random_view) fun _ =>
      .ite (inv.keeps (onSender_view _)) (hinner _ _)
  | timerFailure messageId messageType name =>
    have hinner := hinner (by simp [SessionMessage.mayAddEndpoint])
    exact .ite (.bind (inv.keeps (handleFailure_view _)) fun _ => .pure _)
      (.bind (.read _) fun _ => .bind (inv.markOffline_keeps _) fun _ => hinner _ _)
  | startDrain => exact inv.onStartDrain_keeps
  | participantDisconnected name =>
    cases name with
    | none => exact .pure _
    | some name =>
      exact .bind (inv.keeps fun _ => rfl) fun _ => .bind (inv.removeEndpoint_keeps name) fun _ =>
        .pure _
  | leaveCleanup =>
    exact .bind (inv.keeps disconnectFromGroup_view) fun _ =>
      .bind (inv.keeps disconnectFromModerator_view) fun _ =>
      .bind (inv.keeps fun _ => rfl) fun _ => .pure _
  | deleteSession _ => exact .throw _

end EndpointInvariant

/-! ## Settings -/

theorem fixed_invariant (st : SessionSettings) :
    EndpointInvariant (G := G) fun s => s.common.fixed = st where
  ofView h hs := (congrArg (fun v => v.2.2) h).trans hs
  onRemove _ _ h := h
  onDrain _ h := h
  onClose _ h := h

theorem onMessage_fixed (X : MlsLib G) (m : SessionMessage) :
    Frame (fun s => s.common.fixed) (onMessage X m) := by
  intro s
  have hadd (p : Participant) : Keeps (fun s' => s'.common.fixed = s.common.fixed)
      (addEndpoint p : M G SessionOutput) :=
    .bind (.expect _ _) fun _ => .bind (fun _ h => h) fun _ => .bind (fun _ h => h) fun _ =>
      .bind (.modify fun _ h => h) fun _ => .pure _
  refine Prog.Keeps.bind ((fixed_invariant s.common.fixed).handle_keeps X
    (fun _ p => hadd p) fun _ _ _ _ h => h) (fun output => ?_) s rfl
  exact .bind (.modify fun _ h => h) fun _ =>
    (fixed_invariant s.common.fixed).keeps (encryptOutput_view X output)

end Slim.SessionParticipant
