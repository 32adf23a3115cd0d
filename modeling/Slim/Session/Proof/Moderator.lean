import Slim.Session.Proof.Frames

/-!
# What a moderator's handlers do

One walk through every handler, for all invariants of a moderator that are about its tasks, what it
flushed and its inner layer. Most operations leave these alone (`view`, with a frame lemma for
each); `TaskInvariant` lists what the others do, so that an invariant has only these to answer for.
What adds endpoints, and what hands a message to the inner layer, is asked for where it is used.

An invariant comes as a pair. `I` holds between two events. `J` is what `I` amounts to while there
is no task, and holds also while a task is set up or abandoned.
-/

namespace Slim.SessionModerator

open ModeratorTask Prog SessionControllerCommon
open SessionControllerCommon (notify_shown addEntry_shown addRoute_shown deleteRoute_shown
  sendControlMessage_shown)

variable {G : Type}

/-- Is there a task, what is queued, what is handed back and the settings, what was flushed and
returned, and the inner layer. -/
def view (s : SessionModerator G) :
    Bool × List (Publish × Option AckTx) × (List SessionMessage × SessionSettings) ×
      (SessionOutput × SessionOutput) × Session :=
  (s.currentTask.isSome, s.tasksTodo, s.common.shown, (s.flushed, s.returned), s.inner)

/-! ## Operations that show nothing -/

section frames
variable {α : Type}

theorem onCommon_view {x : SessionControllerCommon.M α}
    (hx : Frame SessionControllerCommon.shown x) :
    Frame view (onCommon x : M G α) := fun s =>
  congrArg (fun h => (s.currentTask.isSome, s.tasksTodo, h, (s.flushed, s.returned), s.inner))
    (hx s.common)

theorem onRoster_view (x : Prog Roster SessionError α) : Frame view (onRoster x : M G α) :=
  fun _ => rfl

theorem modifyRoster_view (f : Roster → Roster) : Frame view (modifyRoster f : M G Unit) :=
  .modify fun _ => rfl

theorem onMls_frame {β : Type} {f : SessionModerator G → β}
    (hf : ∀ s st, f { s with mlsState := st } = f s) (x : MlsModeratorState.M G α) :
    Frame f (onMls x) := by
  intro s
  unfold onMls
  cases s.mlsState with
  | none => rfl
  | some st =>
    dsimp only
    rcases x st with ⟨_ | _ | _, st'⟩ <;> exact hf s _

theorem onMls_view (x : MlsModeratorState.M G α) :
    Frame view (onMls x) := onMls_frame (fun _ _ => rfl) x

theorem onTask_view (f : ModeratorTask → Result) : Frame view (onTask f : M G Unit) := by
  intro s
  unfold onTask
  rw [read_bind_run]
  cases ht : s.currentTask with
  | none => rfl
  | some task =>
    cases hf : f task with
    | error e => simp [Prog.ofExcept, hf]
    | ok r => simp [hf, view, ht, SessionControllerCommon.shown,
        SessionControllerCommon.handed, SessionControllerCommon.fixed]

theorem random_view : Frame view (random : M G Nat) :=
  onCommon_view random_shown

theorem onSender_view (m : Publish) :
    Frame view (onSender (ControllerSender.onMessage m) : M G SessionOutput) :=
  onCommon_view (sendMessage_shown m)

theorem modifySender_view {f : ControllerSender → ControllerSender}
    (hf : ∀ s, (f s).txSession = s.txSession) : Frame view (modifySender f : M G Unit) :=
  onCommon_view (modifySender_shown hf)

theorem settings_view : Frame view (settings : M G SessionSettings) := .read _

theorem withoutId_view (name : ProtoName) : Frame view (withoutId name : M G ProtoName) :=
  .expect _ _

theorem withId_view (name : ProtoName) (id : BitVec 128) :
    Frame view (withId name id : M G ProtoName) := .ite (.pure _) (.panic _)

theorem setPending_view (pending : Option PendingStatusUpdate) :
    Frame view (onCommon (Prog.modify fun c =>
      { c with pendingStatusUpdate := pending }) : M G Unit) := onCommon_view (.modify fun _ => rfl)

theorem setOnline_view (online : Bool) :
    Frame view (onCommon (Prog.modify fun c => { c with online }) : M G Unit) :=
  onCommon_view (.modify fun _ => rfl)

theorem skipCommit_view : Frame view (skipCommit : M G Unit) :=
  .bind (onTask_view _) fun _ => onTask_view _

theorem sendGroupUpdate_view (op : GroupUpdateOp) (p : Participant) (ps : List Participant)
    (mls : Option MlsPayload) :
    Frame view (sendGroupUpdate op p ps mls : M G (Nat × SessionOutput)) :=
  .bind random_view fun _ => .bind settings_view fun _ =>
    .bind (onCommon_view sendControlMessage_shown) fun _ => .pure _

end frames

section quiet
variable (X : MlsLib G) (msg : Publish)

theorem rejectsDiscoveryReply_view : Frame view (rejectsDiscoveryReply msg : M G Bool) := by
  refine .bind (.read _) fun s => ?_
  cases (s.currentTask.bind asAdd).bind AddParticipant.invited with
  | none => exact .pure _
  | some invited =>
    refine .bind (.expect _ _) fun id => ?_
    split
    · exact .bind (.pure _) fun _ => .bind (.expect _ _) fun _ => .pure _
    · exact .bind (.expect _ _) fun _ => .bind (.pure _) fun _ =>
        .bind (.expect _ _) fun _ => .pure _

theorem join_view (remote : ProtoName) (conn : ConnId) : Frame view (join X remote conn) := by
  refine .bind (.read _) fun s => .ite (.pure _) (.bind (.modify fun _ => rfl) fun _ => ?_)
  split
  case' isTrue => refine .bind (onCommon_view (.modify fun _ => rfl)) fun _ => ?_
  case' isFalse =>
    refine .bind (onCommon_view addEntry_shown) fun _ => .bind (onCommon_view addEntry_shown)
      fun _ => ?_
  all_goals
    exact .bind (onMls_view _) fun _ => .bind settings_view fun _ =>
      .bind (withoutId_view _) fun _ => modifyRoster_view _

theorem onDiscoveryReplyInner_view : Frame view (onDiscoveryReplyInner X msg) := by
  refine .bind (rejectsDiscoveryReply_view msg) fun _ => .ite (.pure _) ?_
  refine .bind (onSender_view msg) fun output => .bind (onTask_view _) fun _ => ?_
  refine .bind (.expect _ _) fun conn => .bind (join_view X _ conn) fun _ => ?_
  refine .bind (onCommon_view addRoute_shown) fun _ => .bind settings_view fun st => ?_
  split
  case' isTrue =>
    refine .bind (onCommon_view addRoute_shown) fun _ =>
      .bind (onCommon_view addRoute_shown) fun _ => ?_
  all_goals
    refine .bind (modifySender_view fun _ => rfl) fun _ => .bind random_view fun _ =>
      .bind (.modify fun s => ?_) fun _ => .bind (onCommon_view sendControlMessage_shown) fun _ =>
      .bind (onTask_view _) fun _ => .pure _
    simp [view]

theorem rejectsJoinReply_frame {β : Type} {f : SessionModerator G → β}
    (hmls : ∀ {α : Type} (x : MlsModeratorState.M G α), Frame f (onMls x)) :
    Frame f (rejectsJoinReply X msg) := by
  refine .bind (.read _) fun s => .ite (.pure _) ?_
  dsimp only
  rcases (s.currentTask.bind asAdd).bind AddParticipant.joining with _ | joining
  case' none => refine .bind (.pure _) fun _ => .ite (.pure _) ?_
  case' some => refine .bind (.map _ (.expect _ _)) fun _ => .ite (.pure _) ?_
  all_goals
    -- whether the participant it names is its sender
    split
    case' h_1 => refine .bind (.expect _ _) fun _ => .ite (.pure _) ?_
    case' h_2 => refine .bind (.pure _) fun _ => .ite (.pure _) ?_
    all_goals
      refine .bind (hmls _) fun identity => ?_
      cases identity with
      | none => exact .pure _
      | some identity => exact .bind (.expect _ _) fun _ => .ite (.pure _) (.pure _)

theorem rejectsJoinReply_view : Frame view (rejectsJoinReply X msg) :=
  rejectsJoinReply_frame X msg onMls_view

theorem addToMls_view : Frame view (addToMls X msg) := by
  refine .bind (onMls_view _) fun added => ?_
  cases added with
  | none => exact .pure _
  | some r => exact .bind (onMls_view _) fun _ => .pure _

theorem fullNames_view : ∀ es, Frame view (fullNames es : M G (List ProtoName))
  | [] => .pure _
  | ⟨_, _⟩ :: rest => .bind (.ofExcept _) fun _ => .bind (.expect _ _) fun _ =>
      .bind (withId_view _ _) fun _ => .bind (fullNames_view rest) fun _ => .pure _

theorem statePayload_view (context : String) : Frame view (statePayload context msg : M G _) :=
  .bind (.okOr _ _) fun _ => .ofExcept _

theorem finishStatusUpdate_view (pending : PendingStatusUpdate) (f : Roster → Roster) :
    Frame view (finishStatusUpdate pending f : M G Unit) := by
  unfold finishStatusUpdate
  cases pending.status with
  | Online =>
    exact .bind (modifyRoster_view _) fun _ => .bind (setOnline_view true) fun _ =>
      .bind random_view fun _ => .bind (modifySender_view fun _ => rfl) fun _ =>
        onCommon_view notify_shown
  | Offline =>
    exact .bind (setOnline_view false) fun _ => .bind (modifySender_view fun _ => rfl) fun _ =>
      onCommon_view notify_shown

theorem takeStatusUpdate_view : Frame view (takeStatusUpdate : M G _) :=
  .bind (.read _) fun _ => .bind (setPending_view none) fun _ => .pure _

theorem sendPostponed_view : Frame view (sendPostponed : M G SessionOutput) := by
  refine .bind (.read _) fun s => ?_
  split
  · exact .bind (onSender_view _) fun _ => .bind (onTask_view _) fun _ =>
      .bind (.modify fun _ => rfl) fun _ => .pure _
  · exact .pure _

theorem encryptOutput_view (output : SessionOutput) : Frame view (encryptOutput X output) :=
  .bind (onCommon_view (applyIdentity_shown output)) fun _ =>
    .bind (.read _) fun _ => .ite
      (.bind (.ofExcept _) fun _ => .bind (onMls_view _) fun _ => .pure _) (.ofExcept _)

end quiet

/-! ## Invariants -/

theorem popTask_keeps {I : SessionModerator G → Prop}
    (hqueue : ∀ s queue, I s → I { s with tasksTodo := queue })
    (hsend : ∀ m, Keeps I (onCommon (sendSession m))) : Keeps I popTask := by
  refine .bind (.read _) fun s => .ite (.pure _) ?_
  cases s.tasksTodo with
  | nil => exact .pure _
  | cons task rest => exact .bind (.modify fun s h => hqueue s rest h) fun _ => hsend _

/-- What an invariant `I` of a moderator has to answer for; `J` is what it amounts to without a
task. -/
structure TaskInvariant (I J : SessionModerator G → Prop) : Prop where
  ofView : ∀ {s s' : SessionModerator G}, s'.view = s.view → I s → I s'
  idleOfView : ∀ {s s' : SessionModerator G}, s'.view = s.view → J s → J s'
  idle : ∀ {s}, I s → s.currentTask = none → J s
  weaken : ∀ {s}, J s → I s
  onSet : ∀ {s} task, J s → J { s with currentTask := task }
  onEnqueue : ∀ {s} task, s.currentTask.isSome → I s →
    I { s with tasksTodo := s.tasksTodo ++ [task] }
  /-- The end of a task starts the next one. -/
  onEnd : ∀ {s}, I s → I (popTask { s with currentTask := none }).2
  onShutdown : ∀ {s}, I s → J (prepareShutdown s).2
  onRemove : ∀ name, Keeps I (onInner (Session.removeEndpoint name))
  idleOnRemove : ∀ name, Keeps J (onInner (Session.removeEndpoint name))

namespace TaskInvariant

variable {I J : SessionModerator G → Prop} (inv : TaskInvariant I J) {α : Type} {x : M G α}
include inv

theorem keeps (h : Frame view x) : Keeps I x :=
  fun s hs => inv.ofView (h s) hs

theorem idleKeeps (h : Frame view x) : Keeps J x :=
  fun s hs => inv.idleOfView (h s) hs

theorem setTask_keeps (task : Option ModeratorTask) :
    Keeps J (setTask task : M G Unit) := fun _ h => inv.onSet task h

theorem removeEndpoint_keeps (name : ProtoName) : Keeps I (removeEndpoint name : M G Unit) :=
  .bind (inv.keeps (modifySender_view fun _ => rfl)) fun _ => inv.onRemove name

theorem removeEndpoint_idle (name : ProtoName) : Keeps J (removeEndpoint name : M G Unit) :=
  .bind (inv.idleKeeps (modifySender_view fun _ => rfl)) fun _ => inv.idleOnRemove name

/-! ### The end of a task -/

theorem handleTaskError_idle (e : SessionError) : Keeps J (handleTaskError e : M G SessionError) :=
  .bind (.read _) fun _ => .bind (inv.idleKeeps (onCommon_view notify_shown)) fun _ =>
    .bind (inv.setTask_keeps none) fun _ => .pure _

theorem mapTaskError_idle (h : Keeps J x) : Keeps J (x.mapErr handleTaskError) :=
  .mapErr h inv.handleTaskError_idle

theorem failTaskAndContinue_keeps (e : SessionError) :
    Keeps I (failTaskAndContinue e : M G SessionError) := by
  intro s hs
  have hpop (s : SessionModerator G) :
      ((do ignoreErr popTask; pure e : M G SessionError) s).2 = (popTask s).2 := by
    rw [bind_run, ignoreErr]
    rcases popTask s with ⟨_ | _ | _, s'⟩ <;> rfl
  have hok : handleTaskError e s = (.ok e, (handleTaskError e s).2) := rfl
  rw [failTaskAndContinue, bind_ok hok, hpop]
  exact inv.onEnd (inv.keeps (onCommon_view notify_shown) s hs)

theorem mapFail_keeps (h : Keeps I x) : Keeps I (x.mapErr failTaskAndContinue) :=
  .mapErr h inv.failTaskAndContinue_keeps

theorem taskDone_keeps : Keeps I (taskDone : M G Unit) :=
  .bind (.read _) fun _ => .bind (.expect _ _) fun _ => .ite (.pure _) fun _ hs => inv.onEnd hs

/-- Run `x` with a task set, where there was none. -/
theorem start_keeps {task : Option ModeratorTask} {s : SessionModerator G} (hs : I s)
    (hidle : ¬ s.currentTask.isSome) (hx : Keeps J x) : I ((do setTask task; x : M G α) s).2 :=
  inv.weaken (Prog.Keeps.bind (inv.setTask_keeps task) (fun _ => hx) s
    (inv.idle hs (by simpa using hidle)))

/-! ### Requests -/

section requests
variable (X : MlsLib G) (msg : Publish) (ackTx : Option AckTx)

theorem onDiscoveryRequest_keeps : Keeps I (onDiscoveryRequest msg ackTx : M G _) := by
  intro s hs
  unfold onDiscoveryRequest
  rw [read_bind_run]
  split
  · exact inv.onEnqueue _ ‹_› hs
  · refine inv.start_keeps hs ‹_› (.ite ?_ ?_)
    · exact .bind (inv.handleTaskError_idle _) fun _ => .throw _
    · exact .bind (inv.idleKeeps random_view) fun _ =>
        .bind (inv.mapTaskError_idle (inv.idleKeeps (onTask_view _))) fun _ =>
        inv.mapTaskError_idle (inv.idleKeeps (onSender_view _))

theorem removeParticipantAndComputeMls_idle (name : ProtoName) :
    Keeps J (removeParticipantAndComputeMls X name msg) := by
  refine .bind (.read _) fun _ => .bind (.expect _ _) fun _ => .bind (.read _) fun _ =>
    .bind (inv.idleKeeps (modifyRoster_view _)) fun _ => .bind (.expect _ _) fun _ =>
    .bind (inv.removeEndpoint_idle _) fun _ =>
    .bind (inv.mapTaskError_idle (inv.idleKeeps (onMls_view _))) fun commit => ?_
  cases commit with
  | none => exact .pure _
  | some _ => exact .bind (inv.idleKeeps (onMls_view _)) fun _ => .pure _

theorem onLeaveRequest_keeps : Keeps I (onLeaveRequest X msg ackTx) := by
  intro s hs
  unfold onLeaveRequest
  rw [read_bind_run, id]
  split
  · exact inv.onEnqueue _ ‹_› hs
  · refine inv.start_keeps hs ‹_› ?_
    cases s.groupList.lookup msg.destination with
    | none => exact .bind (inv.handleTaskError_idle _) fun _ => .throw _
    | some entry =>
      refine .bind (.ofExcept _) fun _ => .bind (.expect _ _) fun _ =>
        .bind (inv.idleKeeps (withId_view _ _)) fun _ => .bind (inv.idleKeeps random_view) fun _ =>
        .bind (inv.removeParticipantAndComputeMls_idle X _ _) fun _ => .ite ?_ ?_
      · exact .bind (inv.idleKeeps (sendGroupUpdate_view _ _ _ _)) fun _ =>
          .bind (inv.idleKeeps (onTask_view _)) fun _ =>
          .bind (inv.idleKeeps (.modify fun _ => rfl)) fun _ => .pure _
      · exact .bind (inv.idleKeeps skipCommit_view) fun _ =>
          .bind (inv.idleKeeps (onSender_view _)) fun _ =>
          .bind (inv.idleKeeps (onTask_view _)) fun _ => .pure _

theorem prepareShutdown_then {s : SessionModerator G} (hs : I s) (hx : Keeps J x) :
    I ((do prepareShutdown; x : M G α) s).2 :=
  inv.weaken (hx _ (inv.onShutdown hs))

theorem deleteAll_keeps : Keeps I (deleteAll ackTx : M G SessionOutput) := by
  intro s hs
  refine inv.prepareShutdown_then hs (.bind (.read _) fun g =>
    .bind (inv.idleKeeps (fullNames_view _)) fun names => .ite (.pure _) ?_)
  exact .bind (inv.idleKeeps random_view) fun _ => .bind (.read _) fun _ =>
    .bind (inv.setTask_keeps _) fun _ => .bind (inv.idleKeeps (onTask_view _)) fun _ =>
    inv.idleKeeps (onSender_view _)

/-- What a disconnection does once it is answered, decided in state `s` and done in state `s₁`. -/
theorem disconnect_keeps (name : ProtoName) (output : SessionOutput) (s : SessionModerator G)
    {s₁ : SessionModerator G} (hs : I s₁) (ht : s₁.currentTask.isSome = s.currentTask.isSome) :
    I ((if s.common.settings.config.sessionType = .PointToPoint ∨
      s.groupList.keys.length = 2 then do
        prepareShutdown
        removeEndpoint msg.destination
        pure output
      else if s.currentTask.isSome then do
        enqueue msg ackTx
        pure output
      else do
        setTask (some (.CloseOrDisconnect { ackTx }))
        let (removed, participants, mls) ← removeParticipantAndComputeMls X name msg
        let (messageId, updated) ← sendGroupUpdate .Remove removed participants mls
        onTask (commitStart messageId)
        pure (output ++ updated) : M G SessionOutput) s₁).2 := by
  split
  · exact inv.prepareShutdown_then hs (.bind (inv.removeEndpoint_idle _) fun _ => .pure _)
  · split
    · rename_i hbusy
      exact inv.onEnqueue _ (ht.trans hbusy) hs
    · refine inv.start_keeps hs (by rwa [ht]) ?_
      exact .bind (inv.removeParticipantAndComputeMls_idle X msg name) fun _ =>
        .bind (inv.idleKeeps (sendGroupUpdate_view _ _ _ _)) fun _ =>
        .bind (inv.idleKeeps (onTask_view _)) fun _ => .pure _

theorem onDisconnectionDetected_keeps : Keeps I (onDisconnectionDetected X msg ackTx) := by
  refine .bind (.expect _ _) fun nameNoId => ?_
  intro s hs
  rw [read_bind_run]
  split
  · exact hs
  · split
    · -- the sender forgets who left, which shows nothing
      have hm := modifySender_view (G := G) fun _ => rfl
      exact inv.disconnect_keeps X _ ackTx _ _ s (inv.ofView (hm s) hs) (congrArg Prod.fst (hm s))
    · exact inv.disconnect_keeps X _ ackTx _ _ s hs rfl

end requests

/-! ### Members that come and go -/

section members
variable (X : MlsLib G) (msg : Publish) (ackTx : Option AckTx)

theorem onUpdateParticipantStateFromApp_keeps :
    Keeps I (onUpdateParticipantStateFromApp X msg ackTx) := by
  intro s hs
  unfold onUpdateParticipantStateFromApp
  rw [read_bind_run]
  split
  · exact hs
  · rename_i hfree
    refine inv.start_keeps hs (fun h => hfree (.inr h)) ?_
    refine .bind (inv.idleKeeps (statePayload_view msg _)) fun _ => .bind (.okOr _ _) fun status =>
      ?_
    split
    case' isTrue => refine .bind (inv.idleKeeps (modifyRoster_view _)) fun _ => ?_
    all_goals
      exact .bind (inv.idleKeeps (setPending_view _)) fun _ =>
        inv.idleKeeps (onCommon_view sendControlMessage_shown)

theorem rejoinMls_idle (name : ProtoName) (keyPackage : Bytes) :
    Keeps J (rejoinMls X name keyPackage) := by
  refine .bind (inv.mapTaskError_idle (inv.idleKeeps (onMls_view _))) fun rejoined => ?_
  cases rejoined with
  | none => exact .pure _
  | some _ => exact .bind (inv.idleKeeps (onMls_view _)) fun _ => .pure _

section endpoints
variable (hadd : ∀ p, Keeps I (addEndpoint p : M G SessionOutput))
include hadd

theorem onJoinReplyInner_keeps : Keeps I (onJoinReplyInner X msg) := by
  refine .bind (inv.keeps (rejectsJoinReply_view X msg)) fun _ => .ite (.pure _) ?_
  refine .bind (inv.keeps (onSender_view msg)) fun output =>
    .bind (inv.keeps (onTask_view _)) fun _ => .bind (.ofExcept _) fun reply =>
    .bind (.okOr _ _) fun participant => .bind (.ofExcept _) fun name =>
    .bind (inv.keeps (addToMls_view X msg)) fun mls => .bind (hadd participant) fun _ =>
    .bind (inv.keeps (withoutId_view _)) fun nameNoId =>
    .bind (inv.keeps (modifyRoster_view _)) fun _ => .bind (.read _) fun participants => ?_
  split
  case' isTrue =>
    refine .bind (inv.keeps (sendGroupUpdate_view _ _ _ _)) fun _ =>
      .bind (inv.keeps (onTask_view _)) fun _ => ?_
  case' isFalse => refine .bind (inv.keeps skipCommit_view) fun _ => ?_
  all_goals
    exact .bind (.pure _) fun _ => .bind (inv.keeps random_view) fun _ =>
      .bind (inv.keeps (onCommon_view sendControlMessage_shown)) fun _ =>
        .bind (inv.keeps (onTask_view _))
      fun _ => .pure _

theorem onHeartbeat_keeps : Keeps I (onHeartbeat X msg) := by
  refine .bind (inv.keeps (withoutId_view _)) fun nameNoId => .bind (.read _) fun s => ?_
  cases s.groupList.lookup nameNoId with
  | none => exact .pure _
  | some entry =>
    refine .ite (.pure _)
      (.ite (inv.keeps (onSender_view _)) (.bind (.ofExcept _) fun remote => ?_))
    refine .bind (inv.keeps (modifySender_view fun _ => rfl)) fun _ => .ite ?_ (.pure _)
    exact .bind (inv.keeps (modifyRoster_view _)) fun _ => .bind (hadd _) fun _ =>
      inv.keeps (onSender_view _)

theorem onUpdateParticipantStateFromSlim_keeps :
    Keeps I (onUpdateParticipantStateFromSlim X msg) := by
  refine .bind (inv.keeps (statePayload_view msg _)) fun payload => .bind (.okOr _ _) fun name =>
    .bind (.read _) fun st => .ite (.pure _) ?_
  rcases msg.incomingConn with _ | conn
  case' some => refine .bind (inv.keeps (onCommon_view addRoute_shown)) fun _ => ?_
  all_goals
    refine .bind (.okOr _ _) fun state => .bind (.expect _ _) fun nameNoId =>
      .bind (.read _) fun s =>
      .bind (.read _) fun _ => .bind (.read _) fun _ => ?_
    cases s.groupList.lookup nameNoId with
    | none => exact .pure _
    | some entry =>
      cases state with
      | Offline => exact .ite (.pure _) (.bind (inv.keeps (modifyRoster_view _)) fun _ =>
          .bind (inv.removeEndpoint_keeps _) fun _ => .pure _)
      | Online => exact .ite (.pure _) (.bind (inv.keeps (modifyRoster_view _)) fun _ =>
          .bind (hadd _) fun _ => .pure _)

end endpoints

theorem onRejoinRequest_keeps (hadd : ∀ p, Keeps J (addEndpoint p : M G SessionOutput)) :
    Keeps I (onRejoinRequest X msg) := by
  refine .bind (.okOr _ _) fun _ => .bind (.ofExcept _) fun payload => .bind (.okOr _ _) fun name =>
    .bind (.expect _ _) fun nameNoId => ?_
  intro s hs
  rw [read_bind_run, id]
  cases s.groupList.lookup nameNoId with
  | none => exact hs
  | some entry =>
    dsimp only
    split
    · exact hs
    · split
      · exact hs
      · refine inv.start_keeps hs ‹_› (.bind (inv.rejoinMls_idle X _ _) fun mls =>
          .bind (.read _) fun reply => .bind (inv.idleKeeps (onTask_view _)) fun _ => ?_)
        split
        case' isTrue =>
          refine .bind (inv.idleKeeps (modifyRoster_view _)) fun _ => .bind (hadd _) fun _ => ?_
        all_goals
          exact .bind (.read _) fun _ => .bind (inv.idleKeeps (sendGroupUpdate_view _ _ _ _))
            fun _ =>
            .bind (inv.idleKeeps (onTask_view _)) fun _ => .pure _

end members

/-! ### Acknowledgements and failures -/

section answers
variable (msg : Publish)

theorem onLeaveReply_keeps : Keeps I (onLeaveReply msg : M G SessionOutput) := by
  refine .bind (.expect _ _) fun conn =>
    .bind (inv.keeps (onCommon_view deleteRoute_shown)) fun _ =>
    .bind (inv.keeps (onSender_view msg)) fun _ => .bind (.read _) fun _ => ?_
  split
  · exact .bind (inv.keeps (onTask_view _)) fun _ => .bind inv.taskDone_keeps fun _ => .pure _
  · exact .bind inv.taskDone_keeps fun _ => .pure _

theorem onAllAcked_keeps : Keeps I (onAllAcked msg : M G SessionOutput) := by
  refine .bind (inv.keeps (onTask_view _)) fun _ => .bind (.read _) fun current => ?_
  split
  · exact .bind (.pure _) fun _ => .bind inv.taskDone_keeps fun _ => .pure _
  · exact .bind (inv.keeps sendPostponed_view) fun _ => .bind inv.taskDone_keeps fun _ => .pure _

theorem endTask_then (hx : Keeps I x) : Keeps I (do setTask none; popTask; x : M G α) :=
  fun s hs => show I ((do popTask; x : M G α) { s with currentTask := none }).2 from
    Prog.Keeps.after (inv.onEnd hs) fun _ => hx

theorem onGroupAck_keeps : Keeps I (onGroupAck msg : M G SessionOutput) := by
  refine .bind (inv.keeps (onSender_view msg)) fun output => .bind (.read _) fun s =>
    .ite (.pure _) ?_
  cases s.currentTask with
  | none => exact .pure _
  | some task =>
    refine .ite (.bind (inv.keeps takeStatusUpdate_view) fun pending => ?_)
      (.bind (inv.onAllAcked_keeps msg) fun _ => .pure _)
    cases pending with
    | none => exact .pure _
    | some pending =>
      exact .bind (inv.keeps (finishStatusUpdate_view pending _)) fun _ =>
        inv.endTask_then (.pure _)

theorem markOffline_keeps (missing : List ProtoName) : Keeps I (markOffline missing : M G Unit) :=
  .bind (inv.keeps (onRoster_view _)) fun _ => .each inv.removeEndpoint_keeps _

theorem reportFailure_keeps (missing : List ProtoName) (error : SessionError) :
    Keeps I (reportFailure missing error : M G Unit) := by
  intro s hs
  unfold reportFailure
  rw [read_bind_run]
  cases hc : s.currentTask with
  | none => exact hs
  | some task =>
    dsimp only
    cases task.ackTx with
    | none => exact hs
    | some tx =>
      -- the task that replaces it shows the same
      have hset : I (setTask (some task.ackTxTake) s : _ × SessionModerator G).2 :=
        inv.ofView (by simp [view, setTask, hc]) hs
      refine Prog.Keeps.after hset fun _ => .ite ?_ (inv.keeps (onCommon_view notify_shown))
      exact .bind (inv.markOffline_keeps _) fun _ => inv.keeps (onCommon_view notify_shown)

theorem handleFailure_keeps (messageId : Nat) (error : SessionError) :
    Keeps I (handleFailure messageId error : M G Unit) := by
  have next : Keeps I (do setTask none; popTask : M G Unit) := fun _ hs => inv.onEnd hs
  refine .bind (inv.keeps (onCommon_view (onSender_shown
    ((ControllerSender.onFailure_txSession messageId).comp handedBack)))) fun missing =>
    .bind (.read _) fun current => ?_
  split
  · refine .bind (inv.keeps takeStatusUpdate_view) fun pending => ?_
    cases pending with
    | none => exact next
    | some pending => exact .bind (inv.keeps (finishStatusUpdate_view pending _)) fun _ => next
  · exact .bind (inv.reportFailure_keeps missing error) fun _ => next

theorem handleMessageError_keeps
    (hinner : ∀ draw m, Keeps I (onInner (Session.onMessage draw m))) (error : SessionError) :
    Keeps I (handleMessageError error : M G SessionOutput) := by
  unfold handleMessageError
  cases error.sessionContext with
  | none => exact hinner _ _
  | some ctx => exact .ite (.bind (inv.handleFailure_keeps _ _) fun _ => .pure _) (hinner _ _)

end answers

/-! ### Every message -/

section messages
variable (X : MlsLib G)

theorem processControlMessage_keeps {msg : Publish} {direction : MessageDirection}
    {ackTx : Option AckTx} (hadd : msg.type.mayAddEndpoint → ∀ p,
      Keeps I (addEndpoint p : M G _) ∧ Keeps J (addEndpoint p : M G _)) :
    Keeps I (processControlMessage X msg direction ackTx) := by
  unfold processControlMessage
  split
  case h_1 => exact inv.onDiscoveryRequest_keeps msg ackTx
  case h_2 => exact inv.mapFail_keeps (inv.keeps (onDiscoveryReplyInner_view X msg))
  case h_3 ht =>
    exact inv.mapFail_keeps (inv.onJoinReplyInner_keeps X msg fun p => (hadd (by rw [ht]; rfl) p).1)
  case h_4 =>
    exact .ite (inv.onDisconnectionDetected_keeps X msg ackTx)
      (inv.onLeaveRequest_keeps X msg ackTx)
  case h_5 => exact inv.onLeaveReply_keeps msg
  case h_6 => exact inv.onGroupAck_keeps msg
  case h_7 ht => exact inv.onHeartbeat_keeps X msg fun p => (hadd (by rw [ht]; rfl) p).1
  case h_8 ht =>
    cases direction with
    | North =>
      exact inv.onUpdateParticipantStateFromSlim_keeps X msg fun p => (hadd (by rw [ht]; rfl) p).1
    | South => exact inv.onUpdateParticipantStateFromApp_keeps X msg ackTx
  case h_9 ht => exact inv.onRejoinRequest_keeps X msg fun p => (hadd (by rw [ht]; rfl) p).2
  all_goals exact .throw _

theorem handle_keeps {message : SessionMessage} (hadd : message.mayAddEndpoint → ∀ p,
      Keeps I (addEndpoint p : M G _) ∧ Keeps J (addEndpoint p : M G _))
    (hinner : ¬ message.mayAddEndpoint → ∀ draw m, Keeps I (onInner (Session.onMessage draw m))) :
    Keeps I (handle X message) := by
  unfold handle
  cases message with
  | onMessage msg direction ackTx =>
    dsimp only
    split
    case' isTrue => refine .bind (inv.keeps (modifySender_view fun _ => rfl)) fun _ => ?_
    all_goals
      refine .bind (.read _) fun _ => .ite (.throw _) ?_
      split
      · exact inv.processControlMessage_keeps X hadd
      · rename_i hdata
        have hinner := hinner fun h => hdata (SessionMessageType.mayAddEndpoint_isCommand h)
        exact .bind (.read _) fun _ => .bind (inv.keeps random_view) fun _ =>
          .ite (.bind (inv.keeps (modifySender_view fun _ => rfl)) fun _ => hinner _ _)
            (.bind (inv.keeps (onMls_view _)) fun _ => hinner _ _)
  | messageError error =>
    exact inv.handleMessageError_keeps (hinner (by simp [SessionMessage.mayAddEndpoint])) error
  | timerTimeout messageId messageType name =>
    have hinner := hinner (by simp [SessionMessage.mayAddEndpoint])
    refine .bind (.read _) fun s => .bind (inv.keeps random_view) fun draw => .ite ?_ (hinner _ _)
    exact inv.keeps (onCommon_view (onSender_shown
      (ControllerSender.onTimerTimeout_handedBack _ draw messageId messageType _)))
  | timerFailure messageId messageType name =>
    have hinner := hinner (by simp [SessionMessage.mayAddEndpoint])
    exact .ite (.bind (inv.handleFailure_keeps _ _) fun _ => .pure _)
      (.bind (.read _) fun _ => .bind (inv.markOffline_keeps _) fun _ => hinner _ _)
  | startDrain =>
    exact .bind (inv.keeps (onCommon_view (.modify fun _ => rfl))) fun _ =>
      .bind (inv.keeps random_view) fun _ => inv.deleteAll_keeps none
  | participantDisconnected name =>
    exact .bind (.okOr _ _) fun name => .bind (.expect _ _) fun _ =>
      .bind (inv.keeps (modifyRoster_view _)) fun _ =>
      .bind (inv.removeEndpoint_keeps _) fun _ => .pure _
  | _ => exact .throw _

end messages

end TaskInvariant

/-! ## Settings -/

theorem fixed_invariant (st : SessionSettings) :
    TaskInvariant (G := G) (fun s => s.common.fixed = st) (fun s => s.common.fixed = st) := by
  have hview {s s' : SessionModerator G} (h : s'.view = s.view) (hs : s.common.fixed = st) :
      s'.common.fixed = st := by
    simp only [view, Prod.mk.injEq] at h
    exact (congrArg Prod.snd h.2.2.1).trans hs
  exact {
    ofView := hview
    idleOfView := hview
    idle := fun h _ => h
    weaken := fun h => h
    onSet := fun _ h => h
    onEnqueue := fun _ _ h => h
    onEnd := fun h => popTask_keeps (I := fun s => s.common.fixed = st) (fun _ _ h => h)
      (fun _ _ h => h) _ h
    onShutdown := fun h => h
    onRemove := fun _ _ h => h
    idleOnRemove := fun _ _ h => h }

theorem onMessage_fixed (X : MlsLib G) (m : SessionMessage) :
    Frame (fun s => s.common.fixed) (onMessage X m) := by
  intro s
  have hadd (p : Participant) : Keeps (fun s' => s'.common.fixed = s.common.fixed)
      (addEndpoint p : M G SessionOutput) :=
    .bind (.expect _ _) fun _ => .bind (fun _ h => h) fun _ => .bind (fun _ h => h) fun _ =>
      .bind (.modify fun _ h => h) fun _ => .pure _
  refine Prog.Keeps.bind ((fixed_invariant s.common.fixed).handle_keeps X
    (fun _ p => ⟨hadd p, hadd p⟩) fun _ _ _ _ h => h) (fun output => ?_) s rfl
  exact .bind (.modify fun _ h => h) fun _ =>
    (fixed_invariant s.common.fixed).keeps (encryptOutput_view X output)

end Slim.SessionModerator
