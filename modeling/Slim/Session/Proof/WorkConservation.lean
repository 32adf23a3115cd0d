import Slim.Session.Proof.Loop
import Slim.Session.Proof.Moderator

/-!
# The moderator's task queue

A moderator is `Settled` when it works on a task, or has handed one back to its loop, or has nothing
queued. The end of a task pops the next one (`popTask_settled`), and a request that meets a busy
moderator is queued, so every message keeps it (`onMessage_settled`).

What breaks it is the loop: it takes a handed back task off the channel before the moderator looks
at it. If the task fails right there, with nothing else handed back, the tasks behind it wait until
some later task ends. `CanStart` says when it does not fail.
-/

namespace Slim.SessionModerator

open Prog.Keeps SessionControllerCommon SessionLoop Prog

variable {G : Type}

/-- Nothing is queued, or a task is on its way through the loop. -/
def QueueServed (s : SessionModerator G) : Prop := s.tasksTodo = [] ∨ s.common.handed ≠ []

/-- There is a task, or the queue is served. -/
def Settled (s : SessionModerator G) : Prop := s.currentTask.isSome ∨ s.QueueServed

theorem settled_iff {s : SessionModerator G} :
    s.Settled ↔ (s.currentTask = none → s.common.handed = [] → s.tasksTodo = []) := by
  unfold Settled QueueServed
  rw [Option.isSome_iff_ne_none]
  tauto

theorem popTask_settled (s : SessionModerator G) : (popTask s).2.Settled := by
  unfold popTask
  by_cases ht : s.currentTask.isSome
  · simp [ht, Settled]
  · cases hq : s.tasksTodo with
    | nil => simp [hq, Settled, QueueServed]
    | cons task rest =>
      right
      right
      simp [ht, hq, onCommon, zoom, sendSession, SessionControllerCommon.modifySender, handed]

theorem prepareShutdown_served (s : SessionModerator G) :
    (prepareShutdown s).2.QueueServed := .inl rfl

theorem settled_of_view {s s' : SessionModerator G} (h : s'.view = s.view) (hs : s.Settled) :
    s'.Settled := by
  simp only [view, Prod.mk.injEq] at h
  have hback : s'.common.handed = s.common.handed := congrArg Prod.fst h.2.2.1
  unfold Settled QueueServed at hs ⊢
  rwa [h.1, h.2.1, hback]

theorem served_of_view {s s' : SessionModerator G} (h : s'.view = s.view) (hs : s.QueueServed) :
    s'.QueueServed := by
  simp only [view, Prod.mk.injEq] at h
  have hback : s'.common.handed = s.common.handed := congrArg Prod.fst h.2.2.1
  unfold QueueServed at hs ⊢
  rwa [h.2.1, hback]

theorem settled_invariant : TaskInvariant (G := G) Settled QueueServed where
  ofView := settled_of_view
  idleOfView := served_of_view
  idle h hidle := h.resolve_left (by simp [hidle])
  weaken := .inr
  onSet _ h := h
  onEnqueue _ hbusy _ := .inl hbusy
  onEnd _ := popTask_settled _
  onShutdown _ := prepareShutdown_served _
  onRemove _ _ h := h
  idleOnRemove _ _ h := h

theorem addEndpoint_settled (p : Participant) :
    Keeps Settled (addEndpoint p : M G _) ∧ Keeps QueueServed (addEndpoint p : M G _) := by
  constructor
  · exact .bind (.expect _ _) fun _ =>
      .bind (settled_invariant.keeps (modifySender_view fun _ => rfl))
      fun _ => .bind (fun _ h => h) fun _ => .bind (.modify fun _ h => h) fun _ => .pure _
  · exact .bind (.expect _ _) fun _ =>
      .bind (settled_invariant.idleKeeps (modifySender_view fun _ => rfl)) fun _ =>
      .bind (fun _ h => h) fun _ => .bind (.modify fun _ h => h) fun _ => .pure _

variable (X : MlsLib G)

theorem encryptOutput_settled (output : SessionOutput) :
    Keeps Settled (do
      Prog.modify fun s => { s with returned := output }
      encryptOutput X output : M G SessionOutput) :=
  .bind (.modify fun _ h => h) fun _ => settled_invariant.keeps (encryptOutput_view X output)

theorem onMessage_settled (message : SessionMessage) : Keeps Settled (onMessage X message) :=
  .bind (settled_invariant.handle_keeps X (fun _ => addEndpoint_settled) fun _ _ _ _ h => h)
    fun output => encryptOutput_settled X output

/-! ## Tasks that start -/

/-- Without MLS, or the library can remove this member. -/
def Removable (s : SessionModerator G) (name : ProtoName) : Prop :=
  ∀ st ∈ s.mlsState, ∃ identity ∈ st.participants.lookup name,
    ((X.removeMember identity st.common.mls).1.isOk : Prop)

instance decidableRemovable (s : SessionModerator G) (name : ProtoName) :
    Decidable (s.Removable X name) :=
  inferInstanceAs (Decidable (∀ st ∈ s.mlsState, ∃ identity ∈ st.participants.lookup name,
    ((X.removeMember identity st.common.mls).1.isOk : Prop)))

/-- The member that a leave request is about is there and can be removed. -/
def CanLeave (s : SessionModerator G) (msg : Publish) : Prop :=
  if msg.containsMetadata LEAVE_REPLY_SENT ∨ msg.containsMetadata LEAVING_SESSION then
    let name := if msg.containsMetadata LEAVING_SESSION then msg.source else msg.destination
    (name.resetId.bind s.groupList.lookup).isSome ∧
      (s.common.settings.config.sessionType = .PointToPoint ∨ s.groupList.keys.length = 2 ∨
        s.Removable X name)
  else
    ∃ entry ∈ s.groupList.lookup msg.destination, ∀ id ∈ entry.name.bind ProtoName.id,
      s.Removable X (msg.destination.withId id)

/-- A handed back task that does not fail at its start: an invitation of somebody who is not in the
group, or the removal of somebody who is. -/
def CanStart (s : SessionModerator G) (msg : Publish) : Prop :=
  s.common.online ∧ s.common.processingState = .Active ∧
    s.common.sender.drainingState = .NotDraining ∧
    (msg.type = .DiscoveryRequest ∧ (s.groupList.lookup msg.destination).isNone ∨
      msg.type = .LeaveRequest ∧ s.CanLeave X msg)

instance decidableCanLeave (s : SessionModerator G) (msg : Publish) :
    Decidable (s.CanLeave X msg) := by
  unfold CanLeave
  exact inferInstance

instance decidableCanStart (s : SessionModerator G) (msg : Publish) :
    Decidable (s.CanStart X msg) := by
  unfold CanStart
  exact inferInstance

section starts
variable {α : Type} {msg : Publish} {ackTx : Option AckTx} {s : SessionModerator G}

def Busy (s : SessionModerator G) : Prop := s.currentTask.isSome

theorem keeps_busy {x : M G α} (h : Frame view x) : Keeps Busy x :=
  fun s hs => (congrArg Prod.fst (h s)).trans hs

theorem sendDiscovery_ne_err (ht : msg.type = .DiscoveryRequest)
    (hd : s.common.sender.drainingState = .NotDraining) (e : SessionError) :
    ((onSender (ControllerSender.onMessage msg) : M G SessionOutput) s).1 ≠ .err e := by
  show (ControllerSender.onMessage msg s.common.sender).1 ≠ .err e
  unfold ControllerSender.onMessage ControllerSender.withoutId
  cases msg.destination.resetId with
  | none => simp [ht, hd, Prog.expect]
  | some name => simp [ht, hd, ControllerSender.onSendMessage]

theorem onDiscoveryRequest_starts (ht : msg.type = .DiscoveryRequest) (hidle : s.currentTask = none)
    (hd : s.common.sender.drainingState = .NotDraining)
    (hnew : (s.groupList.lookup msg.destination).isNone) :
    (onDiscoveryRequest msg ackTx s).2.Busy := by
  have hout : ¬ (s.groupList.lookup msg.destination).isSome := by simpa using hnew
  -- the draw and the first phase leave the sender as it is in `s`
  have hrun : ∃ m s₁, m.type = .DiscoveryRequest ∧ s₁.Busy ∧
      s₁.common.sender.drainingState = .NotDraining ∧ onDiscoveryRequest msg ackTx s =
        (onSender (ControllerSender.onMessage m)).mapErr handleTaskError s₁ := by
    unfold onDiscoveryRequest
    rw [read_bind_run, id, if_neg (by simp [hidle]), if_neg hout]
    refine ⟨_, _, ?_, ?_, ?_, rfl⟩
    · exact ht
    · rfl
    · exact hd
  obtain ⟨m, s₁, hm, hbusy, hd₁, hrun⟩ := hrun
  rw [hrun, mapErr_of_ne_err (sendDiscovery_ne_err hm hd₁)]
  exact keeps_busy (onSender_view m) s₁ hbusy

theorem removeMls_ne_err (h : s.Removable X msg.destination) (e : SessionError) :
    ((onMls (MlsModeratorState.removeParticipant X msg) : M G (Option Bytes)) s).1 ≠ .err e := by
  unfold onMls
  cases hmls : s.mlsState with
  | none => simp
  | some st =>
    obtain ⟨identity, hmember, hok⟩ := h st hmls
    rw [Option.mem_def] at hmember
    cases hrem : X.removeMember identity st.common.mls with
    | mk r g =>
      cases r with
      | error _ => simp [hrem, Except.toBool] at hok
      | ok commit =>
        simp [MlsModeratorState.removeParticipant, hmember, MlsModeratorState.onCommon, zoom,
          MlsState.call, hrem, bind_run]

theorem removeParticipantAndComputeMls_busy (name : ProtoName) (hbusy : s.Busy)
    (h : s.Removable X msg.destination) : (removeParticipantAndComputeMls X name msg s).2.Busy := by
  let I (s : SessionModerator G) : Prop := s.Busy ∧ s.Removable X msg.destination
  have hI : ∀ s, I s → s.Busy := fun _ h => h.1
  refine bind_to (.read _) hI (fun participants s₁ h₁ => ?_) ⟨hbusy, h⟩
  refine bind_to (.expect _ _) hI (fun nameNoId s₂ h₂ => ?_) h₁
  refine bind_to (.read _) hI (fun entry s₃ h₃ => ?_) h₂
  refine bind_to (fun _ h => h) hI (fun _ s₄ h₄ => ?_) h₃
  refine bind_to (.expect _ _) hI (fun removed s₅ h₅ => ?_) h₄
  refine bind_to (fun _ h => h) hI (fun _ s₆ h₆ => ?_) h₅
  refine after ?_ fun commit => ?_
  · rw [mapErr_of_ne_err (removeMls_ne_err X h₆.2)]
    exact keeps_busy (onMls_view _) s₆ h₆.1
  · cases commit with
    | none => exact .pure _
    | some commit => exact .bind (keeps_busy (onMls_view _)) fun _ => .pure _

theorem leave_busy (leave : Publish) (hbusy : s.Busy) (h : s.Removable X leave.destination) :
    ((do
      let (removed, participants, mls) ← removeParticipantAndComputeMls X leave.destination leave
      if 2 < participants.length then
        let (updateId, output) ← sendGroupUpdate .Remove removed participants mls
        onTask (ModeratorTask.commitStart updateId)
        Prog.modify fun s => { s with postponedMessage := some leave }
        pure output
      else
        skipCommit
        let output ← onSender (ControllerSender.onMessage leave)
        onTask (ModeratorTask.leaveStart leave.id)
        pure output : M G SessionOutput) s).2.Busy := by
  refine after (removeParticipantAndComputeMls_busy X _ hbusy h) fun _ => .ite ?_ ?_
  · exact .bind (keeps_busy (sendGroupUpdate_view _ _ _ _)) fun _ =>
      .bind (keeps_busy (onTask_view _)) fun _ => .bind (.modify fun _ h => h) fun _ => .pure _
  · exact .bind (keeps_busy skipCommit_view) fun _ => .bind (keeps_busy (onSender_view _)) fun _ =>
      .bind (keeps_busy (onTask_view _)) fun _ => .pure _

theorem onLeaveRequest_starts (hidle : s.currentTask = none) {entry : Participant}
    (hentry : s.groupList.lookup msg.destination = some entry)
    (h : ∀ id ∈ entry.name.bind ProtoName.id, s.Removable X (msg.destination.withId id)) :
    (onLeaveRequest X msg ackTx s).2.Busy := by
  let task : ModeratorTask := .Remove { ackTx }
  -- on the way to the removal there is a task and the MLS state is the one of `s`
  let I (s' : SessionModerator G) : Prop := s'.Busy ∧ s'.mlsState = s.mlsState
  have hI : ∀ s', I s' → s'.Busy := fun _ h => h.1
  have hset : I ((setTask (some task) : M G Unit) s).2 := ⟨rfl, rfl⟩
  unfold onLeaveRequest
  rw [read_bind_run, id, if_neg (by simp [hidle]), hentry,
    bind_ok (show (setTask (some task) : M G Unit) s = (.ok (), _) from rfl)]
  dsimp only
  cases hname : entry.name with
  | none =>
    rw [Participant.getName, hname]
    exact hset.1
  | some name =>
    rw [Participant.getName, hname, SessionError.ofMessage, ofExcept_ok_bind_run]
    cases hid : name.id with
    | none => exact hset.1
    | some id =>
      rw [expect_some_bind_run, withId]
      split
      · rw [pure_bind_run]
        refine bind_to (fun _ h => h) hI (fun draw s₁ h₁ => ?_) hset
        refine leave_busy X ((msg.setDestination (msg.destination.withId id)).setMessageId draw)
          h₁.1 ?_
        have hmember : id ∈ entry.name.bind ProtoName.id := by rw [hname]; exact hid
        have hrem := h id hmember
        unfold Removable at hrem ⊢
        rwa [h₁.2]
      · exact hset.1

theorem disconnect_starts (leave : Publish) (name : ProtoName) (output : SessionOutput)
    {s₁ : SessionModerator G} (hidle : s.currentTask = none) (hname : leave.destination = name)
    (h : s.common.settings.config.sessionType = .PointToPoint ∨ s.groupList.keys.length = 2 ∨
      s₁.Removable X name) :
    ((if s.common.settings.config.sessionType = .PointToPoint ∨ s.groupList.keys.length = 2 then do
        prepareShutdown
        removeEndpoint leave.destination
        pure output
      else if s.currentTask.isSome then do
        enqueue leave ackTx
        pure output
      else do
        setTask (some (.CloseOrDisconnect { ackTx }))
        let (removed, participants, mls) ← removeParticipantAndComputeMls X name leave
        let (messageId, updated) ← sendGroupUpdate .Remove removed participants mls
        onTask (ModeratorTask.commitStart messageId)
        pure (output ++ updated) : M G SessionOutput) s₁).2.Settled := by
  split
  · right
    exact bind (settled_invariant.removeEndpoint_idle _) (fun _ => .pure _) _
      (prepareShutdown_served s₁)
  · have hrem : s₁.Removable X leave.destination := by
      rw [hname]
      tauto
    rw [if_neg (by simp [hidle]),
      bind_ok (show (setTask (some (.CloseOrDisconnect { ackTx })) : M G Unit) s₁ = (.ok (), _)
        from rfl)]
    left
    refine after (I := Busy) (removeParticipantAndComputeMls_busy X name rfl hrem)
      fun _ => ?_
    exact .bind (keeps_busy (sendGroupUpdate_view _ _ _ _)) fun _ =>
      .bind (keeps_busy (onTask_view _)) fun _ => .pure _

theorem onDisconnectionDetected_starts (hidle : s.currentTask = none) (name : ProtoName)
    (hname : name = if msg.containsMetadata LEAVING_SESSION then msg.source else msg.destination)
    (hmember : (name.resetId.bind s.groupList.lookup).isSome)
    (h : s.common.settings.config.sessionType = .PointToPoint ∨ s.groupList.keys.length = 2 ∨
      s.Removable X name) : (onDisconnectionDetected X msg ackTx s).2.Settled := by
  obtain ⟨nameNoId, hreset, hlookup⟩ : ∃ nameNoId, name.resetId = some nameNoId ∧
      (s.groupList.lookup nameNoId).isSome := by
    cases hr : name.resetId with
    | none => simp [hr] at hmember
    | some n => exact ⟨n, rfl, by simpa [hr] using hmember⟩
  have hw : (withoutId name : M G ProtoName) s = (.ok nameNoId, s) := by
    simp [withoutId, hreset, Prog.expect]
  unfold onDisconnectionDetected
  rw [← hname, bind_ok hw, read_bind_run,
    if_neg (by simpa [Option.isSome_iff_ne_none] using hlookup)]
  split
  · exact disconnect_starts X _ name _ hidle (by simp [*]) h
  · exact disconnect_starts X _ name _ hidle (by simp [*]) h

theorem processControlMessage_starts (hidle : s.currentTask = none) (h : s.CanStart X msg) :
    (processControlMessage X msg .South ackTx s).2.Settled := by
  obtain ⟨-, -, hd, ⟨ht, hnew⟩ | ⟨ht, hleave⟩⟩ := h
  · simp only [processControlMessage, ht]
    exact .inl (onDiscoveryRequest_starts ht hidle hd hnew)
  · simp only [processControlMessage, ht]
    unfold CanLeave at hleave
    split
    · rename_i hmeta
      rw [if_pos hmeta] at hleave
      exact onDisconnectionDetected_starts X hidle _ rfl hleave.1 hleave.2
    · rename_i hmeta
      rw [if_neg hmeta] at hleave
      obtain ⟨entry, hentry, hrem⟩ := hleave
      exact .inl (onLeaveRequest_starts X hidle hentry hrem)

theorem CanStart.isCommandMessage (h : s.CanStart X msg) : msg.type.isCommandMessage := by
  obtain ⟨-, -, -, ⟨ht, -⟩ | ⟨ht, -⟩⟩ := h <;> rw [ht] <;> rfl

/-- After a task that can start there is a task, or the session ends. -/
theorem onMessage_starts (hidle : s.currentTask = none) (h : s.CanStart X msg) :
    (onMessage X (.onMessage msg .South ackTx) s).2.Settled := by
  have hhandle : handle X (.onMessage msg .South ackTx) s =
      processControlMessage X msg .South ackTx s := by
    simp [handle, h.1, h.isCommandMessage]
  refine after ?_ fun output => encryptOutput_settled X output
  rw [hhandle]
  exact processControlMessage_starts X hidle h

end starts

/-! ## Runs -/

variable {ck : Checks}

/-- A task that is taken back from the channel, while others wait for it, can start. -/
def HandedBackCanStart (l : SessionLoop ck (SessionModerator G)) (e : Env × LoopEvent) : Prop :=
  match e.2, l.inner.common.sender.txSession with
  | .own, .onMessage msg .South _ :: rest =>
    l.inner.currentTask.isNone → l.inner.tasksTodo ≠ [] → handedBack rest = [] →
      l.inner.CanStart X msg
  | _, _ => True

instance decidableHandedBackCanStart (l : SessionLoop ck (SessionModerator G))
    (e : Env × LoopEvent) : Decidable (HandedBackCanStart X l e) := by
  unfold HandedBackCanStart
  split
  · exact inferInstance
  · exact inferInstance

section runs
variable {X} {l : SessionLoop ck (SessionModerator G)}

theorem dropped_settled (ackTx : Option AckTx) (s : SessionModerator G) (h : s.Settled) :
    (dropped (handler X) ackTx s).Settled :=
  settled_invariant.keeps (onCommon_view notify_shown) s h

theorem process_settled (m : SessionMessage) (h : l.inner.Settled) :
    (process (handler X) ck m l).inner.Settled :=
  process_keeps (onMessage_settled X _) dropped_settled h

/-- A task that is taken back from the channel starts, or is queued again, or nobody waits for
it. -/
theorem takeBack_settled {msg : Publish} {ackTx : Option AckTx}
    (h : l.inner.currentTask.isNone → l.inner.tasksTodo ≠ [] → l.inner.common.handed = [] →
      l.inner.CanStart X msg) :
    (process (handler X) ck (.onMessage msg .South ackTx) l).inner.Settled := by
  by_cases hs : l.inner.Settled
  · exact process_settled _ hs
  · unfold Settled QueueServed at hs
    push Not at hs
    obtain ⟨hidle, hqueue, hback⟩ := hs
    have hidle : l.inner.currentTask = none := by simpa using hidle
    have hstart := h (by simp [hidle]) hqueue hback
    have hactive : l.draining (handler X) = false := by
      simp [draining, handler, hstart.2.1]
    rw [process_south hactive, dispatch_inner]
    exact onMessage_starts X hidle hstart

theorem own_settled (h : l.inner.Settled) (hc : ∀ msg ackTx rest,
      l.inner.common.sender.txSession = .onMessage msg .South ackTx :: rest →
      l.inner.currentTask.isNone → l.inner.tasksTodo ≠ [] → handedBack rest = [] →
      l.inner.CanStart X msg) : (onEvent (handler X) ck .own l).inner.Settled := by
  cases htx : l.inner.common.sender.txSession with
  | nil => rwa [onEvent_own_nil htx]
  | cons m rest =>
    rw [onEvent_own_cons htx]
    by_cases hsouth : ∃ msg ackTx, m = .onMessage msg .South ackTx
    · obtain ⟨msg, ackTx, rfl⟩ := hsouth
      exact takeBack_settled fun hidle hqueue hback => hc msg ackTx rest htx hidle hqueue hback
    · refine process_settled m ?_
      have hsame : l.inner.common.handed = handedBack rest := by
        rw [handed, htx]
        exact List.filter_cons_of_neg (by cases m <;> simp_all)
      unfold Settled QueueServed at h ⊢
      rwa [hsame] at h

theorem step_settled (e : Env × LoopEvent) (h : l.inner.Settled) (hc : HandedBackCanStart X l e) :
    (SessionLoop.step (handler X) ck l e).inner.Settled := by
  obtain ⟨env, ev⟩ := e
  unfold SessionLoop.step
  split
  · have hbegin : (SessionLoop.begin (handler X) env l).inner.Settled := h
    cases ev with
    | own =>
      refine own_settled hbegin fun msg ackTx rest htx hidle hqueue hback => ?_
      have htx : l.inner.common.sender.txSession = .onMessage msg .South ackTx :: rest := htx
      rw [HandedBackCanStart, htx] at hc
      exact hc hidle hqueue hback
    | cancel =>
      rw [onEvent_cancel]
      split
      · exact hbegin
      · rw [dispatch_inner]
        exact onMessage_settled X .startDrain _ hbegin
    | _ => exact process_settled _ hbegin
  · exact h

end runs

/-- In every state of a run, between two events: if there is no task and none is handed back, then
none is queued. -/
theorem taskQueue_work_conserving (X : MlsLib G) (ck : Checks) (st : SessionSettings) (env : Env)
    (mls : G) (run : List (Env × LoopEvent))
    (h : Run.Meets (SessionLoop.step (handler X) ck) (HandedBackCanStart X) (.new (.new st env mls))
      run) :
    let s := (run.foldl (SessionLoop.step (handler X) ck) (.new (.new st env mls))).inner
    s.currentTask = none → handedBack s.common.sender.txSession = [] → s.tasksTodo = [] := by
  intro s
  have hinit : (.new (.new st env mls) : SessionLoop ck (SessionModerator G)).inner.Settled :=
    .inr (.inl rfl)
  have hs : s.Settled := Run.Meets.invariant (I := fun l => l.inner.Settled)
    (fun _ e h hc => step_settled e h hc) hinit h
  exact settled_iff.mp hs

/-! ## An invitation that fails at its start -/

open SessionLoop in
/-- The application invites any instance of an application. -/
def sampleInvite (app : UInt64) : LoopEvent :=
  .fromApp (sampleControl .DiscoveryRequest sampleLocal (sampleApp app NameId.NULL_COMPONENT) 0
    .discoveryRequest) none

open SessionLoop in
/-- Instance 7 of application 3 answers, joins and acknowledges its welcome. -/
def sampleJoin : List (Env × LoopEvent) :=
  let member := sampleApp 3 7
  [(sampleEnv 13, .fromSlim (sampleControl .DiscoveryReply member sampleLocal 10 .discoveryReply)),
   (sampleEnv 14, .fromSlim (sampleControl .JoinReply member sampleLocal 13
     (.joinReply ⟨none, some (.new member ⟨true, true⟩)⟩))),
   (sampleEnv 15, .fromSlim (sampleControl .GroupAck member sampleLocal 14 .groupAck)),
   (sampleEnv 16, .own)]

open SessionLoop in
/-- Two applications are invited; once the first one has joined, the second invitation starts. -/
theorem taskQueue_work_conserving_two :
    let run := [(sampleEnv 10, sampleInvite 3), (sampleEnv 11, sampleInvite 4),
      (sampleEnv 12, sampleInvite 5)] ++ sampleJoin
    let s := (run.foldl (SessionLoop.step (handler sampleLib) sampleChecks)
      (.new (.new sampleSettings (sampleEnv 1) ()))).inner
    s.currentTask = none → handedBack s.common.sender.txSession = [] → s.tasksTodo = [] :=
  taskQueue_work_conserving sampleLib sampleChecks sampleSettings (sampleEnv 1) () _
    (by decide +kernel)

open SessionLoop in
/-- The first application is invited twice and another one is waiting. The second invitation is
handed back, finds its application in the group and ends; nobody starts the last one. -/
theorem taskQueue_stalls : ∃ run : List (Env × LoopEvent),
    let l := run.foldl (SessionLoop.step (handler sampleLib) sampleChecks)
      (.new (.new sampleSettings (sampleEnv 1) ()))
    l.running ∧ l.panicked = none ∧ l.inner.currentTask = none ∧
      handedBack l.inner.common.sender.txSession = [] ∧ l.inner.tasksTodo ≠ [] :=
  ⟨[(sampleEnv 10, sampleInvite 3), (sampleEnv 11, sampleInvite 3),
    (sampleEnv 12, sampleInvite 4)] ++ sampleJoin, by decide +kernel⟩

end Slim.SessionModerator
