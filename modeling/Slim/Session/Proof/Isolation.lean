import Slim.Session.Proof.WorkConservation

/-!
# Which task a failure or a reply ends

A moderator works on one task at a time, and what it sent for an earlier task may still be pending.
`Belongs` says that a failure or a reply is for the current task, `Isolated` that one which is not
leaves the task, the status update it may stand for and everybody's answers as they are.

`handle_failure` does not compare ids: it ends whatever task is current. So does a discovery reply
or a join reply that is not dropped before its id is compared, since an error of theirs ends the
task. A leave reply or an acknowledgement with another id is refused and the task goes on.
-/

namespace Slim

open IdentityBinding Prog SessionControllerCommon SessionMessage

namespace ModeratorTask

def phases : ModeratorTask → List PhaseState
  | Add t => [t.discovery, t.join, t.welcome, t.commit]
  | Remove t => [t.commit, t.leave]
  | Rejoin t => [t.welcome, t.commit]
  | CloseOrDisconnect t => [t.notify]
  | UpdateLocalStatus => []
  | Update t => [t.proposal, t.commit]

/-- A phase of the task has this id. One that was not started has id `0`, as in the source. -/
def HasId (t : ModeratorTask) (id : Nat) : Prop := ∃ p ∈ t.phases, p.timerId = id

/-- A phase of the task waits for this id. -/
def WaitsFor (t : ModeratorTask) (id : Nat) : Prop :=
  ∃ p ∈ t.phases, p.timerId = id ∧ p.received = false

instance decidableHasId (t : ModeratorTask) (id : Nat) : Decidable (t.HasId id) :=
  inferInstanceAs (Decidable (∃ p ∈ t.phases, p.timerId = id))

instance decidableWaitsFor (t : ModeratorTask) (id : Nat) : Decidable (t.WaitsFor id) :=
  inferInstanceAs (Decidable (∃ p ∈ t.phases, p.timerId = id ∧ p.received = false))

section foreign
variable {t : ModeratorTask} {id : Nat}

theorem discoveryComplete_foreign (h : ¬ t.HasId id) : ∃ e, discoveryComplete id t = .error e := by
  cases t <;> simp_all [HasId, phases, discoveryComplete, unsupportedPhase]

theorem joinComplete_foreign (h : ¬ t.HasId id) : ∃ e, joinComplete id t = .error e := by
  cases t <;> simp_all [HasId, phases, joinComplete, unsupportedPhase]

theorem leaveComplete_foreign (h : ¬ t.HasId id) : ∃ e, leaveComplete id t = .error e := by
  cases t <;> simp_all [HasId, phases, leaveComplete, unsupportedPhase]

theorem updatePhaseCompleted_foreign (h : ¬ t.HasId id) :
    ∃ e, updatePhaseCompleted id t = .error e := by
  cases t <;> simp_all [HasId, phases, updatePhaseCompleted, unsupportedPhase]

theorem ackTxTake_ne (h : t.ackTx.isSome) : t.ackTxTake ≠ t := by
  cases t <;> simp_all [ackTx, ackTxTake] <;> (intro h'; rw [← h'] at h; simp at h)

end foreign

end ModeratorTask

/-! ## Failures and replies -/

/-- A control message that is given up, by its timer or by the network. -/
def SessionMessage.failureId : SessionMessage → Option Nat
  | .timerFailure id t _ => if t.isCommandMessage then some id else none
  | .messageError e =>
    if e.isCommandMessageError then e.sessionContext.map MessageContext.messageId else none
  | _ => none

/-- The replies to a moderator's control messages. -/
def SessionMessageType.isModeratorReply : SessionMessageType → Bool
  | .DiscoveryReply | .JoinReply | .LeaveReply | .GroupAck => true
  | _ => false

def SessionMessage.reply : SessionMessage → Option Publish
  | .onMessage msg .North _ => if msg.type.isModeratorReply then some msg else none
  | _ => none

namespace SessionModerator

variable {G : Type}

/-- The current task is the moderator's own change of status, by this message. -/
def ChangesStatusBy (s : SessionModerator G) (id : Nat) : Prop :=
  s.currentTask = some .UpdateLocalStatus ∧
    ∃ p ∈ s.common.pendingStatusUpdate, p.messageId = id

/-- The current task waits for this failure, or the reply has one of its ids. -/
def Belongs (s : SessionModerator G) (m : SessionMessage) : Prop :=
  (∃ id ∈ m.failureId, s.ChangesStatusBy id ∨ ∃ t ∈ s.currentTask, t.WaitsFor id) ∨
  (∃ msg ∈ m.reply, s.ChangesStatusBy msg.id ∨ ∃ t ∈ s.currentTask, t.HasId msg.id)

instance decidableChangesStatusBy (s : SessionModerator G) (id : Nat) :
    Decidable (s.ChangesStatusBy id) := by unfold ChangesStatusBy; exact inferInstance

instance decidableBelongs (s : SessionModerator G) (m : SessionMessage) :
    Decidable (s.Belongs m) := by
  unfold Belongs; exact inferInstance

/-- The current task, the status update and what was answered. -/
def work (s : SessionModerator G) : Option ModeratorTask × Option PendingStatusUpdate × Acks :=
  (s.currentTask, s.common.pendingStatusUpdate, s.common.acks)

variable (X : MlsLib G)

/-- A failure or a reply that is not for the current task leaves it alone. -/
def Isolated (s : SessionModerator G) (m : SessionMessage) : Prop :=
  m.failureId.isSome ∨ m.reply.isSome → ¬ s.Belongs m → (handle X m s).2.work = s.work

/-- A discovery reply from another name than the invited one is dropped. -/
def DropsDiscovery (s : SessionModerator G) (msg : Publish) : Prop :=
  s.common.settings.identityBinding = .Enforce ∧
    ∃ invited ∈ (s.currentTask.bind ModeratorTask.asAdd).bind AddParticipant.invited,
      invited.name.isSome ∧ msg.source.name.isSome ∧
        (invited.matchPrefix msg.source = some false ∨
          invited.id ≠ some NameId.NULL_COMPONENT ∧ invited.id ≠ msg.source.id)

/-- A join reply from another name than the one the join request went to is dropped. -/
def DropsJoin (s : SessionModerator G) (msg : Publish) : Prop :=
  s.common.settings.identityBinding = .Enforce ∧
    ∃ joining ∈ (s.currentTask.bind ModeratorTask.asAdd).bind AddParticipant.joining,
      joining.sameName msg.source = some false

/-- When a reply spares a task it is not for. -/
def SparesReply (s : SessionModerator G) (m : SessionMessage) (msg : Publish) : Prop :=
  match msg.type with
  | .DiscoveryReply => s.currentTask = none ∨ s.Belongs m ∨ s.DropsDiscovery msg
  | .JoinReply => s.currentTask = none ∨ s.Belongs m ∨ s.DropsJoin msg
  | .LeaveReply => ∀ t ∈ s.currentTask, t.taskComplete = false
  | .GroupAck =>
    ¬ (s.currentTask = some .UpdateLocalStatus ∧ s.common.pendingStatusUpdate.isSome)
  | _ => True

/-- When a failure or a reply spares a task it is not for. -/
def Spares (s : SessionModerator G) (m : SessionMessage) : Prop :=
  (m.failureId.isSome → s.currentTask = none ∨ s.Belongs m) ∧ ∀ msg ∈ m.reply, s.SparesReply m msg

/-! ## What leaves the task alone -/

section frames
variable {α : Type}

@[grind ←] theorem onSender_work (x : ControllerSender.M α) :
    Frame work (onSender x : M G α) := fun _ => rfl

@[grind ←] theorem onMls_work (x : MlsModeratorState.M G α) : Frame work (onMls x) :=
  onMls_frame (fun _ _ => rfl) x

theorem deleteRoute_work (name : ProtoName) (conn : ConnId) :
    Frame work (onCommon (deleteRoute name conn) : M G Unit) := by
  have hown : Frame (fun c => (c.pendingStatusUpdate, c.acks))
      (deleteRoute name conn) :=
    deleteRoute_frame (fun _ _ _ => rfl) name conn
  exact fun s => congrArg (fun c => (s.currentTask, c)) (hown s.common)

theorem rejectsDiscoveryReply_work (msg : Publish) :
    Frame work (rejectsDiscoveryReply msg : M G Bool) := by
  unfold rejectsDiscoveryReply
  grind

theorem rejectsJoinReply_work (msg : Publish) : Frame work (rejectsJoinReply X msg) :=
  rejectsJoinReply_frame X msg onMls_work

theorem popTask_work : Frame work (popTask : M G Unit) := by
  refine .bind (.read _) fun s => .ite (.pure _) ?_
  cases s.tasksTodo with
  | nil => exact .pure _
  | cons task rest => exact .bind (.modify fun _ => rfl) fun _ => fun _ => rfl

theorem markOffline_task (missing : List ProtoName) :
    Frame currentTask (markOffline missing : M G Unit) :=
  .bind (fun _ => rfl) fun _ => .each (fun _ => .bind (fun _ => rfl) fun _ => fun _ => rfl) _

end frames

/-! ## Failures -/

section failures
variable (messageId : Nat) (error : SessionError) {s : SessionModerator G} {t : ModeratorTask}

/-- The task ends, unless what comes before goes wrong. -/
theorem end_after {x : M G Unit} (hx : (x s).1 = .ok () ∨ (x s).2.currentTask ≠ some t) :
    ((do x; setTask none; popTask : M G Unit) s).2.currentTask ≠ some t := by
  have hend (s : SessionModerator G) :
      ((do setTask none; popTask : M G Unit) s).2.currentTask = none :=
    congrArg Prod.fst (popTask_work { s with currentTask := none })
  rw [bind_run]
  rcases hr : x s with ⟨_ | _ | _, s'⟩ <;> rw [hr] at hx
  · exact (hend s').trans_ne (by simp)
  · simpa using hx
  · simpa using hx

theorem finishStatusUpdate_ok (pending : PendingStatusUpdate) (f : Roster → Roster) :
    ((finishStatusUpdate pending f : M G Unit) s).1 = .ok () := by
  unfold finishStatusUpdate
  cases pending.status <;> rfl

theorem reportFailure_task (missing : List ProtoName) (h : s.currentTask = some t) :
    ((reportFailure missing error : M G Unit) s).1 = .ok () ∨
      ((reportFailure missing error : M G Unit) s).2.currentTask = some t.ackTxTake ∧
        t.ackTx.isSome := by
  unfold reportFailure
  rw [read_bind_run, h]
  dsimp only
  cases htx : t.ackTx with
  | none => exact .inl rfl
  | some tx =>
    have hkeep : Frame currentTask (do
        if t.partialSuccess then
          markOffline missing
          onCommon (notify (some tx) (.ok ()))
        else
          onCommon (notify (some tx) (.error (t.failureMessage error))) : M G Unit) :=
      .ite (.bind (markOffline_task missing) fun _ => fun _ => rfl) fun _ => rfl
    exact .inr ⟨hkeep { s with currentTask := some t.ackTxTake }, rfl⟩

/-- `handle_failure`, once it is known who did not answer. -/
def settleFailure (missing : List ProtoName) : M G Unit := do
  let current ← Prog.read currentTask
  if current = some .UpdateLocalStatus then
    let pending ← takeStatusUpdate
    match pending with
    | some pending => finishStatusUpdate pending (Roster.mapValues (answered missing))
    | none => pure ()
  else reportFailure missing error
  setTask none
  popTask

theorem handleFailure_eq : ∃ missing, handleFailure messageId error s =
    settleFailure error missing (onSender (ControllerSender.onFailure messageId) s).2 := ⟨_, rfl⟩

theorem handleFailure_idle (h : s.currentTask = none) :
    (handleFailure messageId error s).2.work = s.work := by
  have settle (missing : List ProtoName) (s : SessionModerator G) (h : s.currentTask = none) :
      (settleFailure error missing s).2.work = s.work := by
    have hreport : reportFailure missing error s = (.ok (), s) := by
      rw [reportFailure, read_bind_run, h]
      rfl
    have hset : { s with currentTask := none } = s := by
      rw [← h]
    rw [settleFailure, read_bind_run, if_neg (by simp [h]), bind_ok hreport]
    exact (popTask_work _).trans (congrArg work hset)
  obtain ⟨missing, heq⟩ := handleFailure_eq messageId error
  rw [heq]
  exact settle missing _ h

theorem handleFailure_ends (h : s.currentTask = some t) :
    (handleFailure messageId error s).2.currentTask ≠ some t := by
  have settle (missing : List ProtoName) (s : SessionModerator G) (h : s.currentTask = some t) :
      (settleFailure error missing s).2.currentTask ≠ some t := by
    have htake : (takeStatusUpdate : M G _) s = (.ok s.common.pendingStatusUpdate, _) := rfl
    rw [settleFailure, read_bind_run]
    split
    · rw [bind_ok htake]
      cases s.common.pendingStatusUpdate with
      | none => exact end_after (x := pure ()) (.inl rfl)
      | some pending => exact end_after (.inl (finishStatusUpdate_ok pending _))
    · refine end_after ((reportFailure_task error _ h).imp_right fun ⟨ht, hack⟩ => ?_)
      rw [ht]
      simpa using ModeratorTask.ackTxTake_ne hack
  obtain ⟨missing, heq⟩ := handleFailure_eq messageId error
  rw [heq]
  exact settle missing _ h

theorem handle_failure {X : MlsLib G} {m : SessionMessage} (h : m.failureId.isSome) :
    ∃ id error, (handle X m s).2 = (handleFailure id error s).2 := by
  have hrun (id : Nat) (error : SessionError) :
      ((do handleFailure id error; pure [] : M G SessionOutput) s).2 =
        (handleFailure id error s).2 := by
    rw [bind_run]
    rcases handleFailure id error s with ⟨_ | _ | _, s'⟩ <;> rfl
  cases m with
  | timerFailure id t name =>
    have ht : t.isCommandMessage := by
      by_contra hn
      simp [failureId, hn] at h
    exact ⟨id, .MessageSendRetryFailed id, by simp only [handle, ht]; exact hrun _ _⟩
  | messageError e =>
    have he : e.isCommandMessageError := by
      by_contra hn
      simp [failureId, hn] at h
    obtain ⟨ctx, hctx⟩ : ∃ ctx, e.sessionContext = some ctx := by
      cases hc : e.sessionContext with
      | none => simp [SessionError.isCommandMessageError, hc] at he
      | some ctx => exact ⟨ctx, rfl⟩
    exact ⟨ctx.messageId, e, by simp only [handle, handleMessageError, hctx, he]; exact hrun _ _⟩
  | _ => simp [failureId] at h

end failures

/-! ## Replies -/

section replies
variable {X} {msg : Publish} {s : SessionModerator G} {t : ModeratorTask}
  {f : ModeratorTask → ModeratorTask.Result} {m : SessionMessage}

theorem onTask_none (f : ModeratorTask → ModeratorTask.Result) (h : s.currentTask = none) :
    (onTask f : M G Unit) s = (.panic unwrapNone, s) := by
  rw [onTask, read_bind_run, h]
  rfl

theorem onTask_error {e : SessionError} (h : s.currentTask = some t) (hf : f t = .error e) :
    (onTask f : M G Unit) s = (.err e, s) := by
  rw [onTask, read_bind_run, h, expect_some_bind_run, hf]
  rfl

/-- A phase that the task refuses to complete stops the handler. -/
theorem onTask_refused {β : Type} {k : Unit → M G β}
    (hf : ∀ t ∈ s.currentTask, ∃ e, f t = .error e) : ((onTask f >>= k) s).2 = s := by
  cases ht : s.currentTask with
  | none => rw [bind_panic (onTask_none f ht)]
  | some t =>
    obtain ⟨e, he⟩ := hf t ht
    rw [bind_err (onTask_error ht he)]

/-- Work through the first part of a program, which leaves the task alone. -/
theorem work_bind {α β : Type} {x : M G α} {f : α → M G β} (hx : Frame work x)
    (hf : ∀ a s', s'.work = s.work → (f a s').2.work = s.work) : ((x >>= f) s).2.work = s.work :=
  Prog.Keeps.bind_to (I := fun s' => s'.work = s.work) (fun s' h => (hx s').trans h)
    (fun _ h => h) hf rfl

theorem onGroupAck_spares (hid : ∀ t ∈ s.currentTask, ¬ t.HasId msg.id)
    (hst : ¬ (s.currentTask = some .UpdateLocalStatus ∧ s.common.pendingStatusUpdate.isSome)) :
    (onGroupAck msg s).2.work = s.work := by
  refine work_bind (onSender_work _) fun output s' h => ?_
  have htask : s'.currentTask = s.currentTask := congrArg Prod.fst h
  have hpending : s'.common.pendingStatusUpdate = s.common.pendingStatusUpdate :=
    congrArg (fun w => w.2.1) h
  rw [read_bind_run]
  split
  · exact h
  · cases ht : s.currentTask with
    | none =>
      rw [id, htask, ht]
      exact h
    | some t =>
      obtain ⟨e, he⟩ := ModeratorTask.updatePhaseCompleted_foreign (hid t ht)
      have hall : (onAllAcked msg : M G SessionOutput) s' = (.err e, s') := by
        rw [onAllAcked, bind_err (onTask_error (htask.trans ht) he)]
      rw [id, htask, ht]
      dsimp only
      rw [if_neg (by rw [hpending]; simpa [ht] using hst), bind_err hall]
      exact h

theorem onLeaveReply_spares (hid : ∀ t ∈ s.currentTask, ¬ t.HasId msg.id)
    (hopen : ∀ t ∈ s.currentTask, t.taskComplete = false) :
    (onLeaveReply msg s).2.work = s.work := by
  refine work_bind (.expect _ _) fun conn s' h => ?_
  rw [← h]
  refine work_bind (deleteRoute_work _ _) fun _ s₁ h₁ => ?_
  rw [← h₁]
  refine work_bind (onSender_work _) fun output s₂ h₂ => ?_
  have htask : s₂.currentTask = s.currentTask := congrArg Prod.fst (h₂.trans (h₁.trans h))
  rw [← h₂, read_bind_run]
  have hdone : ((do taskDone; pure output : M G SessionOutput) s₂).2.work = s₂.work := by
    cases ht : s.currentTask with
    | none => rw [taskDone, bind_run, read_bind_run, htask, ht]; rfl
    | some t =>
      have hd : (taskDone : M G Unit) s₂ = (.ok (), s₂) := by
        rw [taskDone, read_bind_run, htask, ht, expect_some_bind_run, if_pos (by simp [hopen t ht])]
        rfl
      rw [bind_ok hd]
      rfl
  split
  · rw [onTask_refused fun t ht => ModeratorTask.leaveComplete_foreign (hid t (htask ▸ ht))]
  · exact hdone

theorem failTaskAndContinue_eq (e : SessionError) (s : SessionModerator G) :
    ∃ s', failTaskAndContinue e s = (.ok e, s') ∧ (s'.work = s.work ↔ s.currentTask = none) := by
  obtain ⟨s₁, herr, hnone, hidle⟩ : ∃ s₁, handleTaskError e s = (.ok e, s₁) ∧
      s₁.currentTask = none ∧ (s.currentTask = none → s₁.work = s.work) :=
    ⟨_, rfl, rfl, fun h => by simp [h, work, notify]⟩
  have hpop : popTask s₁ = (.ok (), (popTask s₁).2) := by
    rw [popTask, read_bind_run, id, hnone]
    cases s₁.tasksTodo <;> rfl
  refine ⟨(popTask s₁).2, ?_, ?_⟩
  · rw [failTaskAndContinue, bind_ok herr, bind_run, ignoreErr, hpop]
    rfl
  · rw [popTask_work]
    exact ⟨fun h => (congrArg Prod.fst h).symm.trans hnone, hidle⟩

/-- What leaves the task alone spares it unless it returns an error. -/
theorem mapFail_iff {α : Type} {x : M G α} (hx : (x s).2.work = s.work) :
    ((x.mapErr failTaskAndContinue) s).2.work = s.work ↔
      s.currentTask = none ∨ ∀ e, ((x.mapErr failTaskAndContinue) s).1 ≠ .err e := by
  rw [mapErr]
  rcases hr : x s with ⟨_ | e | _, s'⟩ <;> rw [hr] at hx
  · simpa using hx
  · obtain ⟨s'', hf, hiff⟩ := failTaskAndContinue_eq e s'
    have htask : s'.currentTask = s.currentTask := congrArg Prod.fst hx
    dsimp only at hx ⊢
    rw [bind_ok hf, ← hx, ← htask]
    exact hiff.trans (by simp [Prog.throw])
  · simpa using hx

section
variable (hid : ∀ t ∈ s.currentTask, ¬ t.HasId msg.id)
include hid

theorem reply_foreign {k : SessionOutput → Unit → M G SessionOutput} {rejects : M G Bool}
    (hrejects : Frame work rejects)
    (hf : ∀ t : ModeratorTask, ¬ t.HasId msg.id → ∃ e, f t = .error e) :
    ((rejects >>= fun rejected => if rejected then pure [] else
      onSender (ControllerSender.onMessage msg) >>= fun output => onTask f >>= k output) s).2.work =
      s.work := by
  refine work_bind hrejects fun rejected s₁ h₁ => ?_
  split
  · exact h₁
  rw [← h₁]
  refine work_bind (onSender_work _) fun output s₂ h₂ => ?_
  have htask : s₂.currentTask = s.currentTask := congrArg Prod.fst (h₂.trans h₁)
  rwa [onTask_refused fun t ht => hf t (hid t (htask ▸ ht))]

theorem onDiscoveryReplyInner_foreign : (onDiscoveryReplyInner X msg s).2.work = s.work :=
  reply_foreign hid (rejectsDiscoveryReply_work msg)
    fun _ => ModeratorTask.discoveryComplete_foreign

theorem onJoinReplyInner_foreign : (onJoinReplyInner X msg s).2.work = s.work :=
  reply_foreign hid (rejectsJoinReply_work X msg) fun _ => ModeratorTask.joinComplete_foreign

end

theorem onDiscoveryReply_dropped (h : s.DropsDiscovery msg) :
    (onDiscoveryReply X msg s).2.work = s.work := by
  obtain ⟨hmode, invited, hinvited, hname, hsource, hother⟩ := h
  obtain ⟨a, ha⟩ := Option.isSome_iff_exists.mp hname
  obtain ⟨b, hb⟩ := Option.isSome_iff_exists.mp hsource
  have hreject : (rejectsDiscoveryReply msg : M G Bool) s = (.ok true, s) := by
    rw [rejectsDiscoveryReply, read_bind_run, id, show _ = some invited from hinvited]
    simp only [ProtoName.id, ProtoName.matchPrefix, ha, hb, Option.map_some, Option.bind_eq_bind,
      Option.bind_some, Option.some.injEq, ne_eq] at hother ⊢
    rw [expect_some_bind_run]
    split
    · rename_i hnull
      have hprefix : a.prefix3 ≠ b.prefix3 := by simpa [hnull] using hother
      simp [hmode, mismatch, hprefix]
    · rcases hother with hprefix | hid
      · simp [hmode, mismatch, hprefix]
      · simp [hmode, mismatch, hid.2]
  have hinner : onDiscoveryReplyInner X msg s = (.ok [], s) := by
    rw [onDiscoveryReplyInner, bind_ok hreject]
    rfl
  rw [onDiscoveryReply, mapErr, hinner]

theorem onJoinReply_dropped (h : s.DropsJoin msg) : (onJoinReply X msg s).2.work = s.work := by
  obtain ⟨hmode, joining, hjoining, hother⟩ := h
  have hreject : rejectsJoinReply X msg s = (.ok true, s) := by
    rw [rejectsJoinReply, read_bind_run, id]
    simp only [hmode]
    rw [show _ = some joining from hjoining]
    simp [sameName, hother]
    rfl
  have hinner : onJoinReplyInner X msg s = (.ok [], s) := by
    rw [onJoinReplyInner, bind_ok hreject]
    rfl
  rw [onJoinReply, mapErr, hinner]

theorem not_hasId (h : ¬ s.Belongs m) (hr : m.reply = some msg) :
    ∀ t ∈ s.currentTask, ¬ t.HasId msg.id :=
  fun t ht hid => h (.inr ⟨msg, hr, .inr ⟨t, ht, hid⟩⟩)

/-- A reply is refused while the moderator is offline, or handled by the function for its type. -/
theorem handle_reply (hr : m.reply = some msg) :
    s.common.online = false ∧ (handle X m s).2.work = s.work ∨
      msg.type.isModeratorReply ∧ ∃ s', handle X m s = processControlMessage X msg .North none s' ∧
        s'.work = s.work ∧ s'.common.settings = s.common.settings := by
  obtain ⟨ackTx, rfl, htype⟩ : ∃ ackTx, m = .onMessage msg .North ackTx ∧
      msg.type.isModeratorReply := by
    unfold reply at hr
    split at hr
    · split at hr
      · cases hr
        exact ⟨_, rfl, ‹_›⟩
      · cases hr
    · cases hr
  have hcommand : msg.type.isCommandMessage := by
    revert htype
    cases msg.type <;> decide
  have hack : processControlMessage X msg .North ackTx = processControlMessage X msg .North
      none := by
    revert htype
    unfold processControlMessage
    cases msg.type <;> first | (intro _; rfl) | (intro h; exact absurd h (by decide))
  have heq : handle X (.onMessage msg .North ackTx) s = (do
      let online ← Prog.read fun s => s.common.online
      if !online ∧ !allowedOffline msg .North then Prog.throw .ParticipantOffLine
      else processControlMessage X msg .North none : M G SessionOutput)
        ((modifySender (ControllerSender.notifyReceivedActivity msg) : M G Unit) s).2 := by
    rw [← hack]
    simp only [handle, hcommand]
    rfl
  rw [heq, read_bind_run]
  split
  · rename_i hoff
    exact .inl ⟨Bool.eq_false_of_not_eq_true' hoff.1, rfl⟩
  · exact .inr ⟨htype, _, rfl, rfl, rfl⟩

theorem spares_reply {s' : SessionModerator G} (hwork : s'.work = s.work)
    (hsettings : s'.common.settings = s.common.settings) (htype : msg.type.isModeratorReply)
    (hid : ∀ t ∈ s.currentTask, ¬ t.HasId msg.id) (hforeign : ¬ s.Belongs m)
    (h : s.SparesReply m msg) : (processControlMessage X msg .North none s').2.work = s.work := by
  have htask : s'.currentTask = s.currentTask := congrArg Prod.fst hwork
  have hpending : s'.common.pendingStatusUpdate = s.common.pendingStatusUpdate :=
    congrArg (fun w => w.2.1) hwork
  obtain ht | ht | ht | ht : msg.type = .DiscoveryReply ∨ msg.type = .JoinReply ∨
      msg.type = .LeaveReply ∨ msg.type = .GroupAck := by
    revert htype
    cases msg.type <;> simp [SessionMessageType.isModeratorReply]
  all_goals
    rw [← hwork]
    simp only [SparesReply, ht] at h
    simp [processControlMessage, ht]
  · rcases h with h | h | h
    · exact (mapFail_iff (onDiscoveryReplyInner_foreign (by rwa [htask]))).mpr
        (.inl (htask.trans h))
    · exact absurd h hforeign
    · refine onDiscoveryReply_dropped ?_
      rwa [DropsDiscovery, htask, hsettings]
  · rcases h with h | h | h
    · exact (mapFail_iff (onJoinReplyInner_foreign (by rwa [htask]))).mpr (.inl (htask.trans h))
    · exact absurd h hforeign
    · refine onJoinReply_dropped ?_
      rwa [DropsJoin, htask, hsettings]
  · exact onLeaveReply_spares (by rwa [htask]) (by rwa [htask])
  · exact onGroupAck_spares (by rwa [htask]) (by rwa [htask, hpending])

end replies

/-- A failure or a reply that is not for the current task leaves the task alone when `Spares` holds;
for a failure, only then. A discovery reply or a join reply ends it when it is refused with an
error, and only then. -/
theorem failures_isolated (s : SessionModerator G) (m : SessionMessage) :
    (s.Spares m → s.Isolated X m) ∧ (m.failureId.isSome → (s.Isolated X m ↔ s.Spares m)) ∧
      ∀ msg ∈ m.reply, msg.type = .DiscoveryReply ∨ msg.type = .JoinReply → ¬ s.Belongs m →
        s.common.online →
          (s.Isolated X m ↔ s.currentTask = none ∨ ∀ e, (handle X m s).1 ≠ .err e) := by
  have hspares : s.Spares m → s.Isolated X m := by
    rintro ⟨hfail, hreply⟩ hm hforeign
    rcases hm with hm | hm
    · obtain ⟨id, error, heq⟩ := handle_failure hm
      rw [heq]
      exact handleFailure_idle id error ((hfail hm).resolve_right hforeign)
    · obtain ⟨msg, hr⟩ := Option.isSome_iff_exists.mp hm
      obtain ⟨-, h⟩ | ⟨htype, s', heq, hwork, hsettings⟩ := handle_reply hr
      · exact h
      · rw [heq]
        exact spares_reply hwork hsettings htype (not_hasId hforeign hr) hforeign (hreply msg hr)
  refine ⟨hspares, fun hm => ⟨fun hiso => ⟨fun _ => ?_, fun msg hr => ?_⟩, hspares⟩, ?_⟩
  · by_contra hn
    push Not at hn
    obtain ⟨t, ht⟩ := Option.ne_none_iff_exists'.mp hn.1
    obtain ⟨id, error, heq⟩ := handle_failure hm
    have hsame := congrArg Prod.fst (hiso (.inl hm) hn.2)
    rw [heq] at hsame
    exact handleFailure_ends id error ht (hsame.trans ht)
  · cases m <;> simp_all [failureId, reply]
  · intro msg hr htype hforeign honline
    have hiso : s.Isolated X m ↔ (handle X m s).2.work = s.work :=
      ⟨fun h => h (.inr (Option.isSome_of_mem hr)) hforeign, fun h _ _ => h⟩
    obtain ⟨hoff, -⟩ | ⟨-, s', heq, hwork, -⟩ := handle_reply hr
    · exact absurd (hoff.symm.trans honline) (by decide)
    have htask : s'.currentTask = s.currentTask := congrArg Prod.fst hwork
    have hid : ∀ t ∈ s'.currentTask, ¬ t.HasId msg.id := htask ▸ not_hasId hforeign hr
    rw [hiso, heq, ← hwork, ← htask]
    rcases htype with htype | htype
    · rw [show processControlMessage X msg .North none = onDiscoveryReply X msg by
        simp [processControlMessage, htype]]
      exact mapFail_iff (onDiscoveryReplyInner_foreign hid)
    · rw [show processControlMessage X msg .North none = onJoinReply X msg by
        simp [processControlMessage, htype]]
      exact mapFail_iff (onJoinReplyInner_foreign hid)

/-! ## An abandoned group update -/

open SessionLoop in
/-- An invitation waits for its discovery reply when a leave reply with another id comes in. -/
theorem failures_isolated_leave :
    let s := (SessionLoop.step (handler sampleLib) sampleChecks
      (.new (.new sampleSettings (sampleEnv 1) ())) (sampleEnv 10, sampleInvite 3)).inner
    s.currentTask.isSome ∧ s.Isolated sampleLib
      (.onMessage (sampleControl .LeaveReply (sampleApp 4 8) sampleLocal 99 .leaveReply) .North
        none) :=
  ⟨by decide +kernel, (failures_isolated sampleLib _ _).1 ⟨fun h => absurd h (by decide), by
    intro msg hmsg
    cases hmsg
    have hopen : ∀ t ∈ (SessionLoop.step (handler sampleLib) sampleChecks
        (.new (.new sampleSettings (sampleEnv 1) ()))
          (sampleEnv 10, sampleInvite 3)).inner.currentTask,
        t.taskComplete = false := by decide +kernel
    exact hopen⟩⟩

open SessionLoop in
/-- Two applications are invited. The first one joins; the welcome of the second one is given up,
and so is its invitation, but the group update it sent to the first one is still pending. A third
application is invited. -/
def sampleAbandoned : List (Env × LoopEvent) :=
  let member := sampleApp 4 8
  [(sampleEnv 10, sampleInvite 3)] ++ sampleJoin ++
  [(sampleEnv 20, sampleInvite 4),
   (sampleEnv 21, .fromSlim (sampleControl .DiscoveryReply member sampleLocal 20 .discoveryReply)),
   -- the group update gets id 22 and the welcome id 23
   ({ sampleEnv 22 with rand := fun k => 22 + k }, .fromSlim (sampleControl .JoinReply member
     sampleLocal 21 (.joinReply ⟨none, some (.new member ⟨true, true⟩)⟩))),
   (sampleEnv 24, .failure 23 .GroupWelcome none),
   (sampleEnv 30, .fromApp (sampleControl .DiscoveryRequest sampleLocal
     (sampleApp 5 NameId.NULL_COMPONENT) 0 .discoveryRequest) (some 1))]

open SessionLoop in
/-- The group update of the second invitation is given up: that ends the third one, and who asked
for it is told so. -/
theorem failure_ends_another_task : ∃ run : List (Env × LoopEvent),
    let l := run.foldl (SessionLoop.step (handler sampleLib) sampleChecks)
      (.new (.new sampleSettings (sampleEnv 1) ()))
    let l' := SessionLoop.step (handler sampleLib) sampleChecks l
      (sampleEnv 40, .failure 22 .GroupUpdate none)
    l.running ∧ ¬ l.inner.Isolated sampleLib (.timerFailure 22 .GroupUpdate none) ∧
      l.inner.currentTask.isSome ∧ l'.inner.currentTask = none ∧
      l'.inner.common.acks.map Prod.fst = l.inner.common.acks.map Prod.fst ++ [1] := by
  refine ⟨sampleAbandoned, by decide +kernel, fun h => ?_, by decide +kernel, by decide +kernel,
    by decide +kernel⟩
  have hsame := congrArg (fun w => w.1.isSome) (h (.inl rfl) (by decide +kernel))
  exact absurd hsame (by decide +kernel)

end SessionModerator

end Slim
