import Slim.Session.Proof.Loop
import Slim.Session.Proof.Moderator
import Slim.Session.Proof.Participant

/-!
# The replay filter of a session

With MLS every control message from the network is looked up in the filter before the handler gets
it. `logged` is a handler that writes down the control messages it gets, by sender and id; in a run
no entry of this log appears twice, as long as the filter has room and is not reset for a sender it
knows (`log_nodup`). It is reset when a member leaves.
-/

namespace Slim

open Prog

/-! ## What the filter knows -/

namespace Checks

variable {ck : Checks} {key : ProtoName × Nat} {sender : ProtoName}

def Known (seen : ck.Seen) (key : ProtoName × Nat) : Prop :=
  ∃ ids, ck.senders.peek seen key.1 = some ids ∧ (ck.ids.peek ids key.2).isSome

def idsOf (ck : Checks) (seen : ck.Seen) (source : ProtoName) : ck.ids.Cache :=
  (ck.senders.peek seen source).getD (ck.ids.new ck.maxSeenControlMessageIds)

/-- There is room for one more sender, and for one more id of this sender. -/
def HasRoom (ck : Checks) (seen : ck.Seen) (source : ProtoName) : Prop :=
  ck.senders.len seen < ck.senders.cap seen ∧
    ck.ids.len (ck.idsOf seen source) < ck.ids.cap (ck.idsOf seen source)

instance decidableHasRoom (ck : Checks) (seen : ck.Seen) (source : ProtoName) :
    Decidable (ck.HasRoom seen source) :=
  inferInstanceAs (Decidable (_ ∧ _))

variable {seen seen' : ck.Seen} {msg : Publish} {st : SessionSettings}

theorem Known.pop (h : Known seen key) (hne : key.1 ≠ sender) :
    Known (ck.senders.pop seen sender) key := by
  obtain ⟨ids, hids, hid⟩ := h
  exact ⟨ids, (ck.senders.peek_pop_ne hne).trans hids, hid⟩

theorem Known.ne_of_peek (h : Known seen key) (hsender : ck.senders.peek seen sender = none) :
    key.1 ≠ sender := by
  rintro rfl
  obtain ⟨ids, hids, -⟩ := h
  exact absurd (hids.symm.trans hsender) (by simp)

theorem checkReplay_seen (ck : Checks) (seen : ck.Seen) (msg : Publish) :
    (ck.checkReplay msg seen).2 = seen ∨ (ck.checkReplay msg seen).2 =
      ck.senders.put seen msg.source (ck.ids.put (ck.idsOf seen msg.source) msg.id ()) := by
  by_cases hid : msg.id = 0
  · simp [checkReplay, hid]
  · right
    simp only [checkReplay, hid, if_false, read_bind_run]
    split <;> rfl

theorem checkReplay_ok_iff :
    ck.checkReplay msg seen = (.ok (), seen') ↔ msg.id ≠ 0 ∧
      (ck.ids.peek (ck.idsOf seen msg.source) msg.id).isNone ∧
      seen' = ck.senders.put seen msg.source (ck.ids.put (ck.idsOf seen msg.source) msg.id ()) := by
  by_cases hid : msg.id = 0
  · simp [checkReplay, hid]
  · cases hpeek : ck.ids.peek (ck.idsOf seen msg.source) msg.id with
    | none => simp [checkReplay, hid, idsOf] at hpeek ⊢; simp [hpeek, eq_comm]
    | some u => simp [checkReplay, hid, idsOf] at hpeek ⊢; simp [hpeek]

theorem Known.checkReplay (h : Known seen key) (hroom : ck.HasRoom seen msg.source) :
    Known (ck.checkReplay msg seen).2 key := by
  obtain ⟨ids, hids, hid⟩ := h
  rcases checkReplay_seen ck seen msg with hseen | hseen <;> rw [hseen]
  · exact ⟨ids, hids, hid⟩
  by_cases hs : key.1 = msg.source
  · refine ⟨_, (congrArg _ hs).trans (ck.senders.peek_put_self hroom.1), ?_⟩
    by_cases hi : key.2 = msg.id
    · rw [hi, ck.ids.peek_put_self hroom.2]
      rfl
    · have hids' : ck.idsOf seen msg.source = ids := by rw [idsOf, ← hs, hids]; rfl
      rw [ck.ids.peek_put_ne hroom.2 hi, hids']
      exact hid
  · exact ⟨ids, by rw [ck.senders.peek_put_ne hroom.1 hs]; exact hids, hid⟩

/-- A message that passes the filter is new to it, and the filter knows it from then on. -/
theorem checkReplay_known (hroom : ck.HasRoom seen msg.source)
    (h : ck.checkReplay msg seen = (.ok (), seen')) :
    ¬ Known seen (msg.source, msg.id) ∧ Known seen' (msg.source, msg.id) := by
  obtain ⟨-, hnew, rfl⟩ := checkReplay_ok_iff.mp h
  refine ⟨?_, ⟨_, ck.senders.peek_put_self hroom.1, ?_⟩⟩
  · rintro ⟨ids, hids, hid⟩
    rw [idsOf] at hnew
    simp_all
  · rw [ck.ids.peek_put_self hroom.2]
    rfl

theorem checkIdentity_seen (verified : VerifiedControl) :
    Frame (fun seen => seen) (ck.checkIdentity st msg verified) := by
  refine .ite (.throw _) ?_
  cases verified.subject with
  | none => exact .pure _
  | some sub => exact .bind (.expect _ _) fun _ => .ite (.throw _) (.ite (.throw _) (.pure _))

/-- With MLS, a control message that passes the checks has passed the filter. -/
theorem verifyAndCheckReplay_ok (hmls : st.config.mlsSettings.isSome)
    (hcmd : msg.type.isCommandMessage) (h : ck.verifyAndCheckReplay st msg seen = (.ok (), seen')) :
    ck.checkReplay msg seen = (.ok (), seen') := by
  unfold verifyAndCheckReplay at h
  simp only [hmls, hcmd, Bool.true_or, Bool.not_true, Bool.false_and, Bool.true_and,
    Bool.false_eq_true, if_false] at h
  cases hverify : ck.verify msg with
  | error e => simp [hverify] at h
  | ok verified =>
    simp only [hverify, pure_bind_run] at h
    split at h
    · obtain ⟨_, seen₁, hid, h⟩ := bind_eq_ok.mp h
      have hseen : seen₁ = seen :=
        (congrArg Prod.snd hid).symm.trans (checkIdentity_seen verified seen)
      exact hseen ▸ ok_of_ite_throw h
    · exact ok_of_ite_throw h

theorem verifyAndCheckReplay_of_not_command (hcmd : ¬ msg.type.isCommandMessage) :
    ck.verifyAndCheckReplay st msg seen = (.ok (), seen) := by
  simp [verifyAndCheckReplay, hcmd]

theorem verifyAndCheckReplay_seen {Q : ck.Seen → Prop} (hQ : Q seen)
    (hreplay : Q (ck.checkReplay msg seen).2) : Q (ck.verifyAndCheckReplay st msg seen).2 := by
  have rest : ∀ {c d : Prop} [Decidable c] [Decidable d] {e : SessionError},
      Q ((if c then Prog.throw e else if d then ck.checkReplay msg else pure ()) seen).2 := by
    intro c d _ _ e
    split
    · exact hQ
    · split
      · exact hreplay
      · exact hQ
  unfold verifyAndCheckReplay
  generalize (if msg.type = .DiscoveryReply ∨ msg.type = .JoinReply then ck.pinned msg.source
    else none) = pinned
  split
  · exact hQ
  · cases ck.verify msg with
    | error e =>
      dsimp only
      split
      · exact hQ
      · exact rest
    | ok verified =>
      dsimp only
      rw [pure_bind_run]
      split
      · refine Prog.Keeps.bind_to (I := fun s => s = seen) ?_ (by rintro _ rfl; exact hQ) ?_ rfl
        · exact (checkIdentity_seen verified).keeps fun s => s = seen
        · rintro _ _ rfl
          exact rest
      · exact rest

end Checks

/-! ## Handlers that log -/

/-- The sender and the id of a control message from the network. -/
def controlKey : SessionMessage → Option (ProtoName × Nat)
  | .onMessage msg .North _ =>
    if msg.type.isCommandMessage then some (msg.source, msg.id) else none
  | _ => none

/-- `H`, with a log of the control messages from the network that it was given. -/
def MessageHandler.logged {σ : Type} (H : MessageHandler σ) :
    MessageHandler (σ × List (ProtoName × Nat)) where
  onMessage m := fun s =>
    ((H.onMessage m s.1).1, ((H.onMessage m s.1).2, s.2 ++ (controlKey m).toList))
  needsDrain s := H.needsDrain s.1
  common s := H.common s.1
  mapCommon f s := (H.mapCommon f s.1, s.2)
  clear s := (H.clear s.1, s.2)

namespace SessionLoop

variable {σ : Type} {H : MessageHandler σ} {ck : Checks} {m : SessionMessage}
  {l : SessionLoop ck (σ × List (ProtoName × Nat))}

theorem logged_lawful (hlaw : H.Lawful) : H.logged.Lawful :=
  ⟨fun f s => hlaw.common_mapCommon f s.1, fun s => hlaw.common_clear s.1⟩

theorem logged_keepsSettings (hset : KeepsSettings H) : KeepsSettings H.logged :=
  fun m s => hset m s.1

/-- The log is without repetitions, and the filter knows all of it. -/
structure LogKnown (l : SessionLoop ck (σ × List (ProtoName × Nat))) : Prop where
  nodup : l.inner.2.Nodup
  known : ∀ key ∈ l.inner.2, Checks.Known l.seen key

/-- The filter has room for the message, and is not reset for a sender that it knows. -/
def KeepsFilter (ck : Checks) (seen : ck.Seen) (m : SessionMessage) : Prop :=
  ∀ key ∈ controlKey m, ck.HasRoom seen key.1 ∧
    ∀ sender ∈ leaveSender m, sender ≠ key.1 ∧ ck.senders.peek seen sender = none

instance decidableKeepsFilter (ck : Checks) (seen : ck.Seen) (m : SessionMessage) :
    Decidable (KeepsFilter ck seen m) :=
  inferInstanceAs (Decidable (∀ key ∈ controlKey m, ck.HasRoom seen key.1 ∧
    ∀ sender ∈ leaveSender m, sender ≠ key.1 ∧ ck.senders.peek seen sender = none))

/-- The next message finds room in the filter. -/
def FindsRoom (H : MessageHandler σ) (ck : Checks) (l : SessionLoop ck σ) (e : Env × LoopEvent) :
    Prop :=
  ∀ m ∈ nextMessage H l e.2, ∀ key ∈ controlKey m, ck.HasRoom l.seen key.1

instance decidableFindsRoom (H : MessageHandler σ) (ck : Checks) (l : SessionLoop ck σ)
    (e : Env × LoopEvent) : Decidable (FindsRoom H ck l e) :=
  inferInstanceAs (Decidable (∀ m ∈ nextMessage H l e.2, ∀ key ∈ controlKey m,
    ck.HasRoom l.seen key.1))

/-- The next message finds room in the filter and does not reset it for a sender that it knows. -/
def NoReset (H : MessageHandler σ) (ck : Checks) (l : SessionLoop ck σ) (e : Env × LoopEvent) :
    Prop :=
  ∀ m ∈ nextMessage H l e.2, KeepsFilter ck l.seen m

instance decidableNoReset (H : MessageHandler σ) (ck : Checks) (l : SessionLoop ck σ)
    (e : Env × LoopEvent) : Decidable (NoReset H ck l e) :=
  inferInstanceAs (Decidable (∀ m ∈ nextMessage H l e.2, KeepsFilter ck l.seen m))

theorem leaveSender_of_controlKey (h : controlKey m = none) : leaveSender m = none := by
  unfold controlKey at h
  unfold leaveSender
  split
  · split
    · simp_all [SessionMessageType.isCommandMessage]
    · split
      · simp_all [SessionMessageType.isCommandMessage]
      · rfl
  · rfl

theorem controlKey_strip (m : SessionMessage) :
    controlKey (stripReservedMetadata m) = controlKey m := by
  unfold stripReservedMetadata
  split <;> rfl

theorem leaveSender_strip (m : SessionMessage) :
    leaveSender (stripReservedMetadata m) = leaveSender m := by
  unfold stripReservedMetadata
  split <;> rfl

@[simp] theorem exitIfDrained_seen (l : SessionLoop ck σ) : (exitIfDrained H l).seen = l.seen := by
  unfold exitIfDrained
  split <;> rfl

theorem dispatch_seen (fatal : Bool) (m : SessionMessage) (l : SessionLoop ck σ) :
    (dispatch H fatal m l).seen = l.seen ∨
      ∃ sender ∈ leaveSender m, (dispatch H fatal m l).seen = ck.senders.pop l.seen sender := by
  unfold dispatch
  rcases H.onMessage m l.inner with ⟨_ | _ | _, s⟩
  · rw [exitIfDrained_seen]
    cases leaveSender m with
    | none => exact .inl rfl
    | some sender => exact .inr ⟨sender, rfl, rfl⟩
  · cases fatal with
    | true => exact .inl rfl
    | false => exact .inl (exitIfDrained_seen _)
  · exact .inl rfl

/-- The handler logs a message that is new to it and known to the filter, whose reset spares the
log. -/
theorem LogKnown.dispatch (hl : LogKnown l)
    (hnew : ∀ key ∈ controlKey m, Checks.Known l.seen key ∧ key ∉ l.inner.2)
    (hreset : ∀ sender ∈ leaveSender m, ∀ key ∈ l.inner.2 ++ (controlKey m).toList, key.1 ≠ sender)
    (fatal : Bool) : LogKnown (dispatch H.logged fatal m l) := by
  have hlog : (SessionLoop.dispatch H.logged fatal m l).inner.2
      = l.inner.2 ++ (controlKey m).toList := by
    rw [dispatch_inner]
    rfl
  have hknown : ∀ key ∈ l.inner.2 ++ (controlKey m).toList, Checks.Known l.seen key := by
    intro key hkey
    obtain hkey | hkey := List.mem_append.mp hkey
    · exact hl.known key hkey
    · exact (hnew key (Option.mem_toList.mp hkey)).1
  refine ⟨?_, ?_⟩
  · rw [hlog]
    refine List.Nodup.append hl.nodup (Option.toList_nodup _) ?_
    intro key hkey hm
    exact (hnew key (Option.mem_toList.mp hm)).2 hkey
  · rw [hlog]
    intro key hkey
    obtain hseen | ⟨sender, hsender, hseen⟩ := dispatch_seen fatal m l <;> rw [hseen]
    · exact hknown key hkey
    · exact (hknown key hkey).pop (hreset sender hsender key hkey)

theorem LogKnown.accept (hl : LogKnown l) (hm : controlKey m = none) :
    LogKnown (accept H.logged m l) := by
  obtain h | ⟨_, ackTx, -, -, h⟩ := accept_cases m l <;> rw [h]
  · refine hl.dispatch ?_ ?_ _
    · rw [hm]
      rintro _ ⟨⟩
    · rw [leaveSender_of_controlKey hm]
      rintro _ ⟨⟩
  · exact ⟨hl.nodup, hl.known⟩

theorem LogKnown.process (hl : LogKnown l)
    (hmls : (H.common l.inner.1).settings.config.mlsSettings.isSome)
    (hm : KeepsFilter ck l.seen m) :
    LogKnown (process H.logged ck m l) := by
  rw [KeepsFilter, ← controlKey_strip, ← leaveSender_strip] at hm
  unfold SessionLoop.process
  split
  · rename_i msg ackTx hstrip
    rw [hstrip] at hm
    by_cases hcmd : msg.type.isCommandMessage
    · obtain ⟨hroom, hreset⟩ := hm (msg.source, msg.id) (by simp [controlKey, hcmd])
      have hkept : ∀ key ∈ l.inner.2, Checks.Known
          (ck.verifyAndCheckReplay (H.logged.common l.inner).settings msg l.seen).2 key :=
        fun key hkey => Checks.verifyAndCheckReplay_seen (Q := fun seen => Checks.Known seen key)
          (hl.known key hkey) ((hl.known key hkey).checkReplay hroom)
      split
      · rename_i seen hcheck
        rw [hcheck] at hkept
        obtain ⟨hnew, hknown⟩ := Checks.checkReplay_known hroom
          (Checks.verifyAndCheckReplay_ok hmls hcmd hcheck)
        have hkey : controlKey (.onMessage msg .North ackTx) = some (msg.source, msg.id) :=
          if_pos hcmd
        obtain h | ⟨_, _, hsouth, -, -⟩ := accept_cases
          (.onMessage msg .North ackTx) { l with seen }
        · rw [h]
          refine LogKnown.dispatch (l := { l with seen }) ⟨hl.nodup, hkept⟩ ?_ ?_ _
          · rw [hkey]
            rintro _ ⟨⟩
            exact ⟨hknown, fun hmem => hnew (hl.known _ hmem)⟩
          · rw [hkey]
            intro sender hsender key hmem
            obtain ⟨hne, hpeek⟩ := hreset sender hsender
            obtain hmem | hmem := List.mem_append.mp hmem
            · exact (hl.known key hmem).ne_of_peek hpeek
            · rw [List.mem_singleton.mp hmem]
              exact hne.symm
        · cases hsouth
      · rename_i hcheck
        rw [hcheck] at hkept
        exact ⟨hl.nodup, hkept⟩
      · rename_i hcheck
        rw [hcheck] at hkept
        exact ⟨hl.nodup, hkept⟩
    · rw [Checks.verifyAndCheckReplay_of_not_command hcmd]
      exact hl.accept (if_neg hcmd)
  · rename_i hnorth
    refine hl.accept ?_
    unfold controlKey
    split
    · exact (hnorth _ _ ‹_›).elim
    · rfl

theorem LogKnown.onEvent (hlaw : H.Lawful) {ev : LoopEvent} (hl : LogKnown l)
    (hmls : (H.common l.inner.1).settings.config.mlsSettings.isSome)
    (hev : ∀ m ∈ nextMessage H.logged l ev, KeepsFilter ck l.seen m) :
    LogKnown (onEvent H.logged ck ev l) := by
  cases ev with
  | own =>
    cases htx : (H.logged.common l.inner).sender.txSession with
    | nil => rwa [onEvent_own_nil htx]
    | cons m rest =>
      rw [onEvent_own_cons htx]
      refine LogKnown.process ⟨hl.nodup, hl.known⟩ ?_
        (hev m (by simp [nextMessage, htx]))
      rw [taken, MessageHandler.logged, hlaw.common_mapCommon]
      exact hmls
  | cancel =>
    rw [onEvent_cancel]
    split
    · exact hl
    · refine hl.dispatch ?_ ?_ _
      · rintro _ ⟨⟩
      · rintro _ ⟨⟩
  | _ => exact LogKnown.process hl hmls (hev _ rfl)

theorem LogKnown.step (hlaw : H.Lawful) {e : Env × LoopEvent} (hl : LogKnown l)
    (hmls : (H.common l.inner.1).settings.config.mlsSettings.isSome)
    (he : NoReset H.logged ck l e) :
    LogKnown (step H.logged ck l e) := by
  unfold SessionLoop.step
  split
  · refine LogKnown.onEvent hlaw ⟨hl.nodup, hl.known⟩ ?_ ?_
    · show (H.common (H.clear (H.mapCommon _ l.inner.1))).settings.config.mlsSettings.isSome
      rw [hlaw.common_clear, hlaw.common_mapCommon]
      exact hmls
    · rw [nextMessage_begin (logged_lawful hlaw)]
      exact he
  · exact hl

/-- With MLS no message is logged twice, in every run of a lawful handler. -/
theorem log_nodup (hlaw : H.Lawful) (hset : KeepsSettings H) {s : σ}
    (hmls : (H.common s).settings.config.mlsSettings.isSome) {run : List (Env × LoopEvent)}
    (hrun : Run.Meets (step H.logged ck) (NoReset H.logged ck) (.new (s, [])) run) :
    (run.foldl (step H.logged ck) (.new (s, []))).inner.2.Nodup := by
  refine (Run.Meets.invariant (I := fun l => LogKnown l ∧
    (H.logged.common l.inner).fixed.config.mlsSettings.isSome) ?_ ?_ hrun).1.nodup
  · rintro l e ⟨hl, hmls⟩ he
    refine ⟨hl.step hlaw hmls he, ?_⟩
    rw [step_fixed (logged_lawful hlaw) (logged_keepsSettings hset)]
    exact hmls
  · refine ⟨⟨List.nodup_nil, ?_⟩, hmls⟩
    rintro _ ⟨⟩

end SessionLoop

/-! ## Moderators and participants -/

open SessionLoop in
/-- A control message from the network reaches the handler of a session with MLS at most once: in
every run in which the filter has room and is not reset for a sender it knows. -/
theorem control_message_once {G : Type} (X : MlsLib G) (ck : Checks)
    (run : List (Env × LoopEvent)) :
    (∀ s : SessionModerator G, s.common.settings.config.mlsSettings.isSome →
      Run.Meets (step (SessionModerator.handler X).logged ck)
        (NoReset (SessionModerator.handler X).logged ck) (.new (s, [])) run →
      (run.foldl (step (SessionModerator.handler X).logged ck) (.new (s, []))).inner.2.Nodup) ∧
    ∀ s : SessionParticipant G, s.common.settings.config.mlsSettings.isSome →
      Run.Meets (step (SessionParticipant.handler X).logged ck)
        (NoReset (SessionParticipant.handler X).logged ck) (.new (s, [])) run →
      (run.foldl (step (SessionParticipant.handler X).logged ck) (.new (s, []))).inner.2.Nodup :=
  ⟨fun _ hmls => log_nodup (SessionModerator.handler_lawful X) (SessionModerator.onMessage_fixed X)
      hmls, fun _ hmls => log_nodup (SessionParticipant.handler_lawful X)
      (SessionParticipant.onMessage_fixed X) hmls⟩

namespace SessionLoop

def sampleSigned : Checks := { sampleChecks with verify := fun _ => .ok ⟨none, true⟩ }

def sampleMlsSettings : SessionSettings :=
  { sampleSettings with config := { sampleSettings.config with mlsSettings := some 100 } }

/-- The moderator and another member of the group that `sampleLocal` joins. -/
def sampleModerator : ProtoName := sampleApp 4 1

def sampleOther : ProtoName := sampleApp 3 7

/-- `sampleLocal` joins the group, and `sampleOther` goes offline. -/
def sampleJoined : List (Env × LoopEvent) :=
  [(sampleEnv 10, .fromSlim (sampleControl .JoinRequest sampleModerator sampleLocal 20
     (.joinRequest none none none (some 100)))),
   (sampleEnv 11, .fromSlim (sampleControl .GroupWelcome sampleModerator sampleLocal 21
     (.groupWelcome ⟨[.new sampleModerator ⟨true, true⟩, .new sampleLocal ⟨true, true⟩,
       .new sampleOther ⟨true, true⟩], some ⟨1, []⟩⟩))),
   (sampleEnv 12, .fromSlim (sampleControl .UpdateParticipantState sampleOther sampleLocal 5
     (.updateParticipantState ⟨some sampleOther, ParticipantState.Offline.toInt, 0⟩)))]

/-- `sampleOther` is removed from the group; then its update is sent again. -/
def sampleRemoved : List (Env × LoopEvent) :=
  [(sampleEnv 13, .fromSlim (sampleControl .GroupUpdate sampleModerator sampleLocal 22
     (.groupUpdate ⟨GroupUpdateOp.Remove.toInt, some (.new sampleOther ⟨true, true⟩), [],
       some ⟨2, []⟩⟩))),
   (sampleEnv 14, .fromSlim (sampleControl .UpdateParticipantState sampleOther sampleLocal 5
     (.updateParticipantState ⟨some sampleOther, ParticipantState.Offline.toInt, 0⟩)))]

end SessionLoop

open SessionLoop in
/-- A copy of an update is dropped as long as the member is in the group. -/
theorem control_message_once_joined :
    let again := sampleJoined ++ sampleJoined
    let s : SessionModerator Unit := .new sampleMlsSettings (sampleEnv 1) ()
    let p : SessionParticipant Unit := .new sampleMlsSettings (sampleEnv 1) ()
    (again.foldl (step (SessionModerator.handler sampleLib).logged sampleSigned)
      (.new (s, []))).inner.2.Nodup ∧
    (again.foldl (step (SessionParticipant.handler sampleLib).logged sampleSigned)
      (.new (p, []))).inner.2.Nodup :=
  ⟨(control_message_once sampleLib sampleSigned _).1 _ rfl (by decide +kernel),
    (control_message_once sampleLib sampleSigned _).2 _ rfl (by decide +kernel)⟩

open SessionLoop in
/-- The removal of a member from the group makes the filter forget its ids, and a copy of its update
is handed to the handler. -/
theorem control_message_replayed :
    let p : SessionParticipant Unit := .new sampleMlsSettings (sampleEnv 1) ()
    let H := (SessionParticipant.handler sampleLib).logged
    let run := sampleJoined ++ sampleRemoved
    Run.Meets (step H sampleSigned) (FindsRoom H sampleSigned) (.new (p, [])) run ∧
      ¬ (run.foldl (step H sampleSigned) (.new (p, []))).inner.2.Nodup := by
  decide +kernel

end Slim
