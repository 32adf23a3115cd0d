import Slim.Session.Proof.GroupChange
import Slim.Session.Proof.Loop
import Slim.Session.Proof.Participant
import Slim.Session.Proof.SenderRuns

/-!
# Messages that are held back

What the application publishes while there is no endpoint is held back, and `add_endpoint` returns
it for the first endpoint. The handlers that call `add_endpoint` drop what it returns, and what they
return themselves are control messages: what was flushed is never returned
(`flushed_never_returned`). Nothing is flushed as long as nothing is held back when an endpoint may
be added.

`Flush` is the invariant of what was flushed and returned and of the inner layer, the same for both
roles; `Flushing` says that a handler keeps it.
-/

namespace Slim

open SessionControllerCommon SessionLoop SessionOutput Prog

/-! ## The sender -/

theorem SessionSender.Effect.flushed {s s' : SessionSender} {p : Participant} {out : SessionOutput}
    (hs : s.Sound) (h : s.Effect (.addEndpoint p) out s') :
    (∀ m ∈ out.slim, m.type = .Msg) ∧
      (s.toFlush = false → out.slim = [] ∧ s'.toFlush = false) := by
  cases h with
  | quiet acks hpub hsettles hsends =>
    have hnone := hsends (.inl rfl)
    exact ⟨by simp [hnone], fun hheld => ⟨hnone, hheld⟩⟩
  | fail acks hpub hsettles hsends => cases hsends
  | join enc name hheld => exact ⟨by simp [slim], fun _ => ⟨rfl, hheld⟩⟩
  | flush enc name hheld hq hall =>
    refine ⟨fun m hm => ?_, fun h => absurd hheld (by simp [h])⟩
    rw [SenderHistory.slim_map] at hm
    obtain ⟨q, hq', hall'⟩ := hs.ring
    exact (hall' m ((hq'.get _ m).mp ((hq.get _ m).mpr ⟨hm, rfl⟩)).1).2.2

namespace Session

def held (s : Session) : Bool := s.sender.any SessionSender.toFlush

def Sound (s : Session) : Prop := ∀ sender ∈ s.sender, sender.Sound

section sound
variable {α : Type}

theorem onSender_sound {x : SessionSender.M α} {shut : M α} (e : SenderEvent)
    (hx : ∀ s, (x s).2 = (s.handle e).2) (hshut : Keeps Sound shut) :
    Keeps Sound (onSender x shut) := by
  intro s hs
  unfold onSender
  cases hsender : s.sender with
  | none => exact hshut s hs
  | some sender =>
    rintro _ ⟨rfl⟩
    rw [hx]
    exact (SessionSender.handle_effect (hs sender hsender) e).sound (hs sender hsender)

theorem onReceiver_sound {x : SessionReceiver.M α} {shut : M α} (hshut : Keeps Sound shut) :
    Keeps Sound (onReceiver x shut) := by
  intro s hs
  unfold onReceiver
  cases s.receiver with
  | none => exact hshut s hs
  | some receiver => exact hs

theorem notify_sound (ackTx : Option AckTx) (r : Except SessionError Unit) :
    Keeps Sound (notify ackTx r) := by
  refine .modify fun s hs => ?_
  cases ackTx <;> exact hs

theorem onTimer_sound {t : SessionMessageType} {name : Option EncodedName} {send} {receive}
    (e : SenderEvent) (hx : ∀ s, (send s).2 = (SessionSender.handle s e).2) :
    Keeps Sound (onTimer t name send receive) := by
  unfold onTimer
  split
  · exact onSender_sound e hx (.throw _)
  · split
    · exact onReceiver_sound (.throw _)
    · exact .throw _
  · exact .throw _

end sound

theorem startDrain_sound {s : Session} (hs : s.Sound) : s.startDrain.Sound := by
  intro sender h
  obtain ⟨x, hx, rfl⟩ := Option.map_eq_some_iff.mp h
  exact (SessionSender.Effect.startDrain (s := x)).sound (hs x hx)

theorem close_sound {s : Session} (hs : s.Sound) : s.close.Sound := by
  intro sender h
  obtain ⟨x, hx, rfl⟩ := Option.map_eq_some_iff.mp h
  exact (SessionSender.Effect.close (s := x)).sound (hs x hx)

theorem removeEndpoint_sound (name : ProtoName) : Keeps Sound (removeEndpoint name) :=
  .bind (onSender_sound (.removeEndpoint name) (fun _ => rfl) (.pure _)) fun _ =>
    onReceiver_sound (.pure _)

theorem onMessage_sound (draw : Nat) (m : SessionMessage) : Keeps Sound (onMessage draw m) := by
  have send (msg : Publish) (ackTx : Option AckTx) : Keeps Sound (toSender draw msg ackTx) :=
    onSender_sound (.message draw msg ackTx) (fun s => (SessionSender.run_snd s _).symm)
      (.bind (notify_sound _ _) fun _ => .throw _)
  have receive (x : SessionReceiver.M SessionOutput) :
      Keeps Sound (onReceiver x (Prog.throw .SessionReceiverShutdown)) :=
        onReceiver_sound (.throw _)
  unfold onMessage
  cases m with
  | onMessage msg direction ackTx =>
    dsimp only
    unfold onApplicationMessage
    split
    · exact .ite (send _ _) (receive _)
    · exact send _ _
    · exact send _ _
    · exact receive _
    · exact .bind (notify_sound _ _) fun _ => .throw _
  | messageError error =>
    exact onSender_sound (.slimFailure error) (fun s => (SessionSender.run_snd s _).symm) (.throw _)
  | timerTimeout id t name =>
    exact onTimer_sound (.timerTimeout id) fun s => (SessionSender.run_snd s _).symm
  | timerFailure id t name =>
    exact onTimer_sound (.timerFailure id) fun s => (SessionSender.run_snd s _).symm
  | startDrain => exact .bind (.modify fun _ => startDrain_sound) fun _ => .pure _
  | _ => exact .throw _

theorem removeEndpoint_held (name : ProtoName) : Frame held (removeEndpoint name) := by
  refine .bind (fun s => ?_) fun _ s => ?_
  · unfold onSender
    cases hsender : s.sender with
    | none => rfl
    | some sender =>
      have h : Frame SessionSender.toFlush (SessionSender.removeEndpoint name) :=
        .bind (.expect _ _) fun _ => .modify fun _ => rfl
      simp [held, hsender, h sender]
  · unfold onReceiver
    cases s.receiver <;> rfl

theorem startDrain_held (s : Session) : s.startDrain.held = s.held := by
  unfold held startDrain
  cases s.sender <;> rfl

theorem close_held (s : Session) : s.close.held = s.held := by
  unfold held close
  cases s.sender <;> rfl

end Session

/-! ## What a session has flushed -/

/-- While a message is handled: `adds` says that its handler may add an endpoint, and `quiet` that
nothing is held back then. -/
structure Flush (adds quiet : Prop) (flushed returned : SessionOutput) (inner : Session) :
    Prop where
  sound : inner.Sound
  data : ∀ m ∈ flushed.slim, m.type = .Msg
  none : quiet → flushed.slim = []
  held : quiet → adds → inner.held = false
  control : adds → ∀ m ∈ returned.slim, m.type ≠ .Msg

namespace Flush

variable {adds quiet : Prop} {flushed returned : SessionOutput} {inner : Session}
  (h : Flush adds quiet flushed returned inner)
include h

theorem addEndpoint (ha : adds) (p : Participant) :
    match Session.addEndpoint p inner with
    | (.ok out, inner') => Flush adds quiet (flushed ++ out) returned inner'
    | (_, inner') => Flush adds quiet flushed returned inner' := by
  unfold Session.addEndpoint
  cases p.getName with
  | error e => simpa [SessionError.ofMessage, Prog.ofExcept] using h
  | ok name =>
    simp only [SessionError.ofMessage, Prog.ofExcept_ok_bind_run, Session.onSender]
    cases hsender : inner.sender with
    | none => simpa using h
    | some sender =>
      have hs := h.sound sender hsender
      have heff := SessionSender.handle_effect hs (.addEndpoint p)
      have hflushed := heff.flushed hs
      have hsound :
          Session.Sound { inner with sender := some (sender.handle (.addEndpoint p)).2 } := by
        rintro _ ⟨rfl⟩
        exact heff.sound hs
      have hheld (hq : quiet) : sender.toFlush = false := by
        simpa [Session.held, hsender] using h.held hq ha
      rw [SessionSender.handle, SessionSender.handle.run] at hflushed hsound
      rcases hr : SessionSender.addEndpoint p sender with ⟨out | e | text, sender'⟩ <;>
        rw [hr] at hflushed hsound <;> simp only [hr]
      · refine ⟨hsound, fun m hm => ?_, fun hq => ?_, fun hq _ => (hflushed.2 (hheld hq)).2,
          h.control⟩
        · rw [slim, List.filterMap_append, List.mem_append] at hm
          exact hm.elim (h.data m) (hflushed.1 m)
        · rw [slim, List.filterMap_append]
          exact List.append_eq_nil_iff.mpr ⟨h.none hq, (hflushed.2 (hheld hq)).1⟩
      · exact { h with sound := hsound, held := fun hq _ => (hflushed.2 (hheld hq)).2 }
      · exact { h with sound := hsound, held := fun hq _ => (hflushed.2 (hheld hq)).2 }

theorem removeEndpoint (name : ProtoName) :
    Flush adds quiet flushed returned (Session.removeEndpoint name inner).2 :=
  { h with
    sound := Session.removeEndpoint_sound name inner h.sound
    held := fun hq ha => (Session.removeEndpoint_held name inner).trans (h.held hq ha) }

theorem startDrain : Flush adds quiet flushed returned inner.startDrain :=
  { h with
    sound := Session.startDrain_sound h.sound
    held := fun hq ha => (Session.startDrain_held inner).trans (h.held hq ha) }

theorem close : Flush adds quiet flushed returned inner.close :=
  { h with
    sound := Session.close_sound h.sound
    held := fun hq ha => (Session.close_held inner).trans (h.held hq ha) }

theorem onMessage (ha : ¬ adds) (draw : Nat) (m : SessionMessage) :
    Flush adds quiet flushed returned (Session.onMessage draw m inner).2 :=
  { h with
    sound := Session.onMessage_sound draw m inner h.sound
    held := fun _ ha' => absurd ha' ha }

/-- What was flushed is data, and what is returned then is not. -/
theorem disjoint (hquiet : ¬ adds → quiet) : flushed.slim.Disjoint returned.slim := by
  intro m hm hret
  by_cases ha : adds
  · exact h.control ha m hret (h.data m hm)
  · rw [h.none (hquiet ha)] at hm
    cases hm

end Flush

/-! ## The loop -/

/-- A handler keeps the invariant; its histories and its inner layer are fields of it. -/
structure Flushing {σ : Type} (H : MessageHandler σ) (flushed returned : σ → SessionOutput)
    (inner : σ → Session) : Prop where
  clear : ∀ s, flushed (H.clear s) = [] ∧ returned (H.clear s) = [] ∧ inner (H.clear s) = inner s
  common : ∀ f s, flushed (H.mapCommon f s) = flushed s ∧ returned (H.mapCommon f s) = returned s ∧
    inner (H.mapCommon f s) = inner s
  onMessage : ∀ m quiet,
    Keeps (fun s => Flush m.mayAddEndpoint quiet (flushed s) (returned s) (inner s)) (H.onMessage m)

/-- When the next message may add an endpoint, nothing is held back. -/
def NothingHeldBack {σ : Type} {ck : Checks} (H : MessageHandler σ) (inner : σ → Session)
    (l : SessionLoop ck σ) (e : Env × LoopEvent) : Prop :=
  ∀ m ∈ nextMessage H l e.2, m.mayAddEndpoint → (inner l.inner).held = false

theorem SessionMessage.mayAddEndpoint_strip (m : SessionMessage) :
    (stripReservedMetadata m).mayAddEndpoint = m.mayAddEndpoint := by
  unfold stripReservedMetadata
  split <;> rfl

section loop
variable {σ : Type} {H : MessageHandler σ} {flushed returned : σ → SessionOutput}
  {inner : σ → Session} {ck : Checks} {l : SessionLoop ck σ}

theorem Flushing.step (hlaw : H.Lawful) (hH : Flushing H flushed returned inner)
    (hs : (inner l.inner).Sound) (hrunning : l.running) (e : Env × LoopEvent) :
    Flush (∃ m ∈ nextMessage H l e.2, m.mayAddEndpoint) (NothingHeldBack H inner l e)
      (flushed (SessionLoop.step H ck l e).inner) (returned (SessionLoop.step H ck l e).inner)
      (inner (SessionLoop.step H ck l e).inner) := by
  rw [SessionLoop.step, if_pos hrunning]
  generalize hadds : (∃ m ∈ nextMessage H l e.2, m.mayAddEndpoint) = adds
  generalize hquiet : NothingHeldBack H inner l e = quiet
  -- at the start of the event nothing is flushed or returned, and the inner layer is as before
  have hbegin : flushed (begin H e.1 l).inner = [] ∧ returned (begin H e.1 l).inner = [] ∧
      inner (begin H e.1 l).inner = inner l.inner :=
    ⟨(hH.clear _).1, (hH.clear _).2.1, (hH.clear _).2.2.trans (hH.common _ _).2.2⟩
  have h : Flush adds quiet (flushed (begin H e.1 l).inner) (returned (begin H e.1 l).inner)
      (inner (begin H e.1 l).inner) := by
    rw [hbegin.1, hbegin.2.1, hbegin.2.2]
    refine ⟨hs, by simp [slim], fun _ => rfl, fun hq ha => ?_, by simp [slim]⟩
    subst hadds hquiet
    obtain ⟨m, hm, hadds⟩ := ha
    exact hq m hm hadds
  have hkeeps (m : SessionMessage) (hm : m ∈ nextMessage H l e.2) :
      Keeps (fun s => Flush adds quiet (flushed s) (returned s) (inner s))
        (H.onMessage (stripReservedMetadata m)) := by
    have hiff : adds = ((stripReservedMetadata m).mayAddEndpoint = true) := by
      rw [SessionMessage.mayAddEndpoint_strip, ← hadds, eq_iff_iff]
      refine ⟨fun h => ?_, fun h => ⟨m, hm, h⟩⟩
      obtain ⟨m', hm', h⟩ := h
      rwa [Option.mem_unique hm hm']
    rw [hiff]
    exact hH.onMessage (stripReservedMetadata m) quiet
  rw [← nextMessage_begin hlaw e.1] at hkeeps
  have hcommon (f) (s : σ) (hs : Flush adds quiet (flushed s) (returned s) (inner s)) :
      Flush adds quiet (flushed (H.mapCommon f s)) (returned (H.mapCommon f s))
        (inner (H.mapCommon f s)) := by
    rwa [(hH.common f s).1, (hH.common f s).2.1, (hH.common f s).2.2]
  exact onEvent_keeps (I := fun s => Flush adds quiet (flushed s) (returned s) (inner s)) hkeeps
    (fun _ s hs => hcommon _ s hs) (fun _ l hl => hcommon _ l.inner hl) h

section runs
variable (hlaw : H.Lawful) (hH : Flushing H flushed returned inner) (hs : (inner l.inner).Sound)
  (hl : flushed l.inner = []) (es : List (Env × LoopEvent))
include hlaw hH hs hl

/-- After every event, nothing that was flushed is returned. -/
theorem Flushing.run : (flushed (es.foldl (SessionLoop.step H ck) l).inner).slim.Disjoint
    (returned (es.foldl (SessionLoop.step H ck) l).inner).slim := by
  refine (Run.invariant (I := fun l : SessionLoop ck σ => (inner l.inner).Sound ∧
    (flushed l.inner).slim.Disjoint (returned l.inner).slim) (fun l e hl => ?_)
    ⟨hs, by simp [hl, slim]⟩ es).2
  by_cases hrunning : l.running
  · have h : Flush _ _ _ _ (inner (SessionLoop.step H ck l e).inner) := hH.step hlaw hl.1 hrunning e
    exact ⟨h.sound, h.disjoint fun hadds m hm ha => absurd ⟨m, hm, ha⟩ hadds⟩
  · rwa [SessionLoop.step, if_neg hrunning]

/-- In a run whose steps meet the condition nothing is flushed. -/
theorem Flushing.run_quiet
    (h : Run.Meets (SessionLoop.step H ck) (NothingHeldBack H inner) l es) :
    (flushed (es.foldl (SessionLoop.step H ck) l).inner).slim = [] := by
  refine (h.invariant (I := fun l => (inner l.inner).Sound ∧ (flushed l.inner).slim = [])
    (fun l e hl hc => ?_) ⟨hs, by simp [hl, slim]⟩).2
  by_cases hrunning : l.running
  · have h : Flush _ _ _ _ (inner (SessionLoop.step H ck l e).inner) := hH.step hlaw hl.1 hrunning e
    exact ⟨h.sound, h.none hc⟩
  · rwa [SessionLoop.step, if_neg hrunning]

end runs

end loop

/-! ## What the handlers return -/

/-- No message of the application. -/
def ControlOnly (out : SessionOutput) : Prop := ∀ m ∈ out.slim, m.type ≠ .Msg

section control
variable {m : Publish} {t : SessionMessageType}

theorem controlOnly_nil : ControlOnly [] := by simp [ControlOnly, slim]

theorem controlOnly_cons {out : SessionOutput} (hm : m.type ≠ .Msg) (hout : ControlOnly out) :
    ControlOnly (.toSlim m :: out) := by
  simpa [ControlOnly, slim] using And.intro hm hout

theorem ControlOnly.append {out out' : SessionOutput} (h : ControlOnly out)
    (h' : ControlOnly out') : ControlOnly (out ++ out') := by
  intro m hm
  rw [slim, List.filterMap_append, List.mem_append] at hm
  exact hm.elim (h m) (h' m)

theorem createControlMessage_type (c : SessionControllerCommon) (dst : ProtoName) (id : Nat)
    (payload : CommandPayload) (broadcast : Bool) :
    (c.createControlMessage dst t id payload broadcast).type = t := by
  simp [Publish.type, createControlMessage]

theorem sendMessage_controlOnly (h : m.type ≠ .Msg) :
    Returns ControlOnly (ControllerSender.onMessage m) := by
  refine (ControllerSender.onMessage_returns m).mono fun out hout x hx => ?_
  obtain ⟨o, ho, heq⟩ := List.mem_filterMap.mp hx
  rw [hout o ho] at heq
  cases heq
  exact h

theorem sendControlMessage_controlOnly {dst : ProtoName} {id : Nat} {payload : CommandPayload}
    {metadata : List (String × String)} {broadcast : Bool} (ht : t ≠ .Msg) :
    Returns ControlOnly
      (sendControlMessage dst t id payload metadata broadcast) :=
  .bind _ fun c => (sendMessage_controlOnly
    (by simpa [Publish.type, createControlMessage] using ht)).zoom

end control

/-! ## A moderator -/

namespace SessionModerator

variable {G : Type} (X : MlsLib G) {msg : Publish}

section returns

theorem sendGroupUpdate_controlOnly {op : GroupUpdateOp} {p : Participant} {ps : List Participant}
    {mls : Option MlsPayload} :
    Returns (fun r => ControlOnly r.2) (sendGroupUpdate op p ps mls : M G _) :=
  .bind _ fun _ => .bind _ fun _ => .bind_of
    (sendControlMessage_controlOnly (by decide)).zoom fun _ h => .pure h

theorem control_type {dst : ProtoName} {t : SessionMessageType} {id : Nat}
    {payload : CommandPayload} :
    Returns (fun m => m.type = t) (control dst t id payload : M G Publish) := by
  intro s m s' h
  cases h
  exact createControlMessage_type ..

theorem onJoinReplyInner_controlOnly (ht : msg.type ≠ .Msg) :
    Returns ControlOnly (onJoinReplyInner X msg) := by
  have hwelcome (output updated : SessionOutput) (hout : ControlOnly (output ++ updated))
      (dst id payload) : Returns ControlOnly (do
        let welcomed ← onCommon (sendControlMessage dst .GroupWelcome id
          payload [] false)
        onTask (ModeratorTask.welcomeStart id)
        pure (output ++ updated ++ welcomed) : M G SessionOutput) :=
    .bind_of (sendControlMessage_controlOnly (by decide)).zoom fun welcomed hwelcomed =>
      .bind _ fun _ => .pure (hout.append hwelcomed)
  refine .bind _ fun _ => .ite (.pure controlOnly_nil) ?_
  refine .bind_of (onSender_returns (sendMessage_controlOnly ht)) fun output hout => ?_
  refine .bind _ fun _ => .bind _ fun _ => .bind _ fun _ => .bind _ fun _ => .bind _ fun _ =>
    .bind _ fun _ => .bind _ fun _ => .bind _ fun _ => .bind _ fun _ => ?_
  split
  · refine .bind_of sendGroupUpdate_controlOnly fun r hr => .bind _ fun _ =>
      .bind_of (.pure hr) fun updated hupdated => .bind _ fun id => ?_
    exact hwelcome output updated (hout.append hupdated) _ _ _
  · refine .bind _ fun _ => .bind_of (.pure controlOnly_nil) fun updated hupdated =>
      .bind _ fun id => ?_
    exact hwelcome output updated (hout.append hupdated) _ _ _

theorem onHeartbeat_controlOnly (ht : msg.type ≠ .Msg) :
    Returns ControlOnly (onHeartbeat X msg) := by
  refine .bind _ fun nameNoId => .bind _ fun s => ?_
  cases s.groupList.lookup nameNoId with
  | none => exact .pure controlOnly_nil
  | some entry =>
    have send : Returns ControlOnly (onSender (ControllerSender.onMessage msg) : M G _) :=
      onSender_returns (sendMessage_controlOnly ht)
    exact .ite (.pure controlOnly_nil) (.ite send (.bind _ fun _ => .bind _ fun _ =>
      .ite (.bind _ fun _ => .bind _ fun _ => send) (.pure controlOnly_nil)))

theorem onUpdateParticipantStateFromSlim_controlOnly :
    Returns ControlOnly (onUpdateParticipantStateFromSlim X msg) := by
  refine .bind _ fun payload => .bind _ fun name => .bind _ fun st =>
    .ite (.pure controlOnly_nil) ?_
  rcases msg.incomingConn with _ | conn
  case' some => refine .bind _ fun _ => ?_
  all_goals
    refine .bind _ fun state => .bind _ fun nameNoId => .bind _ fun s =>
      .bind_of control_type fun ack hack => .bind_of control_type fun nack hnack => ?_
    have hack : ControlOnly [.toSlim ack] := controlOnly_cons (by simp [hack]) controlOnly_nil
    have hnack : ControlOnly [.toSlim nack] := controlOnly_cons (by simp [hnack]) controlOnly_nil
    split
    · exact .pure controlOnly_nil
    · exact .ite (.pure controlOnly_nil) (.bind _ fun _ => .bind _ fun _ => .pure hack)
    · exact .ite (.pure hnack) (.bind _ fun _ => .bind _ fun _ => .pure hack)

theorem onUpdateParticipantStateFromApp_controlOnly (ackTx : Option AckTx) :
    Returns ControlOnly (onUpdateParticipantStateFromApp X msg ackTx) := by
  refine .bind _ fun s =>
    .ite (.throw _) (.bind _ fun _ => .bind _ fun _ => .bind _ fun status => ?_)
  have send (dst : ProtoName) (id : Nat) (payload : CommandPayload) :
      Returns ControlOnly (onCommon (sendControlMessage dst
        .UpdateParticipantState id payload [] true) : M G SessionOutput) :=
    (sendControlMessage_controlOnly (by decide)).zoom
  split
  · exact .bind _ fun _ => .bind _ fun _ => send _ _ _
  · exact .bind _ fun _ => send _ _ _

theorem onRejoinRequest_controlOnly : Returns ControlOnly (onRejoinRequest X msg) := by
  refine .bind _ fun _ => .bind _ fun payload => .bind _ fun name => .bind _ fun nameNoId =>
    .bind _ fun s => ?_
  cases s.groupList.lookup nameNoId with
  | none => exact .pure controlOnly_nil
  | some entry =>
    refine .ite (.pure controlOnly_nil) (.ite (.pure controlOnly_nil) (.bind _ fun _ =>
      .bind _ fun mls => .bind_of control_type fun reply hreply => .bind _ fun _ => ?_))
    have hreply : reply.type ≠ .Msg := by simp [hreply]
    dsimp only
    split
    case' isTrue => refine .bind _ fun _ => .bind _ fun _ => ?_
    all_goals
      exact .bind _ fun _ => .bind_of sendGroupUpdate_controlOnly fun r hr => .bind _ fun _ =>
        .pure (controlOnly_cons hreply hr)

theorem handle_controlOnly {m : SessionMessage} (ha : m.mayAddEndpoint) :
    Returns ControlOnly (handle X m) := by
  cases m with
  | onMessage msg direction ackTx =>
    have ha : msg.type.mayAddEndpoint := ha
    have ht : msg.type ≠ .Msg := fun h => by rw [h] at ha; cases ha
    have hcontrol : Returns ControlOnly (processControlMessage X msg direction ackTx) := by
      unfold processControlMessage
      split
      case h_3 => exact .mapErr (onJoinReplyInner_controlOnly X ht)
      case h_7 => exact onHeartbeat_controlOnly X ht
      case h_8 =>
        cases direction with
        | North => exact onUpdateParticipantStateFromSlim_controlOnly X
        | South => exact onUpdateParticipantStateFromApp_controlOnly X ackTx
      case h_9 => exact onRejoinRequest_controlOnly X
      all_goals first
        | exact .throw _
        | (rename_i h; rw [h] at ha; cases ha)
    have hrest : Returns ControlOnly (do
        let online ← Prog.read fun s => s.common.online
        if !online ∧ !allowedOffline msg direction then Prog.throw .ParticipantOffLine
        else if msg.type.isCommandMessage then processControlMessage X msg direction ackTx
        else onData X msg direction ackTx : M G SessionOutput) := by
      refine .bind _ fun _ => .ite (.throw _) ?_
      rw [if_pos (SessionMessageType.mayAddEndpoint_isCommand ha)]
      exact hcontrol
    unfold handle
    dsimp only
    split
    · exact .bind _ fun _ => hrest
    · exact hrest
  | _ => cases ha

end returns

def FlushOk (adds quiet : Prop) (s : SessionModerator G) : Prop :=
  Flush adds quiet s.flushed s.returned s.inner

theorem flush_invariant (adds quiet : Prop) :
    TaskInvariant (G := G) (FlushOk adds quiet) (FlushOk adds quiet) := by
  have hview {s s' : SessionModerator G} (h : s'.view = s.view) (hs : FlushOk adds quiet s) :
      FlushOk adds quiet s' := by
    simp only [view, Prod.mk.injEq] at h
    unfold FlushOk at hs ⊢
    rwa [h.2.2.2.1.1, h.2.2.2.1.2, h.2.2.2.2]
  exact {
    ofView := hview
    idleOfView := hview
    idle := fun h _ => h
    weaken := fun h => h
    onSet := fun _ h => h
    onEnqueue := fun _ _ h => h
    onEnd := fun h => popTask_keeps (fun _ _ h => h) (fun _ _ h => h) _ h
    onShutdown := fun h => Flush.startDrain h
    onRemove := fun name _ h => Flush.removeEndpoint h name
    idleOnRemove := fun name _ h => Flush.removeEndpoint h name }

theorem addEndpoint_flush {adds quiet : Prop} (ha : adds) (p : Participant) :
    Keeps (FlushOk adds quiet) (addEndpoint p : M G SessionOutput) := by
  refine .bind (.expect _ _) fun _ => .bind (fun _ h => h) fun _ => ?_
  intro s hs
  have h := Flush.addEndpoint hs ha p
  rw [bind_run, onInner, zoom]
  rcases hr : Session.addEndpoint p s.inner with ⟨out | e | text, inner⟩ <;> rw [hr]
    at h <;> exact h

theorem flushing : Flushing (handler X) flushed returned inner where
  clear _ := ⟨rfl, rfl, rfl⟩
  common _ _ := ⟨rfl, rfl, rfl⟩
  onMessage m quiet s hs := by
    let inv := flush_invariant (G := G) m.mayAddEndpoint quiet
    refine Prog.Keeps.bind_returns (I := FlushOk m.mayAddEndpoint quiet)
      (R := fun out => m.mayAddEndpoint → ControlOnly out)
      (inv.handle_keeps X (fun h p => ⟨addEndpoint_flush h p, addEndpoint_flush h p⟩)
        fun h draw m' s hs => Flush.onMessage hs h draw m')
      (fun s out s' hrun ha => handle_controlOnly X ha s out s' hrun) (fun _ h => h)
      (fun out s hout hs => ?_) hs
    have hs' : FlushOk m.mayAddEndpoint quiet { s with returned := out } :=
      { hs with control := hout }
    exact inv.keeps (encryptOutput_view X out) _ hs'

end SessionModerator

/-! ## A participant -/

namespace SessionParticipant

variable {G : Type} (X : MlsLib G) {msg : Publish}

section returns

theorem onSender_returns {α : Type} {Q : α → Prop} {x : ControllerSender.M α} (h : Returns Q x) :
    Returns Q (onSender x : M G α) := by
  unfold onSender onCommon SessionControllerCommon.onSender
  exact h.zoom.zoom

theorem control_type {dst : ProtoName} {t : SessionMessageType} {id : Nat}
    {payload : CommandPayload} :
    Returns (fun m => m.type = t) (control dst t id payload : M G Publish) := by
  intro s m s' h
  cases h
  exact createControlMessage_type ..

theorem answer_controlOnly {dst : ProtoName} {t : SessionMessageType} {id : Nat}
    {payload : CommandPayload} (ht : t ≠ .Msg) :
    Returns ControlOnly (do
      let ack ← control dst t id payload
      pure [.toSlim ack] : M G SessionOutput) :=
  .bind_of control_type fun _ hack => .pure (controlOnly_cons (by rwa [hack]) controlOnly_nil)

theorem onGroupUpdateMessage_controlOnly : Returns ControlOnly (onGroupUpdateMessage X msg) := by
  refine .bind _ fun _ => .bind _ fun update => .bind _ fun op => .bind _ fun st => ?_
  dsimp only
  split <;> exact .bind _ fun _ => .ite (.pure controlOnly_nil)
    (.bind _ fun _ => answer_controlOnly (by decide))

theorem onHeartbeat_controlOnly (ht : msg.type ≠ .Msg) :
    Returns ControlOnly (onHeartbeat X msg) := by
  refine .bind _ fun s => ?_
  cases s.groupList.lookup msg.source with
  | none => exact .pure controlOnly_nil
  | some entry =>
    have send : Returns ControlOnly (onSender (ControllerSender.onMessage msg) : M G _) :=
      onSender_returns (sendMessage_controlOnly ht)
    have request : Returns ControlOnly (requestRejoin X none) :=
      .bind _ fun _ => .bind _ fun _ => .bind _ fun _ => .bind _ fun _ => .bind_of control_type
        fun m hm => .bind _ fun _ => onSender_returns (sendMessage_controlOnly (by simp [hm]))
    exact .bind _ fun _ => .ite (.ite request (.pure controlOnly_nil)) (.ite send (.bind _ fun _ =>
      .ite (.bind _ fun _ => .bind _ fun _ => send) (.pure controlOnly_nil)))

theorem onUpdateParticipantStateFromSlim_controlOnly :
    Returns ControlOnly (onUpdateParticipantStateFromSlim X msg) := by
  refine .bind _ fun payload => .bind _ fun name => .bind _ fun st =>
    .ite (.pure controlOnly_nil) (.bind _ fun state => ?_)
  rcases msg.incomingConn with _ | conn
  case' some => refine .bind _ fun _ => ?_
  all_goals
    refine .bind _ fun s => .bind_of control_type fun ack hack =>
      .bind_of control_type fun nack hnack => ?_
    have hack : ControlOnly [.toSlim ack] := controlOnly_cons (by simp [hack]) controlOnly_nil
    have hnack : ControlOnly [.toSlim nack] := controlOnly_cons (by simp [hnack]) controlOnly_nil
    split
    · exact .pure controlOnly_nil
    · exact .ite (.pure controlOnly_nil) (.bind _ fun _ => .bind _ fun _ => .pure hack)
    · exact .ite (.pure hnack) (.bind _ fun _ => .bind _ fun _ => .pure hack)

theorem onUpdateParticipantStateFromApp_controlOnly (ackTx : Option AckTx) :
    Returns ControlOnly (onUpdateParticipantStateFromApp X msg ackTx) := by
  refine .bind _ fun s => .ite (.throw _) (.bind _ fun _ => .bind _ fun status => ?_)
  have send (dst : ProtoName) (id : Nat) (payload : CommandPayload) :
      Returns ControlOnly (onCommon (sendControlMessage dst
        .UpdateParticipantState id payload [] true) : M G SessionOutput) :=
    (sendControlMessage_controlOnly (by decide)).zoom
  split
  · exact .bind _ fun _ => .bind _ fun _ => send _ _ _
  · exact .bind _ fun _ => send _ _ _

theorem handle_controlOnly {m : SessionMessage} (ha : m.mayAddEndpoint) :
    Returns ControlOnly (handle X m) := by
  cases m with
  | onMessage msg direction ackTx =>
    have ha : msg.type.mayAddEndpoint := ha
    have ht : msg.type ≠ .Msg := fun h => by rw [h] at ha; cases ha
    have hcontrol : Returns ControlOnly (processControlMessage X direction msg ackTx) := by
      unfold processControlMessage
      dsimp only
      split
      all_goals
        refine .bind _ fun _ => .ite (.pure controlOnly_nil) ?_
        split
        case h_2 =>
          exact .bind _ fun _ => .bind _ fun _ => .bind _ fun _ => .bind _ fun _ => .bind _ fun _ =>
            answer_controlOnly (by decide)
        case h_3 => exact onGroupUpdateMessage_controlOnly X
        case h_6 => exact onHeartbeat_controlOnly X ht
        case h_8 =>
          cases direction with
          | North => exact onUpdateParticipantStateFromSlim_controlOnly X
          | South => exact onUpdateParticipantStateFromApp_controlOnly X ackTx
        all_goals first
          | exact .pure controlOnly_nil
          | (rename_i h; rw [h] at ha; cases ha)
    refine .bind _ fun _ => .ite (.throw _) ?_
    dsimp only
    rw [if_pos (SessionMessageType.mayAddEndpoint_isCommand ha)]
    split
    · exact .bind _ fun _ => hcontrol
    · exact hcontrol
  | _ => cases ha

end returns

def FlushOk (adds quiet : Prop) (s : SessionParticipant G) : Prop :=
  Flush adds quiet s.flushed s.returned s.inner

theorem flush_invariant (adds quiet : Prop) : EndpointInvariant (G := G) (FlushOk adds quiet) where
  ofView {s s'} h hs := by
    simp only [view, Prod.mk.injEq] at h
    unfold FlushOk at hs ⊢
    rwa [h.1.1, h.1.2, h.2.1]
  onRemove name _ h := Flush.removeEndpoint h name
  onDrain _ h := Flush.startDrain h
  onClose _ h := Flush.close h

theorem addEndpoint_flush {adds quiet : Prop} (ha : adds) (p : Participant) :
    Keeps (FlushOk adds quiet) (addEndpoint p : M G SessionOutput) := by
  refine .bind (.expect _ _) fun _ => .bind (fun _ h => h) fun _ => ?_
  intro s hs
  have h := Flush.addEndpoint hs ha p
  rw [bind_run, onInner, zoom]
  rcases hr : Session.addEndpoint p s.inner with ⟨out | e | text, inner⟩ <;> rw [hr]
    at h <;> exact h

theorem flushing : Flushing (handler X) flushed returned inner where
  clear _ := ⟨rfl, rfl, rfl⟩
  common _ _ := ⟨rfl, rfl, rfl⟩
  onMessage m quiet s hs := by
    let inv := flush_invariant (G := G) m.mayAddEndpoint quiet
    refine Prog.Keeps.bind_returns (I := FlushOk m.mayAddEndpoint quiet)
      (R := fun out => m.mayAddEndpoint → ControlOnly out)
      (inv.handle_keeps X (fun h p => addEndpoint_flush h p)
        fun h draw m' s hs => Flush.onMessage hs h draw m')
      (fun s out s' hrun ha => handle_controlOnly X ha s out s' hrun) (fun _ h => h)
      (fun out s hout hs => ?_) hs
    have hs' : FlushOk m.mayAddEndpoint quiet { s with returned := out } :=
      { hs with control := hout }
    exact inv.keeps (encryptOutput_view X out) _ hs'

end SessionParticipant

/-! ## Runs -/

theorem Session.new_sound (id : Nat) (config : SessionConfig) (source : ProtoName)
    (direction : Direction) : (Session.new id config source direction).Sound := by
  intro sender h
  unfold Session.new at h
  dsimp only at h
  split at h
  · cases h
  · cases h
    exact SenderHistory.sound_new ..

instance decidableNothingHeldBack {σ : Type} {ck : Checks} (H : MessageHandler σ)
    (inner : σ → Session) (l : SessionLoop ck σ) (e : Env × LoopEvent) :
    Decidable (NothingHeldBack H inner l e) :=
  inferInstanceAs (Decidable (∀ m ∈ nextMessage H l e.2, m.mayAddEndpoint →
    (inner l.inner).held = false))

/-- In a moderator and in a participant, what `add_endpoint` flushes while an event is handled is
never part of what the handler returns. It is empty in a run in which nothing is held back whenever
an endpoint may be added. -/
theorem flushed_never_returned {G : Type} (X : MlsLib G) (ck : Checks) (st : SessionSettings)
    (env : Env) (mls : G) (run : List (Env × LoopEvent)) :
    (let s := (run.foldl (SessionLoop.step (SessionModerator.handler X) ck)
        (.new (.new st env mls))).inner
     s.flushed.slim.Disjoint s.returned.slim ∧
      (Run.Meets (SessionLoop.step (SessionModerator.handler X) ck)
        (NothingHeldBack (SessionModerator.handler X) SessionModerator.inner)
        (.new (.new st env mls)) run → s.flushed.slim = [])) ∧
    (let s := (run.foldl (SessionLoop.step (SessionParticipant.handler X) ck)
        (.new (.new st env mls))).inner
     s.flushed.slim.Disjoint s.returned.slim ∧
      (Run.Meets (SessionLoop.step (SessionParticipant.handler X) ck)
        (NothingHeldBack (SessionParticipant.handler X) SessionParticipant.inner)
        (.new (.new st env mls)) run → s.flushed.slim = [])) := by
  have hmod := SessionModerator.handler_lawful X
  have hpart := SessionParticipant.handler_lawful X
  have hs := Session.new_sound st.id st.config st.source st.direction
  exact ⟨⟨(SessionModerator.flushing X).run hmod hs rfl run,
      (SessionModerator.flushing X).run_quiet hmod hs rfl run⟩,
    ⟨(SessionParticipant.flushing X).run hpart hs rfl run,
      (SessionParticipant.flushing X).run_quiet hpart hs rfl run⟩⟩

namespace SessionLoop

def samplePublish : Env × LoopEvent :=
  (sampleEnv 9, .fromApp
    { sampleControl .Msg sampleLocal (sampleApp 8 NameId.NULL_COMPONENT) 0 .discoveryRequest with
      payload := some (.appPayload "" [1]) } none)

/-- Instance 7 of application 3 is invited and joins. -/
def sampleMember : List (Env × LoopEvent) :=
  let member := sampleApp 3 7
  [(sampleEnv 10, .fromApp (sampleControl .DiscoveryRequest sampleLocal
     (sampleApp 3 NameId.NULL_COMPONENT) 0 .discoveryRequest) none),
   (sampleEnv 13, .fromSlim (sampleControl .DiscoveryReply member sampleLocal 10 .discoveryReply)),
   (sampleEnv 14, .fromSlim (sampleControl .JoinReply member sampleLocal 13
     (.joinReply ⟨none, some (.new member ⟨true, true⟩)⟩)))]

/-- Instance 1 of application 4 asks the session to join, and welcomes it. -/
def sampleWelcomed : List (Env × LoopEvent) :=
  let moderator := sampleApp 4 1
  [(sampleEnv 10, .fromSlim (sampleControl .JoinRequest moderator sampleLocal 20
     (.joinRequest none none none none))),
   (sampleEnv 11, .fromSlim (sampleControl .GroupWelcome moderator sampleLocal 21
     (.groupWelcome ⟨[.new moderator ⟨true, true⟩, .new sampleLocal ⟨true, true⟩], none⟩)))]

/-- A moderator and a participant, each after a run. -/
def sampleRoles (run run' : List (Env × LoopEvent)) :
    SessionModerator Unit × SessionParticipant Unit :=
  ((run.foldl (SessionLoop.step (SessionModerator.handler sampleLib) sampleChecks)
      (.new (.new sampleSettings (sampleEnv 1) ()))).inner,
    (run'.foldl (SessionLoop.step (SessionParticipant.handler sampleLib) sampleChecks)
      (.new (.new sampleSettings (sampleEnv 1) ()))).inner)

end SessionLoop

open SessionLoop in
/-- In the first pair of runs a message is published before there is an endpoint, and flushed; in
the second one it is published afterwards. -/
theorem flushed_never_returned_sample :
    (let r := sampleRoles (samplePublish :: sampleMember) (samplePublish :: sampleWelcomed)
     r.1.flushed.slim.length = 1 ∧ r.1.flushed.slim.Disjoint r.1.returned.slim ∧
      r.2.flushed.slim.length = 1 ∧ r.2.flushed.slim.Disjoint r.2.returned.slim) ∧
    let r := sampleRoles (sampleMember ++ [samplePublish]) (sampleWelcomed ++ [samplePublish])
    r.1.flushed.slim = [] ∧ r.2.flushed.slim = [] := by
  have never := flushed_never_returned sampleLib sampleChecks sampleSettings (sampleEnv 1) ()
  dsimp only [sampleRoles]
  exact ⟨⟨by decide +kernel, (never (samplePublish :: sampleMember)).1.1,
      by decide +kernel, (never (samplePublish :: sampleWelcomed)).2.1⟩,
    (never (sampleMember ++ [samplePublish])).1.2 (by decide +kernel),
    (never (sampleWelcomed ++ [samplePublish])).2.2 (by decide +kernel)⟩

open SessionLoop in
/-- A message is published before there is a member. It is flushed when the member joins, and not
among what the handler of the join reply returns. -/
theorem flushed_lost :
    let s := (sampleRoles (samplePublish :: sampleMember) []).1
    ∃ m ∈ s.flushed.slim, m ∉ s.returned.slim := by
  decide +kernel

end Slim
