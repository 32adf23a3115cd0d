import Slim.Lib.Run
import Slim.Session.Proof.Frames
import Slim.Session.Proof.MlsState

/-!
# Invariants of a processing loop

What the loop does to its handler is one of four things (`Processed`): nothing, when the message is
rejected; the answer to a message that is dropped while the session drains; a panic in the checks;
or the handler's own work. `process_keeps` says what follows for an invariant of the handler.
-/

namespace Slim

/-- The shared part of a handler is a field of it, and not one of its histories. -/
structure MessageHandler.Lawful {σ : Type} (H : MessageHandler σ) : Prop where
  common_mapCommon : ∀ f s, H.common (H.mapCommon f s) = f (H.common s)
  common_clear : ∀ s, H.common (H.clear s) = H.common s

theorem SessionModerator.handler_lawful {G : Type} (X : MlsLib G) :
    (SessionModerator.handler X).Lawful := ⟨fun _ _ => rfl, fun _ => rfl⟩

theorem SessionParticipant.handler_lawful {G : Type} (X : MlsLib G) :
    (SessionParticipant.handler X).Lawful := ⟨fun _ _ => rfl, fun _ => rfl⟩

namespace SessionLoop

variable {σ : Type} {H : MessageHandler σ} {ck : Checks} {l : SessionLoop ck σ}
  {m : SessionMessage}

/-- The answer to a message that is dropped while the session drains. -/
def dropped (H : MessageHandler σ) (ackTx : Option AckTx) (s : σ) : σ :=
  H.mapCommon (fun c => (SessionControllerCommon.notify ackTx (.error .SessionDrainingDrop) c).2) s

/-- What `process` does with a message. -/
inductive Processed (H : MessageHandler σ) (m : SessionMessage) (l : SessionLoop ck σ) :
    SessionLoop ck σ → Prop
  | rejected (seen : ck.Seen) : Processed H m l { l with seen }
  | unchecked (msg : Publish) (seen : ck.Seen) (text : String)
      (h : ck.verifyAndCheckReplay (H.common l.inner).settings msg l.seen = (.panic text, seen)) :
      Processed H m l { l with seen, running := false, panicked := some text }
  | dropped (ackTx : Option AckTx) : Processed H m l { l with inner := dropped H ackTx l.inner }
  | handled (fatal : Bool) (seen : ck.Seen) :
      Processed H m l (dispatch H fatal (stripReservedMetadata m) { l with seen })

@[simp] theorem exitIfDrained_inner (l : SessionLoop ck σ) :
    (exitIfDrained H l).inner = l.inner := by
  unfold exitIfDrained
  split <;> rfl

theorem dispatch_inner (fatal : Bool) (m : SessionMessage) (l : SessionLoop ck σ) :
    (dispatch H fatal m l).inner = (H.onMessage m l.inner).2 := by
  unfold dispatch
  rcases H.onMessage m l.inner with ⟨_ | _ | _, s⟩
  · exact exitIfDrained_inner _
  · cases fatal with
    | true => rfl
    | false => exact exitIfDrained_inner _
  · rfl

/-- The handler gets the message, unless it comes from the application while the session drains. -/
theorem accept_cases (m : SessionMessage) (l : SessionLoop ck σ) :
    accept H m l = dispatch H (l.draining H) m l ∨
      ∃ msg ackTx, m = .onMessage msg .South ackTx ∧ l.draining H = true ∧
        accept H m l = { l with inner := dropped H ackTx l.inner } := by
  unfold accept
  split
  · exact .inr ⟨_, _, rfl, ‹_›, rfl⟩
  · exact .inl rfl

theorem process_processed (m : SessionMessage) (l : SessionLoop ck σ) :
    Processed H m l (process H ck m l) := by
  unfold process
  split
  · rename_i msg ackTx hm
    split
    · rename_i seen _
      obtain h | ⟨_, _, hsouth, -, -⟩ := accept_cases (.onMessage msg .North ackTx)
        { l with seen }
      · rw [h, ← hm]
        exact .handled _ seen
      · cases hsouth
    · exact .rejected _
    · exact .unchecked msg _ _ ‹_›
  · obtain h | ⟨_, ackTx, -, -, h⟩ := accept_cases (stripReservedMetadata m) l
    · exact h ▸ .handled _ l.seen
    · exact h ▸ .dropped ackTx

/-- A message from the application, or one that was handed back, goes to the handler at once. -/
theorem process_south (hactive : l.draining H = false) (msg : Publish) (ackTx : Option AckTx) :
    process H ck (.onMessage msg .South ackTx) l =
      dispatch H false (.onMessage msg .South ackTx) l := by
  show accept H (.onMessage msg .South ackTx) l = _
  obtain h | ⟨_, _, -, hdraining, -⟩ := accept_cases (.onMessage msg .South ackTx) l
  · rw [h, hactive]
  · rw [hactive] at hdraining
    cases hdraining

/-- An invariant of the handler that its work on `m` and the answer to a dropped message keep. -/
theorem process_keeps {I : σ → Prop} (hmsg : Prog.Keeps I (H.onMessage (stripReservedMetadata m)))
    (hdrop : ∀ ackTx s, I s → I (dropped H ackTx s)) (hl : I l.inner) :
    I (process H ck m l).inner := by
  have h : Processed H m l (process H ck m l) := process_processed m l
  generalize process H ck m l = l' at h ⊢
  cases h with
  | rejected seen => exact hl
  | unchecked msg seen text h => exact hl
  | dropped ackTx => exact hdrop ackTx l.inner hl
  | handled fatal seen =>
    rw [dispatch_inner]
    exact hmsg l.inner hl

/-! ## The session's own channel -/

/-- The loop with `rest` left on the session's own channel. -/
def taken (H : MessageHandler σ) (rest : List SessionMessage) (l : SessionLoop ck σ) :
    SessionLoop ck σ :=
  { l with
    inner :=
      H.mapCommon (fun c => { c with sender := { c.sender with txSession := rest } }) l.inner }

theorem onEvent_own_nil (h : (H.common l.inner).sender.txSession = []) :
    onEvent H ck .own l = l := by
  simp [onEvent, takeOwn, h]

theorem onEvent_own_cons {rest : List SessionMessage}
    (h : (H.common l.inner).sender.txSession = m :: rest) :
    onEvent H ck .own l = process H ck m (taken H rest l) := by
  simp [onEvent, takeOwn, h, taken]

theorem onEvent_cancel (l : SessionLoop ck σ) :
    onEvent H ck .cancel l = if l.draining H then l else dispatch H true .startDrain l := rfl

/-- The message an event brings to the handler, if it passes the checks. -/
def nextMessage (H : MessageHandler σ) (l : SessionLoop ck σ) : LoopEvent → Option SessionMessage
  | .fromApp msg ackTx => some (.onMessage msg .South ackTx)
  | .fromSlim msg => some (.onMessage msg .North none)
  | .sendFailed error => some (.messageError error)
  | .timeout messageId messageType name => some (.timerTimeout messageId messageType name)
  | .failure messageId messageType name => some (.timerFailure messageId messageType name)
  | .own => (H.common l.inner).sender.txSession.head?
  | .cancel => some .startDrain

theorem nextMessage_begin (hH : H.Lawful) (env : Env) (l : SessionLoop ck σ) (ev : LoopEvent) :
    nextMessage H (begin H env l) ev = nextMessage H l ev := by
  cases ev with
  | own =>
    show (H.common (H.clear (H.mapCommon _ l.inner))).sender.txSession.head? = _
    rw [hH.common_clear, hH.common_mapCommon]
    rfl
  | _ => rfl

/-- An invariant of the handler that its work on the next message keeps. -/
theorem onEvent_keeps {I : σ → Prop} {ev : LoopEvent}
    (hmsg : ∀ m ∈ nextMessage H l ev, Prog.Keeps I (H.onMessage (stripReservedMetadata m)))
    (hdrop : ∀ ackTx s, I s → I (dropped H ackTx s))
    (htake : ∀ rest (l : SessionLoop ck σ), I l.inner → I (taken H rest l).inner) (hl : I l.inner) :
    I (onEvent H ck ev l).inner := by
  cases ev with
  | own =>
    cases htx : (H.common l.inner).sender.txSession with
    | nil => rwa [onEvent_own_nil htx]
    | cons m rest =>
      rw [onEvent_own_cons htx]
      exact process_keeps (hmsg m (by simp [nextMessage, htx])) hdrop (htake rest l hl)
  | cancel =>
    rw [onEvent_cancel]
    split
    · exact hl
    · rw [dispatch_inner]
      exact hmsg _ rfl _ hl
  | _ => exact (process_keeps (hmsg _ rfl) hdrop hl : I (process H ck _ l).inner)

/-! ## Settings -/

/-- The handler leaves its settings alone. -/
def KeepsSettings (H : MessageHandler σ) : Prop :=
  ∀ m, Prog.Frame (fun s => (H.common s).fixed) (H.onMessage m)

theorem step_fixed (hlaw : H.Lawful) (hset : KeepsSettings H) (l : SessionLoop ck σ)
    (e : Env × LoopEvent) : (H.common (step H ck l e).inner).fixed = (H.common l.inner).fixed := by
  unfold step
  split
  · refine onEvent_keeps (I := fun s => (H.common s).fixed = (H.common l.inner).fixed)
      (fun m _ s hs => (hset _ s).trans hs) (fun ackTx s hs => ?_) (fun rest l' hl' => ?_) ?_
    · rw [dropped, hlaw.common_mapCommon]
      cases ackTx <;> exact hs
    · rw [taken, hlaw.common_mapCommon]
      exact hl'
    · show (H.common (H.clear (H.mapCommon _ l.inner))).fixed = _
      rw [hlaw.common_clear, hlaw.common_mapCommon]
      rfl
  · rfl

/-! ## A small session

A library that accepts everything, and a multicast session without MLS and without identity
binding. -/

def sampleLib : MlsLib Unit := MlsState.accepting (fun _ => none) id

/-- Every draw gives `n`. -/
def sampleEnv (n : Nat) : Env where
  rand _ := n
  subscriptionAck k := .ok k
  token := .ok ""
  signature _ := .ok ""
  sessionLayerOpen := true
  room _ := true

def sampleChecks : Checks where
  verify _ := .error .SessionClosed
  pinned _ := none
  appId _ := 0
  isChannelOf _ _ _ := true
  maxSeenControlMessageIds := 1000

def sampleApp (app : UInt64) (id : BitVec 128) : ProtoName where
  name := some ⟨1, 2, app, some (NameId.ofU128 id)⟩
  strName := none

def sampleLocal : ProtoName := sampleApp 9 1

def sampleSettings : SessionSettings where
  id := 1
  source := sampleLocal
  destination := sampleApp 8 NameId.NULL_COMPONENT
  control := sampleApp 7 NameId.NULL_COMPONENT
  config := { sessionType := .Multicast, initiator := true }
  identityBinding := .Off

def sampleControl (t : SessionMessageType) (source destination : ProtoName) (id : Nat)
    (command : CommandPayload) : Publish where
  source
  destination
  flags := { incomingConn := some 5 }
  session := ⟨SessionType.Multicast.toWire, t.toWire, 1, id⟩
  payload := some (.commandPayload (some command))

end SessionLoop

end Slim
