import Slim.Session.Loop

/-!
# What the parts of a session leave alone

The session's own channel is written by two operations only, the report of a silent member and
`send_session`; only the second sends messages back for processing (`handedBack`). Everything else a
controller does leaves what is handed back as it is.
-/

namespace Slim

open Prog

/-- The messages a session sent back to its own loop for processing. -/
def handedBack (tx : List SessionMessage) : List SessionMessage :=
  tx.filter fun
    | .onMessage _ .South _ => true
    | _ => false

@[simp] theorem handedBack_append (a b : List SessionMessage) :
    handedBack (a ++ b) = handedBack a ++ handedBack b := List.filter_append ..

@[simp] theorem handedBack_disconnected (name : Option ProtoName) :
    handedBack [.participantDisconnected name] = [] := rfl

@[simp] theorem handedBack_south (msg : Publish) (ackTx : Option AckTx) :
    handedBack [.onMessage msg .South ackTx] = [.onMessage msg .South ackTx] := rfl

/-! ## Messages whose handlers add endpoints -/

/-- The handlers of these messages call `add_endpoint`. -/
def SessionMessageType.mayAddEndpoint : SessionMessageType → Bool
  | .JoinReply | .RejoinRequest | .Heartbeat | .UpdateParticipantState | .GroupWelcome
  | .GroupUpdate => true
  | _ => false

theorem SessionMessageType.mayAddEndpoint_isCommand {t : SessionMessageType}
    (h : t.mayAddEndpoint) : t.isCommandMessage := by
  cases t <;> first | rfl | cases h

def SessionMessage.mayAddEndpoint : SessionMessage → Bool
  | .onMessage msg _ _ => msg.type.mayAddEndpoint
  | _ => false

/-! ## The sender of control messages -/

namespace ControllerSender

@[simp] theorem onHeartbeats_txSession (f : HeartbeatState → HeartbeatState)
    (s : ControllerSender) : (s.onHeartbeats f).txSession = s.txSession := rfl

theorem onSendMessage_txSession (m : Publish) (missing : List ProtoName) :
    Frame txSession (onSendMessage m missing) := by
  refine .bind (.modify fun _ => rfl) fun _ => .bind (.modify fun s => ?_) fun _ => .pure _
  split <;> rfl

theorem onReplyMessage_txSession (m : Publish) : Frame txSession (onReplyMessage m) := by
  refine .bind (.read _) fun s => ?_
  cases s.pendingReplies.lookup m.id with
  | none => exact .pure _
  | some pending =>
    dsimp only
    split
    · exact .bind (.expect _ _) fun _ => .modify fun _ => rfl
    · exact .bind (.pure _) fun _ => .modify fun _ => rfl

theorem onMessage_txSession (m : Publish) : Frame txSession (onMessage m) := by
  refine .bind (.read _) fun s => .ite (.throw _) ?_
  have send := onSendMessage_txSession m
  have reply := onReplyMessage_txSession m
  -- one case for each group of message types, in the order of the source
  split
  case h_12 => exact .bind (.modify fun _ => rfl) fun _ => .pure _
  case h_13 =>
    refine .bind (.ofExcept _) fun payload => .ite ?_ (send _)
    exact .bind (.okOr _ _) fun _ => .bind (.ofExcept _) fun _ => send _
  case h_16 => exact .panic _
  all_goals first
    | exact send _
    | exact .pure _
    | exact .bind reply fun _ => .pure _
    | skip
  all_goals
    refine .ite (.throw _) ?_
    split <;> first
      | exact .bind (.expect _ _) fun _ => send _
      | exact .bind (.pure _) fun _ => send _

theorem onFailure_txSession (id : Nat) : Frame txSession (onFailure id) :=
  .bind (.read _) fun _ => .bind (.modify fun _ => rfl) fun _ => .pure _

section
variable (room : ProtoName → Bool)
include room

theorem reportOffline_handedBack (s : ControllerSender)
    (name : ProtoName) :
    handedBack (s.reportOffline room name).txSession = handedBack s.txSession := by
  unfold reportOffline
  split <;> simp

theorem foldl_reportOffline_handedBack (names : List ProtoName) (s : ControllerSender) :
    handedBack (names.foldl (reportOffline room) s).txSession = handedBack s.txSession := by
  induction names generalizing s with
  | nil => rfl
  | cons name names ih => rw [List.foldl_cons, ih, reportOffline_handedBack]

theorem heartbeatTick_handedBack (draw : Nat) (epoch : UInt64) (hs : HeartbeatState) :
    Frame (fun s => handedBack s.txSession) (heartbeatTick room draw epoch hs) := by
  refine .bind (.modify fun s => ?_) fun _ => .bind (.read _) fun s =>
    .bind (.modify fun _ => rfl) fun _ => ?_
  · exact foldl_reportOffline_handedBack room _ _
  · cases s.groupName with
    | none => exact .pure _
    | some _ => exact .pure _

theorem onTimerTimeout_handedBack (draw id : Nat) (t : SessionMessageType) (epoch : Option UInt64) :
    Frame (fun s => handedBack s.txSession) (onTimerTimeout room draw id t epoch) := by
  refine .bind (.read _) fun s => .ite (.bind (.read _) fun s => ?_) ?_
  · cases s.heartbeatState with
    | none => exact .pure _
    | some hs => exact .ite (heartbeatTick_handedBack room draw _ hs) (.pure _)
  · cases s.pendingReplies.lookup id with
    | none => exact .throw _
    | some _ => exact .pure _

end

end ControllerSender

/-! ## The shared controller -/

namespace SessionControllerCommon

/-- What is handed back, as a part of the controller. -/
def handed (c : SessionControllerCommon) : List SessionMessage := handedBack c.sender.txSession

/-- The settings, which are fixed but for the destination: a point to point session learns it. -/
def fixed (c : SessionControllerCommon) : SessionSettings :=
  { c.settings with destination := ⟨none, none⟩ }

def shown (c : SessionControllerCommon) : List SessionMessage × SessionSettings :=
  (c.handed, c.fixed)

theorem onSender_shown {α : Type} {x : ControllerSender.M α}
    (hx : Frame (fun s => handedBack s.txSession) x) : Frame shown (onSender x) :=
  fun c => congrArg (fun h => (h, c.fixed)) (hx c.sender)

theorem sendMessage_shown (m : Publish) : Frame shown (onSender (ControllerSender.onMessage m)) :=
  onSender_shown ((ControllerSender.onMessage_txSession m).comp handedBack)

theorem modifySender_shown {f : ControllerSender → ControllerSender}
    (hf : ∀ s, (f s).txSession = s.txSession) : Frame shown (modifySender f) :=
  .modify fun c => congrArg (fun tx => (handedBack tx, c.fixed)) (hf c.sender)

theorem random_shown : Frame shown random :=
  .bind (.read _) fun _ => .bind (.modify fun _ => rfl) fun _ => .pure _

theorem notify_shown {ackTx : Option AckTx} {r : Except SessionError Unit} :
    Frame shown (notify ackTx r) :=
  .modify fun c => by cases ackTx <;> rfl

/-! ### Routes and subscriptions

They change what was asked for and how many answers came, and nothing else. -/

section routes
variable {β : Type} {f : SessionControllerCommon → β}
  (hf : ∀ c ids n, f { c with subscriptionIds := ids, answers := n } = f c)
  (kind : SubscriptionKind) (name : ProtoName) (conn : ConnId)
include hf

theorem awaitSubscriptionAck_frame : Frame f awaitSubscriptionAck := by
  refine .bind (.read _) fun c => .bind (.modify fun c => hf c c.subscriptionIds _) fun _ => ?_
  cases c.env.subscriptionAck c.answers with
  | ok _ => exact .pure _
  | error _ => exact .throw _

theorem addEntry_frame : Frame f (addEntry kind name conn) :=
  .bind (awaitSubscriptionAck_frame hf) fun _ => .modify fun c => hf c _ c.answers

theorem deleteEntry_frame : Frame f (deleteEntry kind name conn) :=
  .bind (.read _) fun _ => .bind (.modify fun c => hf c _ c.answers) fun _ =>
    .ite (.bind (awaitSubscriptionAck_frame hf) fun _ => .pure _) (.pure _)

theorem addRoute_frame : Frame f (addRoute name conn) :=
  .bind (.read _) fun _ => .ite (.pure _) (addEntry_frame hf _ name conn)

theorem deleteRoute_frame : Frame f (deleteRoute name conn) :=
  .bind (.read _) fun _ => .ite (.pure _) (deleteEntry_frame hf _ name conn)

end routes

section
variable {kind : SubscriptionKind} {name : ProtoName} {conn : ConnId}

theorem addEntry_shown : Frame shown (addEntry kind name conn) :=
  addEntry_frame (fun _ _ _ => rfl) kind name conn

theorem deleteEntry_shown : Frame shown (deleteEntry kind name conn) :=
  deleteEntry_frame (fun _ _ _ => rfl) kind name conn

theorem addRoute_shown : Frame shown (addRoute name conn) :=
  addRoute_frame (fun _ _ _ => rfl) name conn

theorem deleteRoute_shown : Frame shown (deleteRoute name conn) :=
  deleteRoute_frame (fun _ _ _ => rfl) name conn

end

theorem sendControlMessage_shown {dst : ProtoName} {t : SessionMessageType} {id : Nat}
    {payload : CommandPayload} {metadata : List (String × String)} {broadcast : Bool} :
    Frame shown (sendControlMessage dst t id payload metadata broadcast) :=
  .bind (.read _) fun _ => sendMessage_shown _

theorem applyIdentity_shown (out : SessionOutput) : Frame shown (applyIdentity out) :=
  .bind (.read _) fun _ => .bind (.ofExcept _) fun _ => .pure _

end SessionControllerCommon

end Slim
