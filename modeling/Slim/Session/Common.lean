import Slim.Session.ControllerSender
import Slim.Session.Inner
import Slim.Session.MlsState

/-!
# What moderators and participants share

`SessionControllerCommon`: the settings, the sender of control messages, the routes and
subscriptions a session asked for, and what is done to every message before it leaves.

What the handling of one event meets outside of the session is in an `Env`: the random numbers it
draws, the answers of the subscription manager, the token and the signatures of the identity
provider, and whether there is room in the channels. Of a signature only the metadata entry is kept;
the one of the header is read by nothing that is modelled.
-/

namespace Slim

abbrev Roster := AList fun _ : ProtoName => Participant

namespace Roster

def values (g : Roster) : List Participant := g.entries.map Sigma.snd

def setStatus (name : ProtoName) (st : ParticipantState) (g : Roster) : Roster :=
  match g.lookup name with
  | some entry => g.insert name (entry.setStatus st)
  | none => g

def mapValues (f : Participant → Participant) (g : Roster) : Roster :=
  g.keys.foldl
    (fun m name =>
      match m.lookup name with
      | some entry => m.insert name (f entry)
      | none => m)
    g

end Roster

/-! ## The environment of an event -/

structure Env where
  /-- The random numbers, in the order they are drawn. -/
  rand : Nat → Nat
  /-- The answers of the subscription manager, in order; a subscription gets an id. -/
  subscriptionAck : Nat → Except SubscriptionAckError Nat
  token : Except SessionError String
  /-- The encoded payload signature of a control message. -/
  signature : Publish → Except SessionError String
  /-- The session layer still receives. -/
  sessionLayerOpen : Bool
  /-- There is room in the session's channel to report this member. -/
  room : ProtoName → Bool

inductive SubscriptionKind
  | Route
  | Subscription
  deriving DecidableEq, Repr

structure PendingStatusUpdate where
  messageId : Nat
  messageType : SessionMessageType
  status : ParticipantState
  ackTx : Option AckTx

structure SessionControllerCommon where
  settings : SessionSettings
  sender : ControllerSender
  online : Bool
  pendingStatusUpdate : Option PendingStatusUpdate
  processingState : ProcessingState
  subscriptionIds : AList fun _ : SubscriptionKind × ProtoName × ConnId => Nat
  env : Env
  /-- How many random numbers this event has drawn. -/
  draws : Nat
  /-- How many answers of the subscription manager this event has had. -/
  answers : Nat
  /-- What the controller sent on one-shot channels. -/
  acks : Acks

def PAYLOAD_SIG_KEY : String := "slim-payload-sig"

namespace SessionControllerCommon

abbrev M (α : Type) := Prog SessionControllerCommon SessionError α

def new (settings : SessionSettings) (env : Env) : SessionControllerCommon where
  settings
  sender := .new settings.source settings.config.sessionType settings.id (env.rand 0)
  online := true
  pendingStatusUpdate := none
  processingState := .Active
  subscriptionIds := ∅
  env
  draws := 1
  answers := 0
  acks := []

/-- Start on the next event. -/
def withEnv (env : Env) (c : SessionControllerCommon) : SessionControllerCommon :=
  { c with env, draws := 0, answers := 0 }

def onSender {α : Type} (x : ControllerSender.M α) : M α :=
  Prog.zoom sender (fun s c => { c with sender := s }) x

def modifySender (f : ControllerSender → ControllerSender) : M Unit :=
  Prog.modify fun c => { c with sender := f c.sender }

/-- `rand::random::<u32>()`. -/
def random : M Nat := do
  let c ← Prog.read id
  Prog.modify fun c => { c with draws := c.draws + 1 }
  pure (c.env.rand c.draws % 2 ^ 32)

/-- Send on a one-shot channel, if there is one. -/
def notify (ackTx : Option AckTx) (r : Except SessionError Unit) : M Unit :=
  Prog.modify fun c =>
    match ackTx with
    | some tx => { c with acks := c.acks ++ [(tx, r)] }
    | none => c

/-- Send to the session's own loop, which holds the receiver. -/
def sendSession (message : SessionMessage) : M Unit :=
  modifySender fun s => { s with txSession := s.txSession ++ [message] }

/-! ## Routes and subscriptions -/

def awaitSubscriptionAck : M Nat := do
  let c ← Prog.read id
  Prog.modify fun c => { c with answers := c.answers + 1 }
  match c.env.subscriptionAck c.answers with
  | .ok subscriptionId => pure subscriptionId
  | .error e => Prog.throw (.SubscriptionAckFailed e)

def addEntry (kind : SubscriptionKind) (name : ProtoName) (conn : ConnId) : M Unit := do
  let subscriptionId ← awaitSubscriptionAck
  Prog.modify fun c =>
    { c with subscriptionIds := c.subscriptionIds.insert (kind, name, conn) subscriptionId }

/-- Give one back; it is forgotten before the answer comes. -/
def deleteEntry (kind : SubscriptionKind) (name : ProtoName) (conn : ConnId) : M Unit := do
  let c ← Prog.read id
  Prog.modify fun c => { c with subscriptionIds := c.subscriptionIds.erase (kind, name, conn) }
  if (c.subscriptionIds.lookup (kind, name, conn)).isSome then
    let _ ← awaitSubscriptionAck
    pure ()
  else pure ()

/-- There is no route to ourselves. -/
def addRoute (name : ProtoName) (conn : ConnId) : M Unit := do
  let c ← Prog.read id
  if name = c.settings.source then pure () else addEntry .Route name conn

def deleteRoute (name : ProtoName) (conn : ConnId) : M Unit := do
  let c ← Prog.read id
  if name = c.settings.source then pure () else deleteEntry .Route name conn

def addSubscription (name : ProtoName) (conn : ConnId) : M Unit := addEntry .Subscription name conn

def deleteSubscription (name : ProtoName) (conn : ConnId) : M Unit :=
  deleteEntry .Subscription name conn

/-! ## Control messages -/

/-- Building cannot fail: the names are given. -/
def createControlMessage (c : SessionControllerCommon) (dst : ProtoName) (t : SessionMessageType)
    (messageId : Nat) (payload : CommandPayload) (broadcast : Bool) : Publish where
  source := c.settings.source
  destination := dst
  flags := if broadcast then { fanout := 256 } else {}
  session := ⟨c.settings.config.sessionType.toWire, t.toWire, c.settings.id, messageId⟩
  payload := some (.commandPayload (some payload))

def sendControlMessage (dst : ProtoName) (t : SessionMessageType) (messageId : Nat)
    (payload : CommandPayload) (metadata : List (String × String)) (broadcast : Bool) :
    M SessionOutput := do
  let c ← Prog.read id
  onSender (ControllerSender.onMessage
    { c.createControlMessage dst t messageId payload broadcast with metadata })

/-! ## What leaves the session -/

/-- `apply_identity_to_slim_output`. -/
def applyIdentity (output : SessionOutput) : M SessionOutput := do
  let c ← Prog.read id
  let identity ← Prog.ofExcept c.env.token
  pure (output.map fun
    | .toSlim m => .toSlim { m with identity }
    | .toApp r => .toApp r)

def signOutboundControlMessage (env : Env) (m : Publish) : Except SessionError Publish :=
  if !m.type.isCommandMessage then .ok m
  else (env.signature m).map fun sig => m.insertMetadata PAYLOAD_SIG_KEY sig

/-- The pass of a session with MLS: an error is returned. -/
def signAll (env : Env) : SessionOutput → Except SessionError SessionOutput
  | [] => .ok []
  | .toApp r :: out => do
    let out ← signAll env out
    .ok (.toApp r :: out)
  | .toSlim m :: out => do
    let m ← signOutboundControlMessage env m
    let out ← signAll env out
    .ok (.toSlim m :: out)

/-- The pass of a session without MLS: without a key nothing more is signed. -/
def signIfPossible (env : Env) : SessionOutput → Except SessionError SessionOutput
  | [] => .ok []
  | .toApp r :: out => do
    let out ← signIfPossible env out
    .ok (.toApp r :: out)
  | .toSlim m :: out =>
    match signOutboundControlMessage env m with
    | .ok m => do
      let out ← signIfPossible env out
      .ok (.toSlim m :: out)
    | .error .SignatureKeyIsEmpty => .ok (.toSlim m :: out)
    | .error .SignatureKeyCollectionFailed => .ok (.toSlim m :: out)
    | .error e => .error e

end SessionControllerCommon

namespace MlsState

variable {G : Type} (X : MlsLib G)

def encryptOutput : SessionOutput → M G SessionOutput
  | [] => pure []
  | .toApp r :: out => do
    let out ← encryptOutput out
    pure (.toApp r :: out)
  | .toSlim m :: out => do
    let m ← encryptMessage X m
    let out ← encryptOutput out
    pure (.toSlim m :: out)

end MlsState

/-! ## Members that do not answer -/

/-- `mark_missing_offline`: returns the endpoints to remove. The moderator's roster is by names
without an id. -/
def markMissingOffline (resetId : Bool) :
    List ProtoName → Prog Roster SessionError (List ProtoName)
  | [] => pure []
  | participant :: rest => do
    let key ← if resetId then Prog.expect "encoded name missing" participant.resetId
      else pure participant
    let g ← Prog.read id
    let online := (g.lookup key).any Participant.isOnline
    if online then Prog.modify (Roster.setStatus key .Offline)
    let others ← markMissingOffline resetId rest
    pure (if online then participant :: others else others)

end Slim
