import Slim.Session.Types

/-!
# The MLS state of a session

`MlsState`: a group of the MLS library and the counter that keeps its commits in order. A commit has
an id; `last_mls_msg_id` is the id of the last one applied, `0` until the welcome. Commits that
arrive early wait in `stored_commits_proposals`.

The library and what it rests on is a parameter (`MlsLib`): a call returns, or fails, and leaves a
group in both cases. `handed` is a history: the commits given to `process_commit`. Ids are `u32`s
and wrap, as in a release build.
-/

namespace Slim

open CommandPayload

abbrev MlsCall (G α : Type) := G → Except MlsError α × G

/-- What a membership operation returns: the commit, the welcome and the identity of the member. -/
structure MemberChange where
  commit : Bytes
  welcome : Bytes
  identity : Bytes

structure MlsLib (G : Type) where
  epoch : G → Option UInt64
  createGroup : MlsCall G Unit
  generateKeyPackage : MlsCall G Bytes
  processWelcome : Bytes → MlsCall G Bytes
  processCommit : Bytes → MlsCall G Unit
  processProposal : Bytes → Bool → MlsCall G Bytes
  addMember : Bytes → MlsCall G MemberChange
  removeMember : Bytes → MlsCall G Bytes
  rejoinMember : Bytes → Bytes → MlsCall G MemberChange
  keyPackageIdentity : G → Bytes → Except MlsError Bytes
  encryptMessage : Bytes → Bytes → MlsCall G Bytes
  /-- The plain text, the authenticated data and the identity of the sender. -/
  decryptMessage : Bytes → MlsCall G (Bytes × Bytes × Bytes)
  /-- The authenticated data of a message (`build_aad`). -/
  aad : Publish → Bytes
  /-- The id a name of this identity has (`name_id::app_id`). -/
  appId : Bytes → BitVec 128
  /-- The text of an identity (`String::from_utf8_lossy`). -/
  subject : Bytes → String

structure MlsState (G : Type) where
  mls : G
  group : Bytes := []
  lastMlsMsgId : UInt32 := 0
  storedCommitsProposals : AList fun _ : UInt32 => Publish := ∅
  headerIntegrityValidationPercent : Nat := 100
  identityBinding : IdentityBinding := .Warn
  /-- History: the commits given to `process_commit`. -/
  handed : List MlsPayload := []

namespace MlsState

variable {G : Type}

abbrev M (G α : Type) := Prog (MlsState G) SessionError α

def call {α : Type} (c : MlsCall G α) : M G α := fun s =>
  match c s.mls with
  | (.ok a, g) => (.ok a, { s with mls := g })
  | (.error e, g) => (.err (.MlsOp e), { s with mls := g })

variable (X : MlsLib G)

/-! ## Control messages -/

def generateKeyPackage : M G Bytes := call X.generateKeyPackage

def processWelcomeMessage (msg : Publish) : M G Unit := do
  let last ← Prog.read lastMlsMsgId
  if last ≠ 0 then pure () else
  let payload ← msg.read asGroupWelcome
  let mls ← Prog.okOr .WelcomeMessageMissingMlsPayload payload.mls
  Prog.modify fun s => { s with lastMlsMsgId := mls.commitId }
  let group ← call (X.processWelcome mls.mlsContent)
  Prog.modify fun s => { s with group }

def commitIdOf (msg : Publish) : Except SessionError UInt32 := do
  let command ← SessionError.ofMessage msg.extractCommandPayload
  match msg.type with
  | .GroupUpdate =>
    let payload ← SessionError.ofMessage (asGroupUpdate command)
    match payload.mls with
    | some mls => .ok mls.commitId
    | none => .error (.MlsOp .NoGroupUpdatePayload)
  | _ => .error (.MlsOp .UnknownPayloadType)

/-- Store the message, unless there was no welcome yet, or it is old, or it is stored already. -/
def isValidMsgId (msg : Publish) : M G Bool := do
  let s ← Prog.read id
  if s.lastMlsMsgId = 0 then pure false else
  let commitId ← Prog.ofExcept (commitIdOf msg)
  if commitId ≤ s.lastMlsMsgId then pure false
  else if (s.storedCommitsProposals.lookup commitId).isSome then pure false
  else
    Prog.modify fun s =>
      { s with storedCommitsProposals := s.storedCommitsProposals.insert commitId msg }
    pure true

def processCommitMessage (mls : MlsPayload) : M G Unit := do
  Prog.modify fun s => { s with handed := s.handed ++ [mls] }
  call (X.processCommit mls.mlsContent)

def processProposalMessage (proposal : Publish) (localName : ProtoName) : M G Unit := do
  let payload ← proposal.read asGroupProposal
  let originalSource ← Prog.okOr (.MissingPayload "proposal source") payload.source
  -- our own proposals come back
  if originalSource = localName then pure () else
  let _ ← call (X.processProposal payload.mlsProposal false)
  pure ()

/-- One stored message, by its type. -/
def processStored (msg : Publish) (localName : ProtoName) : M G Unit :=
  match msg.type with
  | .GroupProposal => processProposalMessage X msg localName
  | .GroupUpdate => do
    let payload ← msg.read asGroupUpdate
    let mls ← Prog.okOr (.MlsOp .NoGroupUpdatePayload) payload.mls
    processCommitMessage X mls
  | t => Prog.throw (.SessionMessageTypeUnknown t)

/-- The loop of `process_control_message`: every round takes a stored message, which bounds the
rounds. -/
def processAllStored (localName : ProtoName) : Nat → M G Unit
  | 0 => pure ()
  | fuel + 1 => do
    let s ← Prog.read id
    match s.storedCommitsProposals.lookup (s.lastMlsMsgId + 1) with
    | none => pure ()
    | some msg =>
      Prog.modify fun s =>
        { s with
          storedCommitsProposals := s.storedCommitsProposals.erase (s.lastMlsMsgId + 1)
          lastMlsMsgId := s.lastMlsMsgId + 1 }
      processStored X msg localName
      processAllStored localName fuel

/-- `false` for a message that is dropped. -/
def processControlMessage (msg : Publish) (localName : ProtoName) : M G Bool := do
  let valid ← isValidMsgId msg
  if !valid then pure false else
  let stored ← Prog.read storedCommitsProposals
  processAllStored X localName stored.entries.length
  pure true

/-! ## Data messages -/

/-- Only application data is encrypted. -/
def shouldProcessMessage (msg : Publish) : Bool := msg.type = .Msg ∨ msg.type = .RtxReply

/-- The application payload of a message, which is expected to have a content. -/
def applicationPayload (msg : Publish) : M G (String × Bytes) := do
  let content ← Prog.expect "called `Option::unwrap()` on a `None` value" msg.payload
  match content with
  | .appPayload payloadType blob => pure (payloadType, blob)
  | .commandPayload _ => Prog.throw (.MessageError .NotApplicationPayload)
  | .unset => Prog.throw (.MessageError .ContentTypeNotSet)

def encryptMessage (msg : Publish) : M G Publish := do
  if !shouldProcessMessage msg then pure msg else
  let (payloadType, blob) ← applicationPayload msg
  let encrypted ← call (X.encryptMessage blob (X.aad msg))
  pure { msg with payload := some (.appPayload payloadType encrypted) }

/-- `draw` is the random number that decides whether the header is validated. -/
def decryptMessage (draw : Nat) (msg : Publish) : M G Publish := do
  if !shouldProcessMessage msg then pure msg else
  let (payloadType, blob) ← applicationPayload msg
  let (decrypted, authData, sender) ← call (X.decryptMessage blob)
  let s ← Prog.read id
  let percent := s.headerIntegrityValidationPercent
  if 0 < percent ∧ (100 ≤ percent ∨ draw % 100 < percent) ∧ X.aad msg ≠ authData then
    Prog.throw (.MlsOp (.VerificationFailed "Header integrity mismatch"))
  else
    let id ← Prog.expect "encoded name missing" msg.source.id
    if id ≠ X.appId sender ∧ s.identityBinding.mismatch then
      Prog.throw (.MlsOp (.VerificationFailed "sender name doesn't match its MLS identity"))
    else
      pure ({ msg with payload := some (.appPayload payloadType decrypted) }.insertMetadata
        PEER_SUBJECT_KEY (X.subject sender))

end MlsState

/-! ## The moderator's part -/

structure MlsModeratorState (G : Type) where
  common : MlsState G
  /-- The members, by full name, with their identities. -/
  participants : AList fun _ : ProtoName => Bytes := ∅
  nextMsgId : UInt32 := 0

namespace MlsModeratorState

variable {G : Type} (X : MlsLib G)

abbrev M (G α : Type) := Prog (MlsModeratorState G) SessionError α

def onCommon {α : Type} (x : MlsState.M G α) : M G α :=
  Prog.zoom common (fun c s => { s with common := c }) x

def initModerator : M G Unit := onCommon (MlsState.call X.createGroup)

def getNextMlsMsgId : M G UInt32 := do
  Prog.modify fun s => { s with nextMsgId := s.nextMsgId + 1 }
  Prog.read nextMsgId

def joinerIdentity (msg : Publish) : M G Bytes := do
  let payload ← msg.read asJoinReply
  let s ← Prog.read id
  match X.keyPackageIdentity s.common.mls payload.keyPackageBytes with
  | .ok identity => pure identity
  | .error e => Prog.throw (.MlsOp e)

def addParticipant (msg : Publish) : M G (Bytes × Bytes) := do
  let payload ← msg.read asJoinReply
  let change ← onCommon (MlsState.call (X.addMember payload.keyPackageBytes))
  Prog.modify fun s => { s with participants := s.participants.insert msg.source change.identity }
  pure (change.commit, change.welcome)

def removeParticipant (msg : Publish) : M G Bytes := do
  let s ← Prog.read id
  match s.participants.lookup msg.destination with
  | none => Prog.throw (.ParticipantNotFound msg.destination)
  | some identity =>
    let commit ← onCommon (MlsState.call (X.removeMember identity))
    Prog.modify fun s => { s with participants := s.participants.erase msg.destination }
    pure commit

def rejoinParticipant (name : ProtoName) (keyPackage : Bytes) : M G (Bytes × Bytes) := do
  let s ← Prog.read id
  match s.participants.lookup name with
  | none => Prog.throw (.ParticipantNotFound name)
  | some identity =>
    let change ← onCommon (MlsState.call (X.rejoinMember identity keyPackage))
    Prog.modify fun s => { s with participants := s.participants.insert name change.identity }
    pure (change.commit, change.welcome)

end MlsModeratorState

end Slim
