import Slim.MessageProcessing
import Slim.Proof.Forwarder

/-!
# What the handlers of a node do

Equations for the paths the later results take: `sendMsg_up` for a link that is up,
`handleNewMessage_subscription` and `processSubscription_at` for a (un)subscription,
`startForward_up` for a forwarding task whose peers are reachable.
-/

namespace Slim

open ForwardTargets Message SlimHeader

/-! ## Messages -/

namespace Message

variable (add : Bool) (hdr : SlimHeader) (subId : SubId)

/-- A subscription or, with `add` false, an unsubscription. -/
def subscription (add : Bool) (hdr : SlimHeader) (subId : SubId) : Message :=
  { messageType :=
      some (if add then .subscribe (some hdr) subId else .unsubscribe (some hdr) subId) }

@[simp] theorem mapHeader_subscription (f : SlimHeader → SlimHeader) :
    (subscription add hdr subId).mapHeader f = subscription add (f hdr) subId := by
  cases add <;> rfl

@[simp] theorem tryGetSlimHeader_subscription :
    (subscription add hdr subId).tryGetSlimHeader = some hdr := by
  cases add <;> rfl

@[simp] theorem validate_subscription :
    (subscription add hdr subId).validate = hdr.validateRouted := by
  cases add <;> rfl

@[simp] theorem asSubscription_subscription :
    (subscription add hdr subId).asSubscription = some (add, hdr, subId) := by
  cases add <;> rfl

theorem asSubscription_mapHeader (m : Message) (f : SlimHeader → SlimHeader) :
    (m.mapHeader f).asSubscription = m.asSubscription.map fun x => (x.1, f x.2.1, x.2.2) := by
  rcases m with ⟨mt, md⟩
  rcases mt with _ | (⟨h, i⟩ | ⟨h, i⟩ | ⟨h, sh, c⟩ | l | ack)
  · rfl
  · cases h <;> rfl
  · cases h <;> rfl
  · rfl
  · rfl
  · rfl

theorem messageType_of_asSubscription {msg : Message} {add : Bool} {hdr : SlimHeader}
    {subId : SubId} (hm : msg.asSubscription = some (add, hdr, subId)) :
    msg.messageType = (subscription add hdr subId).messageType := by
  unfold asSubscription at hm
  split at hm
  · rename_i hmt
    cases hm
    exact hmt
  · rename_i hmt
    cases hm
    exact hmt
  · cases hm

end Message

namespace SlimHeader

theorem validateRouted_eq_ok {h : SlimHeader} :
    h.validateRouted = .ok () ↔ ∃ src dst, h.source = some src ∧ src.name.isSome ∧
      h.destination = some dst ∧ dst.name.isSome := by
  unfold validateRouted
  cases h.source with
  | none => simp
  | some src =>
    cases hs : src.name with
    | none => simp [hs]
    | some e =>
      cases h.destination with
      | none => simp [hs]
      | some dst => cases hd : dst.name <;> simp [hs, hd]

end SlimHeader

namespace Node

variable {msg : Message} {conn : ConnId} {subId : SubId} {hdr : SlimHeader} {dst : ProtoName}
  {c : Connection} {add transition : Bool} {e : Effect} {ct : ConnType} {target : PeerTarget}
  {task : ForwardTask} {b : Bool} {n n' : Node} (p : PeerSync) (name : ProtoName)

/-! ## Sending -/

/-- A link that is up: its channel is open, and no header MAC is asked for. -/
def Up (n : Node) (conn : ConnId) (ct : ConnType) : Prop :=
  ∃ c, n.getConnection conn = some c ∧ c.connectionType = ct ∧ c.channelOpen = true ∧
    c.requireHeaderMac = false ∧ c.headerHmac = false

theorem sendMsg_up (h : n.Up conn ct) (msg : Message) :
    n.sendMsg msg conn = .ok (.send conn (msg.mapHeader clearFlags)) := by
  obtain ⟨c, hc, -, ho, hr, hh⟩ := h
  simp [sendMsg, hc, ho, hr, hh]

theorem mem_trySend (h : e ∈ n.trySend msg conn) :
    e = .send conn (msg.mapHeader clearFlags) := by
  unfold trySend at h
  cases hs : n.sendMsg msg conn with
  | error err => simp [hs] at h
  | ok e' =>
    rw [hs, List.mem_singleton] at h
    unfold sendMsg at hs
    split at hs
    · cases hs
    · dsimp only at hs
      split at hs
      · cases hs
      · split at hs
        · cases hs
        · split at hs
          · cases hs
          · cases hs
            exact h

/-- Nothing but acknowledgements on one connection. -/
def AckTo (conn : ConnId) (es : List Effect) : Prop :=
  ∀ e ∈ es, ∃ ack, e = .send conn { messageType := some (.subscriptionAck ack) }

theorem ackTo_sendSubscriptionAck (n : Node) (conn : ConnId) (subId : SubId)
    (r : Except DataPathError Unit) : AckTo conn (n.sendSubscriptionAck conn subId r) := by
  intro e he
  cases r with
  | ok u => exact ⟨_, mem_trySend he⟩
  | error err => exact ⟨_, mem_trySend he⟩

theorem ackTo_ackIfAsked (n : Node) (conn : ConnId) (subId : SubId)
    (r : Except DataPathError Unit) : AckTo conn (n.ackIfAsked conn subId r) := by
  unfold ackIfAsked
  split
  · exact ackTo_sendSubscriptionAck n conn subId r
  · intro e he
    cases he

theorem AckTo.no_spawn {es : List Effect} (h : AckTo conn es) : ∀ e ∈ es, ∀ t, e ≠ .spawn t := by
  intro e he t ht
  obtain ⟨ack, hk⟩ := h e he
  rw [hk] at ht
  cases ht

def OnlySends (es : List Effect) : Prop := ∀ e ∈ es, ∃ c m, e = .send c m

theorem OnlySends.append {es es' : List Effect} (h : OnlySends es) (h' : OnlySends es') :
    OnlySends (es ++ es') := by
  intro e he
  cases List.mem_append.mp he with
  | inl he => exact h e he
  | inr he => exact h' e he

/-! ## Links -/

/-- Links and settings that message processing leaves alone. -/
structure SameLinks (n n' : Node) : Prop where
  connectionTable : n'.forwarder.connectionTable = n.forwarder.connectionTable
  peerConns : n'.peerSync.peerConns = n.peerSync.peerConns
  subscriptionTtl : n'.peerSync.subscriptionTtl = n.peerSync.subscriptionTtl
  running : n'.running = n.running
  controlPlane : n'.controlPlane = n.controlPlane

theorem SameLinks.refl (n : Node) : SameLinks n n := ⟨rfl, rfl, rfl, rfl, rfl⟩

section
variable (h : SameLinks n n')
include h

theorem SameLinks.trans {n'' : Node} (h' : SameLinks n' n'') : SameLinks n n'' :=
  ⟨h'.connectionTable.trans h.connectionTable, h'.peerConns.trans h.peerConns,
    h'.subscriptionTtl.trans h.subscriptionTtl, h'.running.trans h.running,
    h'.controlPlane.trans h.controlPlane⟩

theorem SameLinks.getConnection (conn : ConnId) : n'.getConnection conn = n.getConnection conn := by
  unfold Node.getConnection Forwarder.getConnection
  rw [h.connectionTable]

theorem SameLinks.sendMsg (msg : Message) (conn : ConnId) :
    n'.sendMsg msg conn = n.sendMsg msg conn := by
  unfold Node.sendMsg
  rw [h.getConnection]

theorem SameLinks.targetConns (target : PeerTarget) :
    n'.targetConns target = n.targetConns target := by
  cases target <;> simp only [Node.targetConns, h.peerConns]

theorem SameLinks.up (hu : n.Up conn ct) : n'.Up conn ct := by
  unfold Up
  rw [h.getConnection]
  exact hu

end

/-! ## Subscriptions -/

def tableStep (t : SubscriptionTable) (dst : ProtoName) (conn : ConnId) (ct : ConnType) (add : Bool)
    (subId : SubId) : Except (Fault DataPathError) Bool × SubscriptionTable :=
  if add then t.addSubscription dst conn ct subId else t.removeSubscription dst conn ct subId

theorem lookup_tableStep (t : SubscriptionTable) (dst : ProtoName) (conn : ConnId) (ct : ConnType)
    (add : Bool) (subId : SubId) {k : SubKey} (hk : ∀ e, dst.name = some e → k ≠ ⟨conn, subId, e⟩) :
    (tableStep t dst conn ct add subId).2.state.subscriptions.lookup k =
      t.state.subscriptions.lookup k := by
  cases add with
  | true => exact t.lookup_add dst conn ct subId hk
  | false => exact t.lookup_remove dst conn ct subId hk

def withTable (n : Node) (t : SubscriptionTable) : Node :=
  { n with forwarder := { n.forwarder with subscriptionTable := t } }

section
variable (n) (t : SubscriptionTable)

@[simp] theorem withTable_getConnection (conn : ConnId) :
    (n.withTable t).getConnection conn = n.getConnection conn := rfl

@[simp] theorem withTable_peerSync : (n.withTable t).peerSync = n.peerSync := rfl

@[simp] theorem withTable_table : (n.withTable t).table = t := rfl

theorem sameLinks_withTable : SameLinks n (n.withTable t) := ⟨rfl, rfl, rfl, rfl, rfl⟩

end

/-- The header as the handler sees it. -/
def received (conn : ConnId) (ct : ConnType) (hdr : SlimHeader) : SlimHeader :=
  { hdr with incomingConn := some conn, ttl := if ct.isLocal then hdr.ttl else hdr.ttl - 1 }

theorem updateSubscriptionState_eq {forward : Option ConnId} (hc : n.getConnection conn = some c) :
    n.updateSubscriptionState dst conn forward add subId =
      ((tableStep n.table dst conn c.connectionType add subId).1.map
          fun transition => ⟨transition, c.isPeerConnection, forward⟩,
        n.withTable (tableStep n.table dst conn c.connectionType add subId).2) := by
  unfold updateSubscriptionState
  rw [hc]
  rfl

/-- A (un)subscription for a connection of the node, local ones named by `recv_from` apart: dropped
when the id was already forwarded, else the table is updated under the connection's type. -/
theorem processSubscription_at {inConn : ConnId} {f : Option ConnId}
    (hc : n.getConnection inConn = some c) (hin : hdr.recvFrom.getD conn = inConn)
    (hf : n.forwardTarget hdr = f) (hloop : (hdr.recvFrom.isSome && c.isLocalConnection) = false) :
    n.processSubscription msg hdr dst subId conn add =
      if add = true ∧ subId ≠ 0 ∧ n.peerSync.hasSeenSubId subId = true then
        ⟨.ok (), n, n.ackIfAsked conn subId (.ok ())⟩
      else
        match tableStep n.table dst inConn c.connectionType add subId with
        | (.error (.panic m), t) => ⟨.error (.panic m), n.withTable t, []⟩
        | (.error (.err e), t) =>
          if subId ≠ 0 then
            ⟨.ok (), n.withTable t, (n.withTable t).sendSubscriptionAck conn subId (.error e)⟩
          else ⟨.error (.err (.MessageProcessingError e msg)), n.withTable t, []⟩
        | (.ok transition, t) =>
          (n.withTable t).forwardSubscription msg dst hdr.ttl subId conn inConn c add
            ⟨transition, c.isPeerConnection, f⟩ := by
  unfold processSubscription
  simp only [hin, hc, hloop, hf, Bool.false_eq_true, ↓reduceIte, Bool.and_eq_true, decide_not,
    Bool.not_eq_eq_eq_not, Bool.not_true, decide_eq_false_iff_not, and_assoc]
  split
  · rfl
  · rw [updateSubscriptionState_eq hc]
    rcases tableStep n.table dst inConn c.connectionType add subId with ⟨r, t⟩
    rcases r with (e | m) | transition <;> rfl

theorem forwardSubscription_node (n : Node) (msg : Message) (dst : ProtoName) (ttl : Nat)
    (subId : SubId) (inConnection inConn : ConnId) (c : Connection) (add : Bool)
    (outcome : SubscriptionOutcome) :
    (n.forwardSubscription msg dst ttl subId inConnection inConn c add outcome).node = n := by
  unfold forwardSubscription
  dsimp only
  split <;> rfl

theorem forwardSubscription_result (n : Node) (msg : Message) (dst : ProtoName) (ttl : Nat)
    (subId : SubId) (inConnection inConn : ConnId) (c : Connection) (add : Bool)
    (outcome : SubscriptionOutcome) :
    (n.forwardSubscription msg dst ttl subId inConnection inConn c add outcome).result = .ok
    () := by
  unfold forwardSubscription
  dsimp only
  split <;> rfl

/-- `n'` is `n` after the table operation of a (un)subscription, for the connection `recv_from`
names or else the one it came on. A connection named by the flag is not local. -/
structure Filed (n n' : Node) (conn : ConnId) (add : Bool) (hdr : SlimHeader) (subId : SubId)
    (dst : ProtoName) (c : Connection) : Prop where
  destination : hdr.destination = some dst
  connection : n.getConnection (hdr.recvFrom.getD conn) = some c
  notLocal : hdr.recvFrom.isSome → c.isLocalConnection = false
  node : n' = n.withTable
    (tableStep n.table dst (hdr.recvFrom.getD conn) c.connectionType add subId).2

/-- Whatever its flags, a (un)subscription changes the node by at most one table operation. -/
theorem processSubscription_node (n : Node) (msg : Message) (hdr : SlimHeader)
    (hd : hdr.destination = some dst) (subId : SubId) (conn : ConnId) (add : Bool) :
    (n.processSubscription msg hdr dst subId conn add).node = n ∨
      ∃ c, Filed n (n.processSubscription msg hdr dst subId conn add).node conn add hdr subId
        dst c := by
  unfold processSubscription
  dsimp only
  cases hc : n.getConnection (hdr.recvFrom.getD conn) with
  | none => exact .inl rfl
  | some c =>
    dsimp only
    split
    · exact .inl rfl
    · rename_i hloop
      split
      · exact .inl rfl
      · refine .inr ⟨c, hd, hc, fun hs => (by simpa [hs] using hloop), ?_⟩
        rw [updateSubscriptionState_eq hc]
        rcases tableStep n.table dst (hdr.recvFrom.getD conn) c.connectionType add subId with ⟨r, t⟩
        rcases r with (e | m) | transition
        · simp only [Except.map]
          split <;> rfl
        · rfl
        · exact forwardSubscription_node _ _ _ _ _ _ _ _ _ _

theorem processMessage_subscription (n : Node) (hm : msg.asSubscription = some (add, hdr, subId))
    (conn : ConnId) (ct : ConnType) :
    n.processMessage msg conn ct =
      match hdr.destination with
      | some dst => n.processSubscription msg hdr dst subId conn add
      | none => ⟨.error headerMissing, n, []⟩ := by
  have hmt := messageType_of_asSubscription hm
  cases add <;> cases hd : hdr.destination <;>
    simp [processMessage, hmt, Message.subscription, hd]

/-- The message as the handler passes it on. -/
def passedOn (conn : ConnId) (ct : ConnType) (msg : Message) : Message :=
  let msg := msg.mapHeader fun h => { h with incomingConn := some conn }
  if ct.isLocal then msg else msg.mapHeader decrementTtl

section
variable (n : Node) (conn : ConnId) (ct : ConnType)

theorem handleNewMessage_cases (msg : Message) :
    ((n.handleNewMessage conn ct msg).node = n ∧ (n.handleNewMessage conn ct msg).effects = [] ∧
        ∃ f, (n.handleNewMessage conn ct msg).result = .error f) ∨
      msg.validate = .ok () ∧
        n.handleNewMessage conn ct msg = n.processMessage (passedOn conn ct msg) conn ct := by
  unfold handleNewMessage
  cases hv : msg.validate with
  | error e => exact .inl ⟨rfl, rfl, _, rfl⟩
  | ok u =>
    dsimp only
    rw [← passedOn]
    cases (passedOn conn ct msg).tryGetSlimHeader with
    | none => exact .inr ⟨rfl, rfl⟩
    | some h =>
      dsimp only
      split
      · exact .inl ⟨rfl, rfl, _, rfl⟩
      · exact .inr ⟨rfl, rfl⟩

theorem asSubscription_passedOn (msg : Message) :
    (passedOn conn ct msg).asSubscription =
      msg.asSubscription.map fun x => (x.1, received conn ct x.2.1, x.2.2) := by
  unfold passedOn
  cases hct : ct.isLocal with
  | true =>
    simp only [↓reduceIte, asSubscription_mapHeader]
    congr 1
    funext x
    simp [received, hct]
  | false =>
    simp only [Bool.false_eq_true, ↓reduceIte, asSubscription_mapHeader, Option.map_map]
    congr 1
    funext x
    simp [received, hct, decrementTtl]

theorem passedOn_asSubscription (hm : msg.asSubscription = some (add, hdr, subId)) :
    (passedOn conn ct msg).asSubscription = some (add, received conn ct hdr, subId) := by
  rw [asSubscription_passedOn, hm]
  rfl

theorem handleNewMessage_checked (hm : msg.asSubscription = some (add, hdr, subId)) :
    n.handleNewMessage conn ct msg =
      match hdr.validateRouted with
      | .error e => ⟨.error (.err (.MessageProcessingError (.MalformedMessage e) msg)), n, []⟩
      | .ok () =>
        if ct.isLocal = false ∧ hdr.ttl - 1 = 0 then ⟨.error (.err .TtlExpired), n, []⟩
        else n.processMessage (passedOn conn ct msg) conn ct := by
  have hmt := messageType_of_asSubscription hm
  have hv : msg.validate = hdr.validateRouted := by
    rw [← validate_subscription add hdr subId]
    simp [Message.validate, hmt]
  have hh : (passedOn conn ct msg).tryGetSlimHeader = some (received conn ct hdr) := by
    rw [← tryGetSlimHeader_subscription add (received conn ct hdr) subId]
    simp [Message.tryGetSlimHeader,
      messageType_of_asSubscription (passedOn_asSubscription conn ct hm)]
  unfold handleNewMessage
  rw [hv]
  cases hdr.validateRouted with
  | error e => rfl
  | ok u =>
    dsimp only
    rw [← passedOn, hh]
    cases hct : ct.isLocal <;> simp [received, hct]

/-- How far a message gets before it is processed. -/
theorem handleNewMessage_asSubscription (hm : msg.asSubscription = some (add, hdr, subId)) :
    if hdr.validateRouted = .ok () ∧ (ct.isLocal = false → 2 ≤ hdr.ttl) then
      ∃ dst, hdr.destination = some dst ∧ n.handleNewMessage conn ct msg =
        n.processSubscription (passedOn conn ct msg) (received conn ct hdr) dst subId conn add
    else ∃ f, n.handleNewMessage conn ct msg = ⟨.error f, n, []⟩ := by
  rw [handleNewMessage_checked n conn ct hm]
  split
  · rename_i hok
    obtain ⟨hv, httl⟩ := hok
    obtain ⟨-, dst, -, -, hd, -⟩ := validateRouted_eq_ok.mp hv
    refine ⟨dst, hd, ?_⟩
    rw [hv, processMessage_subscription n (passedOn_asSubscription conn ct hm),
      show (received conn ct hdr).destination = some dst from hd]
    refine if_neg fun ⟨hct, hexp⟩ => ?_
    have := httl hct
    omega
  · rename_i hno
    cases hv : hdr.validateRouted with
    | error e => exact ⟨_, rfl⟩
    | ok u =>
      refine ⟨_, if_pos ?_⟩
      obtain ⟨hct, hlt⟩ := Classical.not_imp.mp fun httl => hno ⟨hv, httl⟩
      exact ⟨hct, by omega⟩

theorem handleNewMessage_subscription_node (hm : msg.asSubscription = some (add, hdr, subId)) :
    (n.handleNewMessage conn ct msg).node = n ∨
      ∃ dst c, Filed n (n.handleNewMessage conn ct msg).node conn add hdr subId dst c := by
  rcases handleNewMessage_cases n conn ct msg with ⟨hn, -⟩ | ⟨-, heq⟩
  · exact .inl hn
  · rw [heq, processMessage_subscription n (passedOn_asSubscription conn ct hm)]
    cases hd : (received conn ct hdr).destination with
    | none => exact .inl rfl
    | some dst =>
      rcases processSubscription_node n (passedOn conn ct msg) (received conn ct hdr) hd subId conn
        add with hn | ⟨c, hf⟩
      · exact .inl hn
      · exact .inr ⟨dst, c, hd, hf.connection, hf.notLocal, hf.node⟩

end

theorem handleNewMessage_subscription (hv : hdr.validateRouted = .ok ())
    (hd : hdr.destination = some dst) :
    n.handleNewMessage conn ct (.subscription add hdr subId) =
      if ct.isLocal = false ∧ hdr.ttl - 1 = 0 then ⟨.error (.err .TtlExpired), n, []⟩
      else n.processSubscription (.subscription add (received conn ct hdr) subId)
        (received conn ct hdr) dst subId conn add := by
  have hm := asSubscription_subscription add hdr subId
  have hp : passedOn conn ct (.subscription add hdr subId) =
      .subscription add (received conn ct hdr) subId := by
    cases hct : ct.isLocal <;> simp [passedOn, received, hct, decrementTtl]
  rw [handleNewMessage_checked n conn ct hm, hv,
    processMessage_subscription n (passedOn_asSubscription conn ct hm), hp,
    show (received conn ct hdr).destination = some dst from hd]

/-! ## Publications -/

theorem sendSingle_node (n : Node) (msg : Message) (c : ConnId) :
    (n.sendSingle msg c).node = n := by
  unfold sendSingle
  cases n.sendMsg msg c <;> rfl

theorem isSome_of_sendMsg {c : ConnId} (h : n.sendMsg msg c = .ok e) :
    (n.getConnection c).isSome := by
  unfold sendMsg at h
  split at h
  · cases h
  · rename_i hc
    rw [hc]
    rfl

theorem mem_sendSingle {c : ConnId} (h : e ∈ (n.sendSingle msg c).effects) :
    (∃ m, e = .send c m) ∧ (n.getConnection c).isSome := by
  unfold sendSingle at h
  cases hs : n.sendMsg msg c with
  | error err => simp [hs] at h
  | ok e' =>
    have ht : e ∈ n.trySend msg c := by
      simpa [trySend, hs] using h
    exact ⟨⟨_, mem_trySend ht⟩, isSome_of_sendMsg hs⟩

theorem mem_fanOut {cs : List ConnId} (h : e ∈ (n.fanOut msg cs).1) :
    ∃ c ∈ cs, ∃ m, e = .send c m := by
  induction cs with
  | nil => cases h
  | cons c cs ih =>
    have hsplit : e ∈ n.trySend msg c ∨ e ∈ (n.fanOut msg cs).1 := by
      unfold fanOut at h
      unfold trySend
      cases hs : n.sendMsg msg c <;> simpa [hs] using h
    cases hsplit with
    | inl ht => exact ⟨c, List.mem_cons_self, _, mem_trySend ht⟩
    | inr ht =>
      obtain ⟨c', hc', hm⟩ := ih ht
      exact ⟨c', List.mem_cons_of_mem _ hc', hm⟩

/-- Where a publication goes: to the connection its sender named, to matched ones, or for a local
sender to the gateway. Routes may be lost on the way; the links stay. -/
theorem matchAndForwardMsg_spec (n : Node) (hw : n.table.routing.Wf) (msg : Message)
    (hdr : SlimHeader) (e : EncodedName) (conn : ConnId) (filter : MatchFilter) (ct : ConnType) :
    SameLinks n (n.matchAndForwardMsg msg hdr e conn filter ct).node ∧
      n.table.Shrunk (· ∈ n.forwarder.connectionTable)
        (n.matchAndForwardMsg msg hdr e conn filter ct).node.table ∧
      ∀ eff ∈ (n.matchAndForwardMsg msg hdr e conn filter ct).effects, ∃ c m, eff = .send c m ∧
        (hdr.forwardTo = some c ∧ (n.getConnection c).isSome ∨
          c ∈ n.table.candidates e conn filter ∨ ct = .Local) := by
  obtain ⟨t, ht, hf, hm⟩ := n.forwarder.onPublishMsgMatch_spec hw e conn hdr.fanout filter
  have hfwd : SameLinks n { n with forwarder := { n.forwarder with subscriptionTable := t } } :=
    ⟨rfl, rfl, rfl, rfl, rfl⟩
  unfold matchAndForwardMsg
  cases hto : hdr.forwardTo with
  | some c =>
    rw [sendSingle_node]
    refine ⟨.refl n, .refl hw, fun eff heff => ?_⟩
    obtain ⟨⟨m, rfl⟩, hc⟩ := mem_sendSingle heff
    exact ⟨c, m, rfl, .inl ⟨rfl, hc⟩⟩
  | none =>
    rcases hr : n.forwarder.onPublishMsgMatch e conn hdr.fanout filter with ⟨r, fwd⟩
    rw [hr] at hf hm
    dsimp only at hf hm ⊢
    subst hf
    have hsent : ∀ {c : ConnId} {out : List ConnId}, r = .ok out → c ∈ out →
        none = some c ∧ (n.getConnection c).isSome ∨ c ∈ n.table.candidates e conn filter ∨
          ct = .Local :=
      fun ho hc => .inr (.inl ((hm _ ho).2 _ hc).2)
    split
    · rename_i c
      rw [sendSingle_node]
      refine ⟨hfwd, ht, fun eff heff => ?_⟩
      obtain ⟨⟨m, rfl⟩, -⟩ := mem_sendSingle heff
      exact ⟨c, m, rfl, hsent rfl List.mem_cons_self⟩
    · rename_i out _
      have hout :
          ∀ eff ∈ (fanOut { n with forwarder := { n.forwarder with subscriptionTable := t } }
          msg out).1, ∃ c m, eff = .send c m ∧
            (none = some c ∧ (n.getConnection c).isSome ∨ c ∈ n.table.candidates e conn filter ∨
              ct = .Local) := by
        intro eff heff
        obtain ⟨c, hc, m, rfl⟩ := mem_fanOut heff
        exact ⟨c, m, rfl, hsent rfl hc⟩
      split
      · split
        · exact ⟨hfwd, ht, hout⟩
        · exact ⟨hfwd, ht, hout⟩
      · exact ⟨hfwd, ht, hout⟩
    · split
      · split
        · rename_i c _ _
          rw [sendSingle_node]
          refine ⟨⟨rfl, rfl, rfl, rfl, rfl⟩, ht, fun eff heff => ?_⟩
          obtain ⟨⟨m, rfl⟩, -⟩ := mem_sendSingle heff
          exact ⟨c, m, rfl, .inr (.inr rfl)⟩
        · exact ⟨⟨rfl, rfl, rfl, rfl, rfl⟩, ht, fun _ h => (by cases h)⟩
      · exact ⟨hfwd, ht, fun _ h => (by cases h)⟩

theorem resolveAck_node (id : SubId) (r : Except DataPathError Unit) :
    ∃ acks, (p.resolveAck id r).2 = { p with pendingAcks := acks } := by
  unfold PeerSync.resolveAck
  split
  · exact ⟨_, rfl⟩
  · dsimp only
    split
    · exact ⟨_, rfl⟩
    · exact ⟨_, rfl⟩

theorem handleNewMessage_subscriptionAck (n : Node) (conn : ConnId) (ct : ConnType)
    (ack : SubscriptionAck) :
    n.handleNewMessage conn ct { messageType := some (.subscriptionAck ack) } =
      ⟨.ok (), { n with peerSync := (n.peerSync.resolveAck ack.subscriptionId
        (if ack.success then .ok () else .error (.RemoteSubscriptionAckError ack.error))).2 },
          []⟩ := by
  unfold handleNewMessage
  cases hct : ct.isLocal <;> rfl

theorem processMessage_other (n : Node) (hw : n.table.routing.Wf) (hm : msg.asSubscription = none)
    (conn : ConnId) (ct : ConnType) :
    SameLinks n (n.processMessage msg conn ct).node ∧
      n.table.Shrunk (· ∈ n.forwarder.connectionTable) (n.processMessage msg conn ct).node.table ∧
      OnlySends (n.processMessage msg conn ct).effects := by
  have hnil : OnlySends [] := fun _ h => (by cases h)
  unfold processMessage
  split
  · rename_i hmt
    simp [Message.asSubscription, hmt] at hm
  · rename_i hmt
    simp [Message.asSubscription, hmt] at hm
  · rename_i hdr _ _ _
    cases hdr.destination.bind ProtoName.name with
    | none => exact ⟨.refl n, .refl hw, hnil⟩
    | some e =>
      obtain ⟨hl, hs, hsent⟩ :=
        matchAndForwardMsg_spec n hw msg hdr e conn (n.publishFilter ct) ct
      refine ⟨hl, hs, fun eff heff => ?_⟩
      obtain ⟨c, m, heq, -⟩ := hsent eff heff
      exact ⟨c, m, heq⟩
  · exact ⟨.refl n, .refl hw, hnil⟩
  · rename_i ack _
    obtain ⟨acks, ha⟩ := resolveAck_node n.peerSync ack.subscriptionId
      (if ack.success then .ok () else .error (.RemoteSubscriptionAckError ack.error))
    dsimp only
    rw [ha]
    exact ⟨⟨rfl, rfl, rfl, rfl, rfl⟩, .refl hw, hnil⟩
  · exact ⟨.refl n, .refl hw, hnil⟩

theorem handleNewMessage_other_node (n : Node) (hw : n.table.routing.Wf) (conn : ConnId)
    (ct : ConnType) (hm : msg.asSubscription = none) :
    SameLinks n (n.handleNewMessage conn ct msg).node ∧
      n.table.Shrunk (· ∈ n.forwarder.connectionTable) (n.handleNewMessage conn ct msg).node.table ∧
      OnlySends (n.handleNewMessage conn ct msg).effects := by
  rcases handleNewMessage_cases n conn ct msg with ⟨hn, he, -⟩ | ⟨-, heq⟩
  · rw [hn, he]
    exact ⟨.refl n, .refl hw, fun _ h => (by cases h)⟩
  · rw [heq]
    apply processMessage_other n hw
    rw [asSubscription_passedOn, hm]
    rfl

/-- The task a subscription change of a local connection spawns. -/
def localTask (n : Node) (conn : ConnId) (hdr : SlimHeader) (dst : ProtoName) (subId : SubId)
    (add : Bool) : ForwardTask where
  msg := .subscription add (received conn .Local hdr) subId
  name := dst
  subId := subId
  add := add
  targets := ⟨some .All, none⟩
  inConnection := conn
  upstreamSubscriptionId := if subId ≠ 0 then some subId else none
  peerTtl := n.peerSync.subscriptionTtl

/-- The task that relays a peer's (un)subscription. -/
def relayTask (conn : ConnId) (hdr : SlimHeader) (dst : ProtoName) (subId : SubId) (add : Bool) :
    ForwardTask where
  msg := .subscription add (received conn .Peer hdr) subId
  name := dst
  subId := subId
  add := add
  targets := ⟨some (.ExcludeConn conn), none⟩
  inConnection := conn
  upstreamSubscriptionId := if subId ≠ 0 then some subId else none
  peerTtl := hdr.ttl - 1

/-- An accepted change on a local connection is forwarded when it is a transition. -/
theorem forwardSubscription_local (hc : c.connectionType = .Local) (hrun : n.running = true) :
    n.forwardSubscription (.subscription add (received conn .Local hdr) subId) dst
        (received conn .Local hdr).ttl subId conn conn c add ⟨transition, false, none⟩ =
      ⟨.ok (), n, (if transition && n.controlPlane then
          [.controlPlane (.subscription add (received conn .Local hdr) subId)] else []) ++
        if transition then [.spawn (n.localTask conn hdr dst subId add)]
        else n.ackIfAsked conn subId (.ok ())⟩ := by
  have hl : c.isLocalConnection = true := by simp [Connection.isLocalConnection, hc]
  cases transition with
  | false => simp [forwardSubscription, peerTarget, hasAny]
  | true => simp [forwardSubscription, peerTarget, hasAny, localTask, hrun, hl]

theorem mem_notified (he : e ∈ if b = true then [Effect.controlPlane msg] else []) :
    e = .controlPlane msg := by
  split at he
  · exact List.mem_singleton.mp he
  · cases he

theorem notified_no_spawn :
    ∀ e ∈ (if b = true then [Effect.controlPlane msg] else []), ∀ t, e ≠ .spawn t := by
  intro e he t ht
  rw [mem_notified he] at ht
  cases ht

/-- An accepted change on a peer connection is relayed while its TTL lasts. -/
theorem forwardSubscription_peer (hc : c.connectionType = .Peer) (hrun : n.running = true) :
    n.forwardSubscription (.subscription add (received conn .Peer hdr) subId) dst
        (received conn .Peer hdr).ttl subId conn conn c add ⟨transition, true, none⟩ =
      ⟨.ok (), n, if 2 ≤ hdr.ttl - 1 then [.spawn (relayTask conn hdr dst subId add)]
        else n.ackIfAsked conn subId (.ok ())⟩ := by
  have hl : c.isLocalConnection = false := by simp [Connection.isLocalConnection, hc]
  have ht : (received conn .Peer hdr).ttl = hdr.ttl - 1 := rfl
  by_cases h : 2 ≤ hdr.ttl - 1
  · simp [forwardSubscription, peerTarget, hasAny, relayTask, hrun, ht, h]
  · simp [forwardSubscription, peerTarget, hasAny, ht, h]

/-! ## Forwarding -/

/-- What a forwarding task sends to a peer. -/
def peerMsg (name : ProtoName) (subId : SubId) (add : Bool) (ttl : Nat) : Message :=
  .subscription add (SlimHeader.new name name "" { ttl }) subId

/-- The bookkeeping after a message about `subId` went to `k` peers. -/
def forwarded (p : PeerSync) (name : ProtoName) (subId : SubId) (add : Bool) (k : Nat) : PeerSync :=
  (if add then p.registerForwardedSub name subId else p.removeForwardedSub name subId).registerAck
    subId k

section
variable (subId add) (k : Nat)

@[simp] theorem forwarded_seenSubIds : (forwarded p name subId add k).seenSubIds =
      if add then Vec.pushNew p.seenSubIds subId else p.seenSubIds.filter (· ≠ subId) := by
  cases add <;> rfl

@[simp] theorem forwarded_peerConns : (forwarded p name subId add k).peerConns = p.peerConns := by
  cases add <;> rfl

@[simp] theorem forwarded_subscriptionTtl :
    (forwarded p name subId add k).subscriptionTtl = p.subscriptionTtl := by
  cases add <;> rfl

end

/-- **Forwarding to reachable peers**: the id is registered (or taken back), then each peer gets the
message; nothing else changes. -/
theorem startForward_up (ht : task.targets = ⟨some target, none⟩) (hne : n.targetConns target ≠ [])
    (hup : ∀ c ∈ n.targetConns target, n.Up c .Peer) :
    n.startForward task =
      ({ n with peerSync :=
          forwarded n.peerSync task.name task.subId task.add (n.targetConns target).length },
        (n.targetConns target).map fun c =>
          .send c (peerMsg task.name task.subId task.add task.peerTtl)) := by
  have hsend : ∀ m : Message, m.mapHeader clearFlags = m →
      ((n.targetConns target).flatMap fun c => n.trySend m c) =
        (n.targetConns target).map fun c => .send c m := fun m hm => by
    rw [List.map_eq_flatMap]
    refine List.flatMap_congr fun c hc => ?_
    simp [trySend, sendMsg_up (hup c hc), hm]
  have hemp : (n.targetConns target).isEmpty = false := by
    simpa using hne
  unfold startForward forwardToConn forwardToPeers
  rw [ht]
  cases hadd : task.add with
  | true =>
    have hs := hsend (buildSubscribeMsg task.name task.subId task.peerTtl) rfl
    simp only [hemp, hs, Bool.false_eq_true, ↓reduceIte, List.isEmpty_map, List.length_map,
      List.append_nil]
    rfl
  | false =>
    have hs := hsend (buildUnsubscribeMsg task.name task.subId task.peerTtl) rfl
    simp only [hemp, hs, Bool.false_eq_true, ↓reduceIte, List.isEmpty_map, List.length_map,
      List.append_nil]
    rfl

theorem startForward_none (ht : task.targets = ⟨some target, none⟩)
    (he : n.targetConns target = []) : n.startForward task = (n, []) := by
  unfold startForward forwardToConn forwardToPeers
  rw [ht]
  simp [he]

/-- A peer's subscription of a readable name: out of hops, already forwarded, or filed and relayed
while hops are left. -/
theorem handleNewMessage_peerMsg {ty : ConnId → ConnType} (hc : n.getConnection conn = some c)
    (hct : c.connectionType = .Peer) (hrun : n.running = true) (hi : n.table.Inv ty)
    (hty : ty conn = .Peer) {name : ProtoName} {e : EncodedName} (he : name.name = some e)
    (hs : name.strName.isSome) (hid : subId ≠ 0) (ttl : Nat) :
    ∃ es, AckTo conn es ∧
      if ttl - 1 = 0 then ∃ r, n.handleNewMessage conn .Peer
        (peerMsg name subId true ttl) = ⟨r, n, []⟩
      else if n.peerSync.hasSeenSubId subId = true then
        n.handleNewMessage conn .Peer (peerMsg name subId true ttl) = ⟨.ok (), n, es⟩
      else ∃ t first, SubscriptionTable.Added ty n.table t e conn subId first ∧
        n.handleNewMessage conn .Peer (peerMsg name subId true ttl) = ⟨.ok (), n.withTable t,
          if 2 ≤ ttl - 1 then
            [.spawn (relayTask conn (SlimHeader.new name name "" { ttl }) name subId true)]
          else es⟩ := by
  have hv : (SlimHeader.new name name "" { ttl }).validateRouted = .ok () :=
    validateRouted_eq_ok.mpr ⟨name, name, rfl, by simp [he], rfl, by simp [he]⟩
  have hmsg : n.handleNewMessage conn .Peer (peerMsg name subId true ttl) = _ :=
    handleNewMessage_subscription hv rfl
  by_cases ht : ttl - 1 = 0
  · rw [if_pos ⟨rfl, ht⟩] at hmsg
    exact ⟨[], by simp [AckTo], by rw [if_pos ht]; exact ⟨_, hmsg⟩⟩
  · rw [if_neg (fun h => ht h.2), processSubscription_at (f := none) hc (by rfl) (by rfl) (by rfl),
      hct] at hmsg
    simp only [if_neg ht]
    by_cases hseen : n.peerSync.hasSeenSubId subId = true
    · rw [if_pos ⟨rfl, hid, hseen⟩] at hmsg
      exact ⟨_, ackTo_ackIfAsked n conn subId (.ok ()), by rw [if_pos hseen]; exact hmsg⟩
    · rw [if_neg (fun h => hseen h.2.2)] at hmsg
      rcases hr : n.table.addSubscription name conn (ty conn) subId with ⟨r, t⟩
      rcases hi.add hr with ⟨m, -, -, hno⟩ | ⟨e', first, he', rfl, ha⟩
      · rw [(hno e he).1] at hs
        cases hs
      · obtain rfl : e = e' := Option.some.inj (he.symm.trans he')
        rw [hty] at hr
        rw [show tableStep n.table name conn .Peer true subId = (.ok first, t) from hr] at hmsg
        have hpc : c.isPeerConnection = true := by simp [Connection.isPeerConnection, hct]
        simp only [hpc] at hmsg
        rw [forwardSubscription_peer (n := n.withTable t) hct hrun] at hmsg
        refine ⟨_, ackTo_ackIfAsked (n.withTable t) conn subId (.ok ()), ?_⟩
        rw [if_neg hseen]
        exact ⟨t, first, ha, hmsg⟩

end Node

end Slim
