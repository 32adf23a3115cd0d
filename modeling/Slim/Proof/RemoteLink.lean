import Slim.Proof.Lifecycle

/-!
# What a remote link can do to the tables

A message of a remote link is filed, and sent on, as its header says: `recv_from` names the
connection a record is filed under, `forward_to` the connection a publication leaves on, and nothing
clears the flags of a received message. `remote_link_own_routes`: as long as the flags of each
message name nothing they should not, the records of other connections stay and publications only go
to matched connections. `flags_reach_other_links` is what happens otherwise.
-/

namespace Slim

open SubscriptionTable

/-! ## The routing table of every run -/

namespace Node

theorem negotiateAndRegister_table (n : Node) (connection : Connection) (id : ConnId)
    (r : NegotiationResult) : (n.negotiateAndRegister connection id r).2.1.table = n.table := by
  have hset : ∀ (f : Forwarder) (ct : ConnType),
      (f.setConnectionType id ct).subscriptionTable = f.subscriptionTable := by
    intro f ct
    unfold Forwarder.setConnectionType
    split <;> rfl
  unfold negotiateAndRegister
  cases r.connectionType with
  | Peer =>
    unfold handlePeerUpgrade
    dsimp only
    split
    · rfl
    · split
      · rfl
      · exact hset _ _
  | Edge => exact hset _ _
  | Remote => rfl
  | Local => rfl

theorem routing_tableStep {t : SubscriptionTable} (h : t.routing.Wf) (dst : ProtoName)
    (conn : ConnId) (ct : ConnType) (add : Bool) (subId : SubId) :
    (tableStep t dst conn ct add subId).2.routing.Wf := by
  cases add with
  | true => exact routing_add h dst conn ct subId
  | false => exact routing_remove h dst conn ct subId

theorem Delivered.routing {n n' : Node} {conn : ConnId} {msg : Message}
    (h : Delivered n n' conn msg) (hw : n.table.routing.Wf) : n'.table.routing.Wf := by
  cases h with
  | shrunk hl hs => exact hs.routing
  | filed hm hf =>
    rw [hf.node]
    exact routing_tableStep hw _ _ _ _ _

end Node

namespace Lifecycle

theorem routing_step (calculateHash : String → UInt64) (s : Lifecycle) (a : Action)
    (h : s.node.table.routing.Wf) : (s.step calculateHash a).node.table.routing.Wf := by
  cases a with
  | establish id connection result =>
    unfold step
    dsimp only
    split
    · rw [Node.negotiateAndRegister_table]
      exact h
    · exact h
  | registerLocal id fromControlPlane =>
    unfold step
    dsimp only
    split
    · exact h
    · exact h
  | message id msg =>
    cases hst : s.streams.lookup id with
    | none => simpa only [step, hst] using h
    | some st =>
      simp only [step, hst]
      exact (s.node.receive_node h st msg).routing h
  | close id =>
    cases hst : s.streams.lookup id with
    | none => simpa only [step, hst] using h
    | some st =>
      simp only [step, hst]
      obtain ⟨hcl, -⟩ := s.node.closeStream_spec calculateHash st
        (routing_removeConnection calculateHash h _ _)
      exact hcl.table.routing
  | forwarding peerSync => exact h

/-- The routing table is well-formed in every state a node gets into. -/
theorem routing_wf (calculateHash : String → UInt64) (n : Node) (as : List Action) :
    (as.foldl (step calculateHash) (init n)).node.table.routing.Wf :=
  Run.invariant (I := fun s : Lifecycle => s.node.table.routing.Wf)
    (routing_step calculateHash) (s := init n) Routing.wf_empty as

end Lifecycle

/-! ## Messages of a link -/

namespace Node

variable {n : Node} {conn : ConnId} {ct : ConnType} {hdr : SlimHeader} {msg : Message}
  {session : Option SessionHeader} {payload : Option Content}

/-- The table as one message of `conn` leaves it. -/
def deliver (conn : ConnId) (ct : ConnType) (n : Node) (msg : Message) : Node :=
  (n.handleNewMessage conn ct msg).node

/-- `match_all` gives `c` for the destination of a publication. -/
def Matches (n : Node) (conn : ConnId) (ct : ConnType) (hdr : SlimHeader) (c : ConnId) : Prop :=
  ∃ e ∈ hdr.destination.bind ProtoName.name,
    match n.table.matchAll e conn (n.publishFilter ct) with
    | .ok out => c ∈ out
    | .error _ => False

instance (r : Except DataPathError (List ConnId)) (c : ConnId) : Decidable (match r with
    | .ok out => c ∈ out
    | .error _ => False) := by
  cases r <;> infer_instance

instance (n : Node) (conn : ConnId) (ct : ConnType) (hdr : SlimHeader) (c : ConnId) :
    Decidable (n.Matches conn ct hdr c) :=
  inferInstanceAs (Decidable (∃ e ∈ hdr.destination.bind ProtoName.name, _))

/-- The flags of a message name nothing but its own connection and matched ones: `recv_from` a
connection under which nothing is filed, `forward_to` one to which nothing is sent, are allowed. -/
def FlagsHarmless (conn : ConnId) (ct : ConnType) (n : Node) (msg : Message) : Prop :=
  match msg.messageType with
  | some (.subscribe (some hdr) _) | some (.unsubscribe (some hdr) _) =>
    ∀ r ∈ hdr.recvFrom, r = conn ∨ ∀ c ∈ n.getConnection r, c.isLocalConnection = true
  | some (.publish (some hdr) _ _) =>
    ∀ f ∈ hdr.forwardTo, n.getConnection f = none ∨ n.Matches conn ct hdr f
  | _ => True

/-- A publication is sent to matched connections only. -/
def SendsMatched (conn : ConnId) (ct : ConnType) (n : Node) (msg : Message) : Prop :=
  ∀ hdr session payload, msg.messageType = some (.publish (some hdr) session payload) →
    ∀ c m, Effect.send c m ∈ (n.handleNewMessage conn ct msg).effects → n.Matches conn ct hdr c

/-- The quantifier looks at the one connection of a flag, not at all ids. -/
instance decidableForallFlag (o : Option ConnId) (p : ConnId → Prop) [DecidablePred p] :
    Decidable (∀ c ∈ o, p c) :=
  match o with
  | none => .isTrue (by simp)
  | some c => decidable_of_iff (p c) (by simp)

instance (conn : ConnId) (ct : ConnType) (n : Node) (msg : Message) :
    Decidable (FlagsHarmless conn ct n msg) := by
  unfold FlagsHarmless
  split <;> infer_instance

theorem matches_of_candidate {c : ConnId} {e : EncodedName}
    (he : hdr.destination.bind ProtoName.name = some e)
    (hc : c ∈ n.table.candidates e conn (n.publishFilter ct)) : n.Matches conn ct hdr c := by
  refine ⟨e, he, ?_⟩
  rw [matchAll_eq, if_neg (List.ne_nil_of_mem hc)]
  exact hc

theorem FlagsHarmless.recvFrom (h : FlagsHarmless conn ct n msg) {add : Bool} {subId : SubId}
    (hm : msg.asSubscription = some (add, hdr, subId)) :
    ∀ r ∈ hdr.recvFrom, r = conn ∨ ∀ c ∈ n.getConnection r, c.isLocalConnection = true := by
  unfold Message.asSubscription at hm
  unfold FlagsHarmless at h
  split at hm
  · rename_i hmt
    cases hm
    simpa only [hmt] using h
  · rename_i hmt
    cases hm
    simpa only [hmt] using h
  · cases hm

theorem messageType_passedOn (h : msg.messageType = some (.publish (some hdr) session payload)) :
    (passedOn conn ct msg).messageType =
      some (.publish (some (received conn ct hdr)) session payload) := by
  cases hct : ct.isLocal <;>
    simp [passedOn, received, hct, Message.mapHeader, h, SlimHeader.decrementTtl]

theorem handleNewMessage_publish (hw : n.table.routing.Wf) (hct : ct ≠ .Local)
    (hm : msg.messageType = some (.publish (some hdr) session payload)) {c : ConnId} {m : Message}
    (hc : Effect.send c m ∈ (n.handleNewMessage conn ct msg).effects) :
    hdr.forwardTo = some c ∧ (n.getConnection c).isSome ∨ n.Matches conn ct hdr c := by
  rcases handleNewMessage_cases n conn ct msg with ⟨-, he, -⟩ | ⟨-, heq⟩
  · rw [he] at hc
    cases hc
  · rw [heq] at hc
    simp only [processMessage, messageType_passedOn hm] at hc
    cases hd : hdr.destination.bind ProtoName.name with
    | none =>
      simp [received, hd] at hc
    | some e =>
      simp only [received, hd] at hc
      obtain ⟨-, -, hsent⟩ := matchAndForwardMsg_spec n hw (passedOn conn ct msg)
        (received conn ct hdr) e conn (n.publishFilter ct) ct
      obtain ⟨c', m', heff, hto⟩ := hsent _ hc
      cases heff
      rcases hto with hto | hcand | hloc
      · exact .inl hto
      · exact .inr (matches_of_candidate hd hcand)
      · exact absurd hloc hct

theorem deliver_own (hw : n.table.routing.Wf) (hct : ct ≠ .Local)
    (h : FlagsHarmless conn ct n msg) : SendsMatched conn ct n msg ∧ ∀ k, k.connId ≠ conn →
      (deliver conn ct n msg).table.state.subscriptions.lookup k =
        n.table.state.subscriptions.lookup k := by
  refine ⟨fun hdr session payload hm c m hc => ?_, fun k hk => ?_⟩
  · rcases handleNewMessage_publish hw hct hm hc with ⟨hto, hsome⟩ | hmatch
    · unfold FlagsHarmless at h
      simp only [hm] at h
      rcases h c hto with hnone | hmatch
      · rw [hnone] at hsome
        cases hsome
      · exact hmatch
    · exact hmatch
  · unfold deliver
    cases n.handleNewMessage_node hw conn ct msg with
    | shrunk hl hs => rw [hs.state]
    | @filed add hdr subId dst c hm hf =>
      have hown : hdr.recvFrom.getD conn = conn := by
        cases hr : hdr.recvFrom with
        | none => rfl
        | some r =>
          have hloc := hf.notLocal
          have hconn := hf.connection
          rw [hr] at hloc hconn
          rcases h.recvFrom hm r hr with hrc | hlocal
          · exact hrc
          · rw [hlocal c hconn] at hloc
            cases hloc rfl
      rw [hf.node, hown]
      apply lookup_tableStep
      intro e he hke
      exact hk (by rw [hke])

theorem deliver_run (hw : n.table.routing.Wf) (hct : ct ≠ .Local) (msgs : List Message)
    (h : Run.Meets (deliver conn ct) (FlagsHarmless conn ct) n msgs) :
    Run.Meets (deliver conn ct) (SendsMatched conn ct) n msgs ∧ ∀ k, k.connId ≠ conn →
      (msgs.foldl (deliver conn ct) n).table.state.subscriptions.lookup k =
        n.table.state.subscriptions.lookup k := by
  induction msgs generalizing n with
  | nil => exact ⟨trivial, fun k hk => rfl⟩
  | cons msg msgs ih =>
    obtain ⟨hsends, hkeep⟩ := deliver_own hw hct h.1
    have hw' : (deliver conn ct n msg).table.routing.Wf :=
      (n.handleNewMessage_node hw conn ct msg).routing hw
    obtain ⟨hsends', hkeep'⟩ := ih hw' h.2
    exact ⟨⟨hsends, hsends'⟩, fun k hk => (hkeep' k hk).trans (hkeep k hk)⟩

def IsLocal (n : Node) (id : ConnId) : Prop :=
  ∃ c, n.getConnection id = some c ∧ c.isLocalConnection = true

theorem deliver_local {id : ConnId} (hw : n.table.routing.Wf) (hloc : n.IsLocal id)
    (hne : conn ≠ id)
    (ct : ConnType) (msg : Message) : (deliver conn ct n msg).IsLocal id ∧ ∀ k, k.connId = id →
      (deliver conn ct n msg).table.state.subscriptions.lookup k =
        n.table.state.subscriptions.lookup k := by
  unfold deliver
  cases n.handleNewMessage_node hw conn ct msg with
  | shrunk hl hs => exact ⟨by rwa [IsLocal, hl.getConnection], fun k _ => by rw [hs.state]⟩
  | @filed add hdr subId dst c hm hf =>
    rw [hf.node]
    refine ⟨hloc, fun k hk => lookup_tableStep _ _ _ _ _ _ fun e _ hke => ?_⟩
    -- a connection that the flag names is not local
    have hid : hdr.recvFrom.getD conn = id := by rw [← hk, hke]
    cases hr : hdr.recvFrom with
    | none => exact hne (by rw [← hid, hr]; rfl)
    | some r =>
      obtain ⟨c', hc', hlocal⟩ := hloc
      have hconn := hf.connection
      rw [hid, hc'] at hconn
      cases hconn
      rw [hf.notLocal (by rw [hr]; rfl)] at hlocal
      cases hlocal

end Node

namespace Lifecycle

/-- **A remote link keeps to its own routes**: from every state a node gets into, whatever messages
with harmless flags a connection that is not local sends. -/
theorem remote_link_own_routes (calculateHash : String → UInt64) (n : Node) (as : List Action)
    (conn : ConnId) (ct : ConnType) (hct : ct ≠ .Local) (msgs : List Message)
    (h : Run.Meets (Node.deliver conn ct) (Node.FlagsHarmless conn ct)
      (as.foldl (step calculateHash) (init n)).node msgs) :
    Run.Meets (Node.deliver conn ct) (Node.SendsMatched conn ct)
        (as.foldl (step calculateHash) (init n)).node msgs ∧
      ∀ k, k.connId ≠ conn →
        (msgs.foldl (Node.deliver conn ct)
            (as.foldl (step calculateHash) (init n)).node).table.state.subscriptions.lookup k =
          (as.foldl (step calculateHash) (init n)).node.table.state.subscriptions.lookup k :=
  Node.deliver_run (routing_wf calculateHash n as) hct msgs h

/-- Two remote links, 4 and 5; the second has a subscription. -/
def twoLinks : List Action :=
  [.establish 4 { connectionType := .Remote } ⟨.Remote, "n2", ""⟩,
    .establish 5 { connectionType := .Remote } ⟨.Remote, "n3", ""⟩,
    .message 5 (buildSubscribe sampleName sampleName "" {} 7)]

def otherName : ProtoName where
  name := some ⟨8, 8, 8, none⟩
  strName := some ⟨"org", "ns", "other"⟩

def samplePublish (destination : ProtoName) (flags : SlimHeaderFlags) : Message where
  messageType := some (.publish (some (SlimHeader.new sampleName destination "" flags))
    (some ⟨0, 0, 0, 0⟩) none)

/-- Link 4 subscribes, publishes to the name of link 5 and unsubscribes under its own id. -/
def plainMsgs : List Message :=
  [buildSubscribe sampleName otherName "" {} 1, samplePublish sampleName { forwardTo := some 5 },
    buildUnsubscribe sampleName otherName "" { recvFrom := some 4 } 1]

theorem remote_link_own_routes_plain :
    Run.Meets (Node.deliver 4 .Remote) (Node.FlagsHarmless 4 .Remote)
        (twoLinks.foldl (step fun _ => 0) (init {})).node plainMsgs ∧
      Run.Meets (Node.deliver 4 .Remote) (Node.SendsMatched 4 .Remote)
        (twoLinks.foldl (step fun _ => 0) (init {})).node plainMsgs := by
  have h : Run.Meets (Node.deliver 4 .Remote) (Node.FlagsHarmless 4 .Remote)
      (twoLinks.foldl (step fun _ => 0) (init {})).node plainMsgs := by decide +kernel
  exact ⟨h, (remote_link_own_routes (fun _ => 0) {} twoLinks 4 .Remote (by decide) plainMsgs h).1⟩

/-- Link 4 unsubscribes for link 5 with `recv_from`, and has a publication sent to link 5, which did
not ask for it, with `forward_to`. -/
theorem flags_reach_other_links :
    (¬ ∀ (calculateHash : String → UInt64) (n : Node) (as : List Action) (conn : ConnId)
        (st : Stream), (as.foldl (step calculateHash) (init n)).streams.lookup conn = some st →
      st.category ≠ .Local → ∀ (msgs : List Message) (k : SubKey), k.connId ≠ conn →
        (msgs.foldl (Node.deliver conn st.category)
            (as.foldl (step calculateHash) (init n)).node).table.state.subscriptions.lookup k =
          (as.foldl (step calculateHash) (init n)).node.table.state.subscriptions.lookup k) ∧
    ¬ ∀ (calculateHash : String → UInt64) (n : Node) (as : List Action) (conn : ConnId)
        (st : Stream), (as.foldl (step calculateHash) (init n)).streams.lookup conn = some st →
      st.category ≠ .Local → ∀ msgs : List Message,
        Run.Meets (Node.deliver conn st.category) (Node.SendsMatched conn st.category)
          (as.foldl (step calculateHash) (init n)).node msgs := by
  have hst : (twoLinks.foldl (step fun _ => 0) (init {})).streams.lookup 4 =
      some ⟨4, .Remote, false, false, false⟩ := by decide +kernel
  refine ⟨fun h => ?_, fun h => ?_⟩
  · have hkept := h (fun _ => 0) {} twoLinks 4 _ hst (by decide)
      [buildUnsubscribe sampleName sampleName "" { recvFrom := some 5 } 7]
      ⟨5, 7, ⟨1, 2, 3, some ⟨0, 5⟩⟩⟩ (by decide)
    revert hkept
    decide +kernel
  · have hmatched := (h (fun _ => 0) {} twoLinks 4 _ hst (by decide)
      [samplePublish otherName { forwardTo := some 5 }]).1 _ _ _ rfl 5
      (samplePublish otherName { ttl := DEFAULT_TTL - 1, incomingConn := some 4 })
      (by decide +kernel)
    revert hmatched
    decide +kernel

/-- **Applications keep their records**: from every state a node gets into, whatever other
connections send, with whatever flags. -/
theorem local_records_kept (calculateHash : String → UInt64) (n : Node) (as : List Action)
    (id : ConnId) :
    let node := (as.foldl (step calculateHash) (init n)).node
    node.IsLocal id → ∀ msgs : List (ConnId × ConnType × Message), (∀ m ∈ msgs, m.1 ≠ id) →
      ∀ k : SubKey, k.connId = id →
        (msgs.foldl (fun n m => n.deliver m.1 m.2.1 m.2.2) node).table.state.subscriptions.lookup
          k = node.table.state.subscriptions.lookup k := by
  intro node hloc msgs hother k hk
  have hw : node.table.routing.Wf := routing_wf calculateHash n as
  clear_value node
  induction msgs generalizing node with
  | nil => rfl
  | cons m msgs ih =>
    obtain ⟨hloc', hkeep⟩ := Node.deliver_local hw hloc (hother m List.mem_cons_self) m.2.1 m.2.2
    rw [List.foldl_cons, ih _ hloc' (fun m hm => hother m (List.mem_cons_of_mem _ hm))
      ((node.handleNewMessage_node hw m.1 m.2.1 m.2.2).routing hw), hkeep k hk]

/-- An application with a subscription, and then two remote links. -/
def appAndLinks : List Action :=
  .registerLocal 1 false :: .message 1 (buildSubscribe sampleName sampleName "" {} 7) :: twoLinks

theorem local_records_kept_flags : ∃ r,
    ([(4, .Remote, buildUnsubscribe sampleName sampleName "" { recvFrom := some 1 } 7)].foldl
      (fun n m => n.deliver m.1 m.2.1 m.2.2) (appAndLinks.foldl (step fun _ => 0)
        (init {})).node).table.state.subscriptions.lookup ⟨1, 7, ⟨1, 2, 3, some ⟨0, 5⟩⟩⟩ =
          some r := by
  rw [local_records_kept (fun _ => 0) {} appAndLinks 1 ⟨_, rfl, rfl⟩ _ (by decide) _ rfl]
  exact ⟨_, rfl⟩

end Lifecycle

end Slim
