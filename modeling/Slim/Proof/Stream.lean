import Slim.Proof.Node

/-!
# What a stream does to its node

`receive_node`: a message changes the tables by at most one subscription operation, or takes routes
away (`Delivered`). `closeStream_spec`: the end of a stream drops its connection under the category
of the stream; what follows takes routes away and sends messages to peers.
-/

namespace Slim.Node

variable (n : Node) (name : ProtoName) (names : List ProtoName) (s : Node × List Effect)
  (subId : SubId) (add : Bool)

/-! ## Messages -/

/-- What a message on `conn` does to the tables. -/
inductive Delivered (n n' : Node) (conn : ConnId) (msg : Message) : Prop
  | shrunk (hl : SameLinks n n') (hs : n.table.Shrunk (· ∈ n.forwarder.connectionTable) n'.table)
  | filed {add : Bool} {hdr : SlimHeader} {subId : SubId} {dst : ProtoName} {c : Connection}
      (hm : msg.asSubscription = some (add, hdr, subId))
      (hf : Filed n n' conn add hdr subId dst c)

theorem handleNewMessage_node (hw : n.table.routing.Wf) (conn : ConnId) (ct : ConnType)
    (msg : Message) : Delivered n (n.handleNewMessage conn ct msg).node conn msg := by
  cases hm : msg.asSubscription with
  | none =>
    obtain ⟨hl, hs, -⟩ := handleNewMessage_other_node n hw conn ct hm
    exact .shrunk hl hs
  | some x =>
    rcases handleNewMessage_subscription_node n conn ct hm with hn | ⟨dst, c, hf⟩
    · rw [hn]
      exact .shrunk (.refl n) (.refl hw)
    · exact .filed hm hf

theorem receive_node (hw : n.table.routing.Wf) (st : Stream) (msg : Message) :
    Delivered n (n.receive st msg).node st.connIndex msg := by
  have h := handleNewMessage_node n hw st.connIndex st.category msg
  unfold receive
  split
  · exact .shrunk (.refl n) (.refl hw)
  · exact h

theorem receive_local {st : Stream} (hloc : st.isLocal = true) (msg : Message) :
    n.receive st msg =
      let out := n.handleNewMessage st.connIndex st.category msg
      ⟨out.result, out.node, out.effects ++ told st out⟩ := by
  have hc : n.copied st msg = .ok [] := by
    unfold copied
    simp [hloc]
  unfold receive
  rw [hc]
  rfl

/-! ## The end of a stream -/

theorem forwardToPeers_node
    (target : Option PeerTarget) (ttl : Nat) :
    (∃ p, (n.forwardToPeers name subId add target ttl).1 = { n with peerSync := p }) ∧
      OnlySends (n.forwardToPeers name subId add target ttl).2 := by
  have hsend : ∀ (msg : Message) (cs : List ConnId),
      OnlySends (cs.flatMap fun c => n.trySend msg c) := by
    intro msg cs e he
    obtain ⟨c, -, he⟩ := List.mem_flatMap.mp he
    exact ⟨c, _, mem_trySend he⟩
  unfold forwardToPeers
  cases target with
  | none => exact ⟨⟨_, rfl⟩, fun _ h => (by cases h)⟩
  | some target =>
    dsimp only
    split
    · exact ⟨⟨_, rfl⟩, fun _ h => (by cases h)⟩
    · exact ⟨⟨_, rfl⟩, hsend _ _⟩

theorem notifyPeersUnsubscribe_node :
    (∃ p, (n.notifyPeersUnsubscribe name).1 = { n with peerSync := p }) ∧
      OnlySends (n.notifyPeersUnsubscribe name).2 := by
  unfold notifyPeersUnsubscribe
  split
  · exact ⟨⟨_, rfl⟩, fun _ h => (by cases h)⟩
  · exact forwardToPeers_node ..

/-- `n'` is `n` with fewer routes and another peer state. -/
def Pruned (n n' : Node) : Prop :=
  ∃ t p, n.table.Shrunk (· ∈ n.forwarder.connectionTable) t ∧
    n' = { n.withTable t with peerSync := p }

theorem Pruned.refl {n : Node} (hw : n.table.routing.Wf) : Pruned n n := ⟨_, _, .refl hw, rfl⟩

theorem Pruned.trans {n n' n'' : Node} (h : Pruned n n') (h' : Pruned n' n'') : Pruned n n'' := by
  obtain ⟨t, p, hs, rfl⟩ := h
  obtain ⟨t', p', hs', rfl⟩ := h'
  exact ⟨t', p', hs.trans hs', rfl⟩

theorem Pruned.routing {n n' : Node} (h : Pruned n n') : n'.table.routing.Wf := by
  obtain ⟨t, p, hs, rfl⟩ := h
  exact hs.routing

theorem notifyIfUnreachable_node (hw : n.table.routing.Wf) (name : ProtoName) :
    Pruned n (n.notifyIfUnreachable name).1 ∧ OnlySends (n.notifyIfUnreachable name).2 := by
  unfold notifyIfUnreachable
  split
  · obtain ⟨⟨p, hp⟩, hs⟩ := notifyPeersUnsubscribe_node n name
    exact ⟨⟨n.table, p, .refl hw, hp⟩, hs⟩
  · rename_i enc _
    obtain ⟨t, ht, hf, -⟩ := n.forwarder.onPublishMsgMatch_spec hw enc
      (UInt64.ofNat (2 ^ 64 - 1)) (2 ^ 32 - 1) .ALL
    dsimp only
    rw [hf]
    split
    · exact ⟨⟨t, n.peerSync, ht, rfl⟩, fun _ h => (by cases h)⟩
    · obtain ⟨⟨p, hp⟩, hs⟩ := notifyPeersUnsubscribe_node (n.withTable t) name
      exact ⟨⟨t, p, ht, hp⟩, hs⟩

theorem foldl_notifyLost_node
    (hw : s.1.table.routing.Wf) (hs : OnlySends s.2) :
    Pruned s.1 (names.foldl notifyLost s).1 ∧ OnlySends (names.foldl notifyLost s).2 := by
  induction names generalizing s with
  | nil => exact ⟨.refl hw, hs⟩
  | cons name names ih =>
    obtain ⟨hp, hn⟩ := notifyIfUnreachable_node s.1 hw name
    obtain ⟨hp', hs'⟩ := ih (notifyLost s name) hp.routing (hs.append hn)
    exact ⟨hp.trans hp', hs'⟩

/-! ### What the cleanup does to the seen ids -/

/-- `p'` is `p` with at most the entry of `name` and some seen ids taken away. -/
structure Withdrawn (p p' : PeerSync) (name : ProtoName) : Prop where
  peerConns : p'.peerConns = p.peerConns
  seen : ∀ i ∈ p'.seenSubIds, i ∈ p.seenSubIds
  others : ∀ name', name' ≠ name →
    p'.forwardedSubForName.lookup name' = p.forwardedSubForName.lookup name'

theorem Withdrawn.refl (p : PeerSync) (name : ProtoName) : Withdrawn p p name :=
  ⟨rfl, fun _ h => h, fun _ _ => rfl⟩

theorem forwardToPeers_cases
    (target : PeerTarget) (ttl : Nat) :
    n.targetConns target = [] ∧ (n.forwardToPeers name subId add (some target) ttl).1 = n ∨
      n.targetConns target ≠ [] ∧
        ∃ acks, (n.forwardToPeers name subId add (some target) ttl).1 = { n with peerSync :=
          { (if add then n.peerSync.registerForwardedSub name subId
              else n.peerSync.removeForwardedSub name subId) with pendingAcks := acks } } := by
  unfold forwardToPeers
  dsimp only
  split
  · rename_i hempty
    exact .inl ⟨List.isEmpty_iff.mp hempty, rfl⟩
  · rename_i hne
    have hack : ∀ (p : PeerSync) (es : List Effect), ∃ acks,
        (if es.isEmpty then p else p.registerAck subId es.length) =
        { p with pendingAcks := acks } := by
      intro p es
      split
      · exact ⟨_, rfl⟩
      · exact ⟨_, rfl⟩
    refine .inr ⟨fun h => hne (by rw [h]; rfl), ?_⟩
    cases add with
    | true =>
      obtain ⟨acks, ha⟩ := hack (n.peerSync.registerForwardedSub name subId)
        ((n.targetConns target).flatMap fun c => n.trySend (buildSubscribeMsg name subId ttl) c)
      exact ⟨acks, congrArg (fun p => { n with peerSync := p }) ha⟩
    | false =>
      obtain ⟨acks, ha⟩ := hack (n.peerSync.removeForwardedSub name subId)
        ((n.targetConns target).flatMap fun c => n.trySend (buildUnsubscribeMsg name subId ttl) c)
      exact ⟨acks, congrArg (fun p => { n with peerSync := p }) ha⟩

theorem notifyPeersUnsubscribe_withdrawn :
    Withdrawn n.peerSync (n.notifyPeersUnsubscribe name).1.peerSync name ∧
      ∀ id, n.peerSync.forwardedSubForName.lookup name = some id → n.peerSync.peerConns ≠ [] →
        id ∉ (n.notifyPeersUnsubscribe name).1.peerSync.seenSubIds := by
  unfold notifyPeersUnsubscribe
  split
  · rename_i hl
    exact ⟨.refl _ _, fun id h => by rw [hl] at h; cases h⟩
  · rename_i subId hl
    rcases n.forwardToPeers_cases name subId false .All n.peerSync.subscriptionTtl with
      ⟨hempty, hn⟩ | ⟨-, acks, hn⟩
    · rw [hn]
      exact ⟨.refl _ _, fun _ _ hne => absurd hempty hne⟩
    · rw [hn]
      refine ⟨⟨rfl, fun i hi => (List.mem_filter.mp hi).1,
        fun name' hne => AList.lookup_erase_ne hne⟩, fun id hid _ hmem => ?_⟩
      rw [hl, Option.some.injEq] at hid
      have := (List.mem_filter.mp hmem).2
      simp [hid] at this

theorem notifyIfUnreachable_withdrawn (hw : n.table.routing.Wf) (name : ProtoName) :
    Withdrawn n.peerSync (n.notifyIfUnreachable name).1.peerSync name ∧
      ∀ id, n.peerSync.forwardedSubForName.lookup name = some id → n.peerSync.peerConns ≠ [] →
        (∀ e ∈ name.name, n.table.candidates e (UInt64.ofNat (2 ^ 64 - 1)) .ALL = []) →
        id ∉ (n.notifyIfUnreachable name).1.peerSync.seenSubIds := by
  unfold notifyIfUnreachable
  split
  · obtain ⟨h, hid⟩ := n.notifyPeersUnsubscribe_withdrawn name
    exact ⟨h, fun id hl hp _ => hid id hl hp⟩
  · rename_i e he
    obtain ⟨t, -, hf, hout⟩ := n.forwarder.onPublishMsgMatch_spec hw e
      (UInt64.ofNat (2 ^ 64 - 1)) (2 ^ 32 - 1) .ALL
    dsimp only
    rw [hf]
    split
    · rename_i out hr
      refine ⟨.refl _ _, fun id _ _ hno => ?_⟩
      obtain ⟨hne, hmem⟩ := hout out hr
      obtain ⟨c, hc⟩ := List.exists_mem_of_ne_nil _ hne
      have hcand := (hmem c hc).2
      rw [show n.forwarder.subscriptionTable.candidates e _ _ = [] from hno e he] at hcand
      cases hcand
    · obtain ⟨h, hid⟩ := (n.withTable t).notifyPeersUnsubscribe_withdrawn name
      exact ⟨h, fun id hl hp _ => hid id hl hp⟩

theorem foldl_notifyLost_seen
    (hw : s.1.table.routing.Wf) :
    ∀ i ∈ (names.foldl notifyLost s).1.peerSync.seenSubIds, i ∈ s.1.peerSync.seenSubIds := by
  induction names generalizing s with
  | nil => exact fun _ h => h
  | cons name names ih =>
    intro i hi
    obtain ⟨hp, -⟩ := notifyIfUnreachable_node s.1 hw name
    obtain ⟨h, -⟩ := notifyIfUnreachable_withdrawn s.1 hw name
    exact h.seen i (ih (notifyLost s name) hp.routing i hi)

/-- The id forwarded for a name that nothing matches is forgotten, if there is a peer to tell. -/
theorem foldl_notifyLost_forgets {names : List ProtoName} (hnd : names.Nodup)
    (s : Node × List Effect) (hw : s.1.table.routing.Wf) (hp : s.1.peerSync.peerConns ≠ [])
    {name : ProtoName} (hm : name ∈ names) {id : SubId}
    (hl : s.1.peerSync.forwardedSubForName.lookup name = some id)
    (hno : ∀ e ∈ name.name, s.1.table.candidates e (UInt64.ofNat (2 ^ 64 - 1)) .ALL = []) :
    id ∉ (names.foldl notifyLost s).1.peerSync.seenSubIds := by
  induction names generalizing s with
  | nil => cases hm
  | cons head names ih =>
    rw [List.nodup_cons] at hnd
    obtain ⟨hpr, -⟩ := notifyIfUnreachable_node s.1 hw head
    obtain ⟨h, hid⟩ := notifyIfUnreachable_withdrawn s.1 hw head
    rcases List.mem_cons.mp hm with rfl | hm
    · exact fun hmem => hid id hl hp hno
        (foldl_notifyLost_seen names (notifyLost s name) hpr.routing id hmem)
    · refine ih hnd.2 (notifyLost s head) hpr.routing (by rw [← h.peerConns] at hp; exact hp) hm ?_
        ?_
      · rw [← hl]
        exact h.others name fun heq => hnd.1 (heq ▸ hm)
      · -- the table has only lost routes of connections that are gone
        intro e he
        obtain ⟨t, p, hs, hn⟩ := hpr
        rw [List.eq_nil_iff_forall_not_mem]
        intro c hc
        have hc' : c ∈ s.1.table.candidates e (UInt64.ofNat (2 ^ 64 - 1)) .ALL := by
          refine hs.mem_candidates hw ?_
          rw [show (notifyLost s head).1 = (s.1.notifyIfUnreachable head).1 from rfl, hn] at hc
          exact hc
        rw [hno e he] at hc'
        cases hc'

section
variable (calculateHash : String → UInt64)

/-- The names the end of a stream reports as lost. -/
def lostNames (n : Node) (st : Stream) : List ProtoName :=
  (n.forwarder.onConnectionDrop calculateHash st.connIndex st.category).1.keys

/-- What the control plane is told at the end of a stream. -/
def lostNotices (n : Node) (st : Stream) : List Effect :=
  if !st.isLocal && st.notifies then
    (n.lostNames calculateHash st).map fun name => Effect.controlPlane
      (buildUnsubscribe name name "" { recvFrom := some st.connIndex } 0)
  else []

/-- The node once the connection has left the tables, before anyone is told. -/
def dropped (n : Node) (st : Stream) : Node :=
  { n with
    forwarder := (n.forwarder.onConnectionDrop calculateHash st.connIndex st.category).2
    remoteSync := (n.remoteSync.onConnectionDrop st.connIndex).2
    peerSync := if st.category = .Peer then n.peerSync.removePeerConn st.connIndex else n.peerSync }

structure Closed (n n' : Node) (st : Stream) : Prop where
  connectionTable : n'.forwarder.connectionTable = n.forwarder.connectionTable.erase st.connIndex
  table : (n.table.removeConnection calculateHash st.connIndex st.category).2.Shrunk
    (· ∈ n'.forwarder.connectionTable) n'.table
  controlPlane : n'.controlPlane = n.controlPlane

/-- **The end of a stream.** -/
theorem closeStream_spec (n : Node) (st : Stream)
    (hw : (n.table.removeConnection calculateHash st.connIndex st.category).2.routing.Wf) :
    Closed calculateHash n (n.closeStream calculateHash st).1 st ∧
      ∃ es, OnlySends es ∧
        (n.closeStream calculateHash st).2 = es ++ n.lostNotices calculateHash st := by
  unfold closeStream
  obtain ⟨⟨t, p, hs, hn⟩, hes⟩ := foldl_notifyLost_node (n.lostNames calculateHash st)
    (n.dropped calculateHash st, []) hw (fun _ h => (by cases h))
  unfold lostNames dropped at hn
  rw [hn]
  exact ⟨⟨rfl, hs, rfl⟩, _, hes, rfl⟩

/-- The cleanup after a peer's stream only takes ids out of the seen ones. -/
theorem closeStream_peer (n : Node) {st : Stream} (hst : st.category = .Peer)
    (hw : (n.table.removeConnection calculateHash st.connIndex st.category).2.routing.Wf) :
    (n.closeStream calculateHash st).1.running = n.running ∧
      ∀ i ∈ (n.closeStream calculateHash st).1.peerSync.seenSubIds, i ∈ n.peerSync.seenSubIds ∧
        ¬ ((n.peerSync.removePeerConn st.connIndex).peerConns ≠ [] ∧
          ∃ name ∈ n.lostNames calculateHash st, n.peerSync.forwardedSubForName.lookup name =
            some i ∧
            ∀ e ∈ name.name,
              (n.table.removeConnection calculateHash st.connIndex st.category).2.candidates
              e (UInt64.ofNat (2 ^ 64 - 1)) .ALL = []) := by
  have hp : (n.dropped calculateHash st).peerSync = n.peerSync.removePeerConn st.connIndex :=
    if_pos hst
  have hn : (n.closeStream calculateHash st).1 =
      ((n.lostNames calculateHash st).foldl notifyLost (n.dropped calculateHash st, [])).1 := rfl
  rw [hn]
  obtain ⟨⟨t, p, -, hpr⟩, -⟩ := foldl_notifyLost_node (n.lostNames calculateHash st)
    (n.dropped calculateHash st, []) hw (fun _ h => (by cases h))
  refine ⟨by rw [hpr]; rfl, fun i hi => ⟨?_, ?_⟩⟩
  · have := foldl_notifyLost_seen _ (n.dropped calculateHash st, []) hw i hi
    rw [hp] at this
    exact this
  · intro ⟨hne, name, hm, hl, hno⟩
    have hnd : (n.lostNames calculateHash st).Nodup := AList.keys_nodup _
    exact foldl_notifyLost_forgets hnd (n.dropped calculateHash st, []) hw (by rw [hp]; exact hne)
      hm (by rw [hp]; exact hl) hno hi

end

end Slim.Node
