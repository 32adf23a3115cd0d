import Slim.Network.Relay

/-!
# Peers that come back

The invariant (`Inv`) says that no id that is to be sent again is seen, and that what was sent again
is routed. A drop keeps it if the cleanup forgets the ids that were seen (`closeStream_forgets`), a
forwarding step if it does not bring one of them up; `routed_again` is the result over whole runs.

`seen_id_stays` is what happens otherwise: the cleanup leaves the id of a name that another
connection still serves, and the peer's subscription is taken for one that has come around in a
loop.
-/

namespace Slim

open Function SubscriptionTable

namespace Node

/-- The type of a connection, and that of peers where there is none. -/
def peerType (n : Node) (c : ConnId) : ConnType :=
  ((n.getConnection c).map Connection.connectionType).getD .Peer

/-- A forwarding task concerns the peer state only, and brings up its own id at most. -/
theorem startForward_frame (n : Node) (task : ForwardTask) :
    (n.startForward task).1.forwarder = n.forwarder ∧
      (n.startForward task).1.running = n.running ∧
      ∀ i ∈ (n.startForward task).1.peerSync.seenSubIds,
        i ∈ n.peerSync.seenSubIds ∨ task.add = true ∧ i = task.subId := by
  have hconn : ∀ n' : Node, (n'.forwardToConn task).1.forwarder = n'.forwarder ∧
      (n'.forwardToConn task).1.running = n'.running ∧
      (n'.forwardToConn task).1.peerSync.seenSubIds = n'.peerSync.seenSubIds := by
    intro n'
    unfold forwardToConn
    split
    · split
      · exact ⟨rfl, rfl, rfl⟩
      · exact ⟨rfl, rfl, rfl⟩
    · exact ⟨rfl, rfl, rfl⟩
  obtain ⟨hf, hr, hs⟩ := hconn
    (n.forwardToPeers task.name task.subId task.add task.targets.peers task.peerTtl).1
  have hn : (n.startForward task).1 = ((n.forwardToPeers task.name task.subId task.add
    task.targets.peers task.peerTtl).1.forwardToConn task).1 := rfl
  rw [hn, hf, hr, hs]
  cases htgt : task.targets.peers with
  | none => exact ⟨rfl, rfl, fun i hi => .inl hi⟩
  | some target =>
    rcases n.forwardToPeers_cases task.name task.subId task.add target task.peerTtl with
      ⟨-, hp⟩ | ⟨-, acks, hp⟩
    · rw [hp]
      exact ⟨rfl, rfl, fun i hi => .inl hi⟩
    · rw [hp]
      refine ⟨rfl, rfl, fun i hi => ?_⟩
      cases hadd : task.add with
      | true =>
        simp only [hadd, if_true, PeerSync.registerForwardedSub, Vec.mem_pushNew] at hi
        rcases hi with hi | hi
        · exact .inl hi
        · exact .inr ⟨rfl, hi⟩
      | false =>
        simp only [hadd] at hi
        exact .inl (List.mem_filter.mp hi).1

theorem mem_seen_foldl (xs : List (ProtoName × SubId)) (p : PeerSync) (i : SubId)
    (hi : i ∈ (xs.foldl (fun p x => p.registerForwardedSub x.1 x.2) p).seenSubIds) :
    i ∈ p.seenSubIds ∨ ∃ x ∈ xs, i = x.2 := by
  induction xs generalizing p with
  | nil => exact .inl hi
  | cons x xs ih =>
    rcases ih _ hi with hi | ⟨y, hy, rfl⟩
    · rcases Vec.mem_pushNew.mp hi with hi | hi
      · exact .inl hi
      · exact .inr ⟨x, List.mem_cons_self, hi⟩
    · exact .inr ⟨y, List.mem_cons_of_mem _ hy, rfl⟩

theorem fullSync_frame (n : Node) (conn : ConnId) (subscriptions : List (ProtoName × SubId)) :
    (n.fullSync conn subscriptions).forwarder = n.forwarder ∧
      (n.fullSync conn subscriptions).running = n.running ∧
      ∀ i ∈ (n.fullSync conn subscriptions).peerSync.seenSubIds,
        i ∈ n.peerSync.seenSubIds ∨ ∃ x ∈ subscriptions, i = x.2 := by
  unfold fullSync
  split
  · exact ⟨rfl, rfl, mem_seen_foldl subscriptions n.peerSync⟩
  · exact ⟨rfl, rfl, fun i hi => .inl hi⟩

end Node

namespace Relay

variable {P : Type} [DecidableEq P] {s : Relay P} {ty : ConnId → ConnType}
  {calculateHash : String → UInt64}

structure Inv (ty : ConnId → ConnType) (s : Relay P) : Prop where
  table : s.node.table.Inv ty
  running : s.node.running = true
  free : ∀ c, c ∉ s.node.forwarder.connectionTable → ty c = .Peer
  type : ∀ p c, s.link p = some c → ty c = .Peer
  conn : ∀ p c, s.link p = some c →
    ∃ k, s.node.getConnection c = some k ∧ k.connectionType = .Peer
  inj : ∀ p q c, s.link p = some c → s.link q = some c → p = q
  unseen : ∀ x ∈ s.pending, x.2.id ∉ s.node.peerSync.seenSubIds
  linked : ∀ x ∈ s.resent, s.link x.1 ≠ none
  routed : s.RoutedAgain

omit [DecidableEq P] in
theorem Inv.mem_table (h : Inv ty s) {p : P} {c : ConnId} (hl : s.link p = some c) :
    c ∈ s.node.forwarder.connectionTable := by
  obtain ⟨k, hk, -⟩ := h.conn p c hl
  exact AList.lookup_isSome.mp (by
    rw [show s.node.forwarder.connectionTable.lookup c = some k from hk]
    rfl)

omit [DecidableEq P] in
theorem Inv.sameTables (h : Inv ty s) (node : Node) (hf : node.forwarder = s.node.forwarder)
    (hr : node.running = s.node.running)
    (hu : ∀ x ∈ s.pending, x.2.id ∉ node.peerSync.seenSubIds) (tasks : List ForwardTask)
    (syncs : List ConnId) : Inv ty { s with node := node, tasks := tasks, syncs := syncs } where
  table := (by
    unfold Node.table
    rw [hf]
    exact h.table)
  running := hr.trans h.running
  free := (by
    rw [hf]
    exact h.free)
  type := h.type
  conn := (by
    unfold Node.getConnection
    rw [hf]
    exact h.conn)
  inj := h.inj
  unseen := hu
  linked := h.linked
  routed := (by
    unfold RoutedAgain Node.table
    rw [hf]
    exact h.routed)

theorem Inv.connect (h : Inv ty s) {p : P} {id : ConnId} (connection : Connection)
    {result : NegotiationResult} (hp : s.link p = none)
    (hid : id ∉ s.node.forwarder.connectionTable) (hres : result.connectionType = .Peer)
    (hacc : s.node.AcceptsPeer result) :
    Inv ty { s with
      node := (s.node.negotiateAndRegister connection id result).2.1
      link := update s.link p (some id)
      syncs := s.syncs ++ [id] } := by
  obtain ⟨-, hreg⟩ := s.node.negotiateAndRegister_spec (.inr (.inl ⟨hres, hacc⟩)) id
  rw [hres] at hreg
  obtain ⟨hrun, hseen⟩ : (s.node.negotiateAndRegister connection id result).2.1.running =
      s.node.running ∧ (s.node.negotiateAndRegister connection id result).2.1.peerSync.seenSubIds =
      s.node.peerSync.seenSubIds := by
    unfold Node.negotiateAndRegister Node.handlePeerUpgrade
    rw [hres]
    dsimp only
    split
    · exact ⟨rfl, rfl⟩
    · split
      · exact ⟨rfl, rfl⟩
      · exact ⟨rfl, rfl⟩
  obtain ⟨hnew, hold⟩ := hreg.getConnection
  obtain ⟨k, -, htable⟩ := hreg.connections
  have hne : ∀ q c, s.link q = some c → c ≠ id := fun q c hl heq => hid (heq ▸ h.mem_table hl)
  have hlink : ∀ q c, update s.link p (some id) q = some c →
      q = p ∧ c = id ∨ q ≠ p ∧ s.link q = some c := by
    intro q c hl
    by_cases hq : q = p
    · subst hq
      rw [update_self, Option.some.injEq] at hl
      exact .inl ⟨rfl, hl.symm⟩
    · rw [update_of_ne hq] at hl
      exact .inr ⟨hq, hl⟩
  exact {
    table := by
      rw [hreg.table]
      exact h.table
    running := hrun.trans h.running
    free := fun c hc => by
      rw [htable, AList.mem_insert, not_or] at hc
      exact h.free c hc.2
    type := fun q c hl => by
      rcases hlink q c hl with ⟨-, rfl⟩ | ⟨-, hl⟩
      · exact h.free c hid
      · exact h.type q c hl
    conn := fun q c hl => by
      rcases hlink q c hl with ⟨-, rfl⟩ | ⟨-, hl⟩
      · exact hnew
      · rw [hold c (hne q c hl)]
        exact h.conn q c hl
    inj := fun q r c hq hr => by
      rcases hlink q c hq with ⟨hqp, hc⟩ | ⟨-, hq'⟩
      · rcases hlink r c hr with ⟨hrp, -⟩ | ⟨-, hr'⟩
        · exact hqp.trans hrp.symm
        · exact absurd hc (hne r c hr')
      · rcases hlink r c hr with ⟨-, hc⟩ | ⟨-, hr'⟩
        · exact absurd hc (hne q c hq')
        · exact h.inj q r c hq' hr'
    unseen := by
      rw [hseen]
      exact h.unseen
    linked := fun x hx => by
      have hq : x.1 ≠ p := fun hq => h.linked x hx (hq ▸ hp)
      simp only [update_of_ne hq]
      exact h.linked x hx
    routed := fun q sub hx c hl => by
      rw [hreg.table]
      rcases hlink q c hl with ⟨hq, -⟩ | ⟨-, hl⟩
      · exact absurd (hq ▸ hp) (h.linked _ hx)
      · exact h.routed q sub hx c hl }

omit [DecidableEq P] in
/-- A subscription is filed: its name is routed to the link. -/
theorem Inv.filed (h : Inv ty s) {p : P} {c : ConnId} (hl : s.link p = some c) {sub : PeerSub}
    {e : EncodedName} (he : sub.name.name = some e) {t : SubscriptionTable} {first : Bool}
    (hadd : Added ty s.node.table t e c sub.id first) (tasks : List ForwardTask)
    (subs : List (P × PeerSub)) {pending resent : List (P × PeerSub)}
    (hpend : ∀ x ∈ pending, x ∈ s.pending) (hres : ∀ x ∈ resent, x ∈ s.resent ∨ x = (p, sub)) :
    Inv ty { s with node := s.node.withTable t, tasks, subs, pending, resent } where
  table := hadd.inv
  running := h.running
  free := h.free
  type := h.type
  conn := h.conn
  inj := h.inj
  unseen := fun x hx => h.unseen x (hpend x hx)
  linked := fun x hx => by
    rcases hres x hx with hx | rfl
    · exact h.linked x hx
    · simp [hl]
  routed := fun q sub' hx c' hl' => by
    rcases hres _ hx with hx | hx
    · obtain ⟨e', he', hlist⟩ := h.routed q sub' hx c' hl'
      exact ⟨e', he', (hadd.lists _ _ _).mpr (.inl hlist)⟩
    · cases hx
      have hc : c' = c := Option.some.inj (hl'.symm.trans hl)
      exact ⟨e, he, (hadd.lists _ _ _).mpr (.inr ⟨rfl, (h.type p c hl).symm, hc⟩)⟩

/-- A subscription that is read: filed unless its id is seen. -/
theorem Inv.subscribe (h : Inv ty s) {p : P} {c : ConnId} (hl : s.link p = some c) (sub : PeerSub)
    (ttl : Nat) : Inv ty (s.step calculateHash (.subscribe p sub ttl)) := by
  obtain ⟨e, he⟩ := Option.isSome_iff_exists.mp sub.encoded
  obtain ⟨k, hk, hkt⟩ := h.conn p c hl
  obtain ⟨es, -, hcase⟩ := Node.handleNewMessage_peerMsg hk hkt h.running h.table (h.type p c hl) he
    sub.readable sub.id_ne ttl
  have hmsg : Node.peerMsg sub.name sub.id true ttl = buildSubscribeMsg sub.name sub.id ttl := rfl
  rw [hmsg] at hcase
  unfold Relay.step
  simp only [hl]
  by_cases ht : ttl < 2
  · rw [if_pos (by omega)] at hcase
    obtain ⟨r, hr⟩ := hcase
    rw [hr, if_pos ht]
    exact h.sameTables _ rfl rfl h.unseen _ _
  · rw [if_neg (by omega)] at hcase
    rw [if_neg ht]
    by_cases hseen : s.node.peerSync.hasSeenSubId sub.id = true
    · -- no pending subscription has an id that is seen
      have hpend : (p, sub) ∉ s.pending := fun hp => h.unseen _ hp (by
        simpa [PeerSync.hasSeenSubId] using hseen)
      rw [if_pos hseen] at hcase
      rw [hcase, if_pos hseen, if_neg hpend]
      exact h.sameTables _ rfl rfl h.unseen _ _
    · rw [if_neg hseen] at hcase
      obtain ⟨t, first, hadd, hr⟩ := hcase
      rw [hr]
      split
      · refine h.filed hl he hadd _ _ (fun x hx => (List.mem_filter.mp hx).1) fun x hx => ?_
        simpa using hx
      · exact h.filed hl he hadd _ _ (fun x hx => hx) fun x hx => .inl hx

omit [DecidableEq P] in
theorem Inv.closeStream_forgets (h : Inv ty s) (calculateHash : String → UInt64) {p : P}
    {c : ConnId} (hl : s.link p = some c) :
    let n' := (s.node.closeStream calculateHash (stream s.node c)).1
    n'.table.Inv ty ∧ n'.running = true ∧
      n'.forwarder.connectionTable = s.node.forwarder.connectionTable.erase c ∧
      (∀ q ct c', c' ≠ c → c' ∈ s.node.forwarder.connectionTable →
        s.node.table.routing.Lists q ct c' → n'.table.routing.Lists q ct c') ∧
      ∀ i ∈ n'.peerSync.seenSubIds, i ∈ s.node.peerSync.seenSubIds ∧
        ¬ s.node.Forgets calculateHash (stream s.node c) i := by
  have hty : (stream s.node c).category = ty c := (h.type p c hl).symm
  have hrem : ∃ t, (s.node.table.removeConnection calculateHash c (ty c)).2 = t ∧ t.Inv ty ∧
      ∀ q ct c', c' ≠ c → s.node.table.routing.Lists q ct c' → t.routing.Lists q ct c' := by
    rcases hr : s.node.table.removeConnection calculateHash c (ty c) with ⟨res, t⟩
    refine ⟨t, rfl, ?_⟩
    rcases h.table.removeConnection hr with ⟨-, rfl, -⟩ | ⟨lost, -, hd⟩
    · exact ⟨h.table, fun q ct c' _ hc => hc⟩
    · exact ⟨hd.inv h.table, fun q ct c' hne hc => (hd.lists q ct c').mpr ⟨hc, fun hx => hne hx.2⟩⟩
  obtain ⟨t, ht, hti, htl⟩ := hrem
  have hw : (s.node.table.removeConnection calculateHash (stream s.node c).connIndex
      (stream s.node c).category).2 = t := by
    rw [hty]
    exact ht
  obtain ⟨hcl, -⟩ := s.node.closeStream_spec calculateHash (stream s.node c)
    (by rw [hw]; exact hti.routing)
  obtain ⟨hrun, hseen⟩ :=
    s.node.closeStream_peer calculateHash (rfl : (stream s.node c).category = _)
    (by rw [hw]; exact hti.routing)
  have hshr := hcl.table
  rw [hw] at hshr hseen
  refine ⟨hshr.inv hti, hrun.trans h.running, hcl.connectionTable, fun q ct c' hne hmem hc => ?_,
    fun i hi => ⟨(hseen i hi).1, fun hf => (hseen i hi).2 ?_⟩⟩
  · refine hshr.kept q ct c' (htl q ct c' hne hc) ?_
    rw [hcl.connectionTable, AList.mem_erase]
    exact ⟨hne, hmem⟩
  · obtain ⟨hp, name, hm, hname, hno⟩ := hf
    refine ⟨hp, name, hm, hname, fun e he => ?_⟩
    have hmatch := hno e he
    have htable : (s.node.forwarder.onConnectionDrop calculateHash (stream s.node c).connIndex
        (stream s.node c).category).2.subscriptionTable = t := hw
    rw [htable, matchAll_eq] at hmatch
    by_contra hne
    rw [if_neg hne] at hmatch
    cases hmatch

theorem Inv.drop (h : Inv ty s) {p : P} {c : ConnId} (hl : s.link p = some c)
    (hf : ∀ x ∈ s.subs, x.1 = p → s.node.peerSync.hasSeenSubId x.2.id = true →
      s.node.Forgets calculateHash (stream s.node c) x.2.id) :
    Inv ty (s.step calculateHash (.drop p)) := by
  obtain ⟨htable, hrun, hconns, hlists, hseen⟩ := h.closeStream_forgets calculateHash hl
  unfold Relay.step
  simp only [hl]
  have hlink : ∀ q c', update s.link p none q = some c' → q ≠ p ∧ s.link q = some c' := by
    intro q c' hq
    by_cases hqp : q = p
    · subst hqp
      rw [update_self] at hq
      cases hq
    · rw [update_of_ne hqp] at hq
      exact ⟨hqp, hq⟩
  have hne : ∀ q c', q ≠ p → s.link q = some c' → c' ≠ c := fun q c' hqp hq heq =>
    hqp (h.inj q p c' hq (heq ▸ hl))
  exact {
    table := htable
    running := hrun
    free := fun c' hc' => by
      rw [hconns, AList.mem_erase, not_and_or, not_not] at hc'
      rcases hc' with rfl | hc'
      · exact h.type p c' hl
      · exact h.free c' hc'
    type := fun q c' hq => h.type q c' (hlink q c' hq).2
    conn := fun q c' hq => by
      obtain ⟨hqp, hq⟩ := hlink q c' hq
      obtain ⟨k, hk, hkt⟩ := h.conn q c' hq
      refine ⟨k, ?_, hkt⟩
      unfold Node.getConnection Forwarder.getConnection
      rw [hconns, AList.lookup_erase_ne (hne q c' hqp hq)]
      exact hk
    inj := fun q r c' hq hr => h.inj q r c' (hlink q c' hq).2 (hlink r c' hr).2
    unseen := fun x hx hmem => by
      obtain ⟨hold, hnf⟩ := hseen _ hmem
      rcases List.mem_append.mp hx with hx | hx
      · exact h.unseen x hx hold
      · obtain ⟨hx, hxp⟩ := List.mem_filter.mp hx
        refine hnf (hf x hx (by simpa using hxp) ?_)
        simpa [PeerSync.hasSeenSubId] using hold
    linked := fun x hx => by
      obtain ⟨hx, hxp⟩ := List.mem_filter.mp hx
      have hxp : x.1 ≠ p := by simpa using hxp
      simp only [update_of_ne hxp]
      exact h.linked x hx
    routed := fun q sub hx c' hq => by
      obtain ⟨hqp, hq⟩ := hlink q c' hq
      obtain ⟨e, he, hc⟩ := h.routed q sub (List.mem_filter.mp hx).1 c' hq
      exact ⟨e, he, hlists _ _ _ (hne q c' hqp hq) (h.mem_table hq) hc⟩ }

theorem Inv.step (h : Inv ty s) {a : Action P} (ha : s.Forgotten calculateHash a) :
    Inv ty (s.step calculateHash a) := by
  cases a with
  | connect p id connection result =>
    unfold Relay.step
    dsimp only
    split
    · rename_i hc
      exact h.connect connection hc.1 hc.2.1 hc.2.2.1 hc.2.2.2
    · exact h
  | subscribe p sub ttl =>
    cases hl : s.link p with
    | none =>
      unfold Relay.step
      simp only [hl]
      exact h
    | some c => exact h.subscribe hl sub ttl
  | ack p ack =>
    unfold Relay.step
    dsimp only
    split
    · exact h
    · rename_i c _
      rw [s.node.handleNewMessage_subscriptionAck c .Peer ack]
      obtain ⟨acks, hacks⟩ := Node.resolveAck_node s.node.peerSync ack.subscriptionId
        (if ack.success then .ok () else .error (.RemoteSubscriptionAckError ack.error))
      rw [hacks]
      exact h.sameTables { s.node with peerSync := { s.node.peerSync with pendingAcks := acks } }
        rfl rfl h.unseen s.tasks s.syncs
  | start i =>
    unfold Relay.step
    dsimp only
    split
    · exact h
    · rename_i task htask
      obtain ⟨hf, hr, hs⟩ := s.node.startForward_frame task
      refine h.sameTables _ hf hr (fun x hx hmem => ?_) _ _
      rcases hs _ hmem with hmem | ⟨hadd, hid⟩
      · exact h.unseen x hx hmem
      · exact ha task htask hadd x hx hid
  | sync conn subscriptions =>
    unfold Relay.step
    dsimp only
    split
    · obtain ⟨hf, hr, hs⟩ := s.node.fullSync_frame conn subscriptions
      refine h.sameTables _ hf hr (fun x hx hmem => ?_) _ _
      rcases hs _ hmem with hmem | ⟨y, hy, hid⟩
      · exact h.unseen x hx hmem
      · exact ha y hy x hx hid
    · exact h
  | drop p =>
    cases hl : s.link p with
    | none =>
      unfold Relay.step
      simp only [hl]
      exact h
    | some c => exact h.drop hl (ha c hl)

omit [DecidableEq P] in
theorem inv_init {n : Node} (hrun : n.running = true) (htable : n.table.Inv n.peerType) :
    Inv n.peerType (init n : Relay P) where
  table := htable
  running := hrun
  free := fun c hc => by
    have hn : n.getConnection c = none := AList.lookup_eq_none.mpr hc
    simp [Node.peerType, hn]
  type := fun p c hl => by cases hl
  conn := fun p c hl => by cases hl
  inj := fun p q c hl => by cases hl
  unseen := fun x hx => by cases hx
  linked := fun x hx => by cases hx
  routed := fun p sub hx => by cases hx

/-- Whatever the peers of a node do, what they send again after a drop is routed to their new links,
if the ids are forgotten meanwhile. -/
theorem routed_again (calculateHash : String → UInt64) (n : Node) (hrun : n.running = true)
    (htable : n.table.Inv n.peerType) (as : List (Action P))
    (h : Run.Meets (step calculateHash) (fun s a => s.Forgotten calculateHash a) (init n) as) :
    (as.foldl (step calculateHash) (init n)).RoutedAgain :=
  (h.invariant (fun _ _ hi ha => hi.step ha) (inv_init hrun htable)).routed

/-! ## Two peers -/

/-- One name, under different ids. -/
def sampleSub (id : SubId) (h : id ≠ 0) : PeerSub where
  name := sampleName
  id := id
  encoded := rfl
  readable := rfl
  id_ne := h

def announced (nodeId : String) : NegotiationResult := ⟨.Peer, nodeId, ""⟩

def linkUp (p : Fin 2) (id : ConnId) : Action (Fin 2) :=
  .connect p id { connectionType := .Remote } (announced "peer")

/-- Peer 0 subscribes, drops, and comes back on connection 3; peer 1 is linked all along. -/
def comesBack (others : List (Action (Fin 2))) : List (Action (Fin 2)) :=
  [linkUp 0 1, linkUp 1 2, .subscribe 0 (sampleSub 7 (by decide)) 3, .start 0] ++ others ++
    [.drop 0, linkUp 0 3, .subscribe 0 (sampleSub 7 (by decide)) 3]

theorem inv_start : ({} : Node).table.Inv ({} : Node).peerType := inv_empty _

theorem routed_again_alone :
    Run.Meets (step sampleHash) (fun s a => s.Forgotten sampleHash a) (init {}) (comesBack []) ∧
      (0, sampleSub 7 (by decide)) ∈ ((comesBack []).foldl (step sampleHash) (init {})).resent ∧
      ((comesBack []).foldl (step sampleHash) (init {})).RoutedAgain := by
  have h : Run.Meets (step sampleHash) (fun s a => s.Forgotten sampleHash a) (init {})
    (comesBack []) := by decide +kernel
  exact ⟨h, by decide +kernel, routed_again sampleHash {} rfl inv_start (comesBack []) h⟩

/-- Peer 1 has subscribed the same name: its route keeps the id of peer 0 among the seen ones. -/
theorem seen_id_stays : ¬ ∀ (calculateHash : String → UInt64) (n : Node), n.running = true →
    n.table.Inv n.peerType → ∀ as : List (Action (Fin 2)),
      (as.foldl (step calculateHash) (init n)).RoutedAgain := by
  intro h
  obtain ⟨e, he, hl⟩ := h sampleHash {} rfl inv_start
    (comesBack [.subscribe 1 (sampleSub 8 (by decide)) 3, .start 0]) 0 (sampleSub 7 (by decide))
    (by decide +kernel) 3 (by decide +kernel)
  cases he
  revert hl
  decide +kernel

end Relay

end Slim
