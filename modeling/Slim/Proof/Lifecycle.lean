import Slim.Lifecycle
import Slim.Proof.Stream

/-!
# No route outlives its connection

A stream drops its connection under the category negotiation returned; subscriptions are filed under
the type the connection table has when they arrive. `drop_clean`: where each negotiation leaves the
announced type in the table, the two agree at every stream of every run, and the drop leaves no
route. `rejected_peer_keeps_route` is the other case: a rejected peer keeps the type it came with,
and its stream runs as a peer.
-/

namespace Slim

namespace SubscriptionTable

variable {t : SubscriptionTable} {conn : ConnId}

/-- No slot and no aggregate lists the connection. -/
def NoRoute (t : SubscriptionTable) (conn : ConnId) : Prop :=
  ∀ p pe, t.routing.lookup p = some pe →
    (∀ id ct, ¬ pe.Lists id ct conn) ∧ ∀ ct, conn ∉ pe.aggregates ct

theorem noRoute_of_not_lists (hw : t.routing.Wf) (h : ∀ q ct, ¬ t.routing.Lists q ct conn) :
    t.NoRoute conn := by
  intro p pe hp
  have hno : ∀ id ct, ¬ pe.Lists id ct conn := fun id ct hl => h (p, id) ct ⟨pe, hp, hl⟩
  refine ⟨hno, fun ct hc => ?_⟩
  obtain ⟨id, hl⟩ := ((hw.entry hp).agg_iff ct conn).mp hc
  exact hno id ct hl

theorem NoRoute.not_lists (h : t.NoRoute conn) (q : Prefix × BitVec 128) (ct : ConnType) :
    ¬ t.routing.Lists q ct conn := by
  intro hl
  obtain ⟨pe, hp, hl⟩ := hl
  exact (h q.1 pe hp).1 q.2 ct hl

end SubscriptionTable

namespace Node

variable {connection : Connection} {r : NegotiationResult}

/-! ## Negotiation -/

/-- `handle_peer_upgrade` does not turn the remote side away. -/
def AcceptsPeer (n : Node) (r : NegotiationResult) : Prop :=
  r.remoteNodeId ≠ n.serviceId ∧ (n.deploymentName = "" ∨ r.remoteDeploymentName = n.deploymentName)

instance (n : Node) (r : NegotiationResult) : Decidable (n.AcceptsPeer r) :=
  inferInstanceAs (Decidable (_ ∧ _))

def connType (n : Node) (c : ConnId) : ConnType :=
  ((n.getConnection c).map Connection.connectionType).getD .Local

theorem connType_eq {n : Node} {c : ConnId} (h : n.getConnection c = some connection) :
    n.connType c = connection.connectionType := by
  simp [connType, h]

/-- The announced type is the one the connection has afterwards. -/
def SettlesType (n : Node) (connection : Connection) (r : NegotiationResult) : Prop :=
  r.connectionType = .Edge ∨ r.connectionType = .Peer ∧ n.AcceptsPeer r ∨
    connection.connectionType = r.connectionType

instance (n : Node) (connection : Connection) (r : NegotiationResult) :
    Decidable (n.SettlesType connection r) :=
  inferInstanceAs (Decidable (_ ∨ _ ∧ _ ∨ _))

/-- `n'` is `n` with a connection of type `ct` at `id`. -/
structure Registered (n n' : Node) (id : ConnId) (ct : ConnType) : Prop where
  table : n'.table = n.table
  connections : ∃ c : Connection, c.connectionType = ct ∧
    n'.forwarder.connectionTable = n.forwarder.connectionTable.insert id c

theorem registered_setConnectionType (n : Node) (connection : Connection) (id : ConnId)
    (ct : ConnType) (p : PeerSync) :
    Registered n
      { n with
        forwarder := (n.forwarder.onConnectionEstablished connection id).setConnectionType id ct
        peerSync := p } id ct := by
  have hl : (n.forwarder.onConnectionEstablished connection id).connectionTable.lookup id =
      some connection := AList.lookup_insert _
  unfold Forwarder.setConnectionType
  rw [hl]
  exact ⟨rfl, { connection with connectionType := ct }, rfl, AList.insert_insert ..⟩

theorem handlePeerUpgrade_registered (n : Node)
    (h : n.AcceptsPeer r ∨ connection.connectionType = .Peer) (id : ConnId) :
    Registered n (handlePeerUpgrade
      { n with forwarder := n.forwarder.onConnectionEstablished connection id }
      r.remoteNodeId r.remoteDeploymentName id).1 id .Peer := by
  have hkeep : ¬ n.AcceptsPeer r → Registered n
      { n with forwarder := n.forwarder.onConnectionEstablished connection id } id .Peer :=
    fun hn => ⟨rfl, connection, h.resolve_left hn, rfl⟩
  unfold handlePeerUpgrade
  split
  · rename_i hself
    exact hkeep fun ha => ha.1 hself
  · split
    · rename_i hdep
      exact hkeep fun ha => ha.2.elim hdep.1 hdep.2
    · exact registered_setConnectionType n connection id .Peer _

theorem negotiateAndRegister_spec (n : Node) (h : n.SettlesType connection r) (id : ConnId) :
    (n.negotiateAndRegister connection id r).1 = r.connectionType ∧
      Registered n (n.negotiateAndRegister connection id r).2.1 id r.connectionType := by
  unfold SettlesType at h
  unfold negotiateAndRegister
  cases hr : r.connectionType with
  | Peer =>
    rw [hr] at h
    have ha : n.AcceptsPeer r ∨ connection.connectionType = .Peer := by
      simpa using h
    exact ⟨rfl, handlePeerUpgrade_registered n ha id⟩
  | Edge => exact ⟨rfl, registered_setConnectionType n connection id .Edge _⟩
  | Remote =>
    rw [hr] at h
    exact ⟨rfl, rfl, connection, (by simpa using h), rfl⟩
  | Local =>
    rw [hr] at h
    exact ⟨rfl, rfl, connection, (by simpa using h), rfl⟩

theorem Registered.getConnection {n n' : Node} {id : ConnId} {ct : ConnType}
    (h : Registered n n' id ct) :
    (∃ c, n'.getConnection id = some c ∧ c.connectionType = ct) ∧
      ∀ c, c ≠ id → n'.getConnection c = n.getConnection c := by
  obtain ⟨c, hc, hn⟩ := h.connections
  unfold Node.getConnection Forwarder.getConnection
  rw [hn]
  exact ⟨⟨c, AList.lookup_insert _, hc⟩, fun c' hne => AList.lookup_insert_ne hne⟩

end Node

/-! ## The invariant -/

namespace Lifecycle

variable {s : Lifecycle} {n' : Node} {id : ConnId}

/-- Types agree between the streams, the connection table and the subscription table. -/
structure Inv (s : Lifecycle) : Prop where
  table : s.node.table.Inv s.node.connType
  stream : ∀ {id st}, s.streams.lookup id = some st →
    st.connIndex = id ∧ ∃ c, s.node.getConnection id = some c ∧ c.connectionType = st.category
  held : ∀ k, s.node.table.Holds k → k.connId ∈ s.node.forwarder.connectionTable

/-- A negotiation that leaves the announced type in the table, which is that of the records the id
has already. -/
def Action.KeepsType (s : Lifecycle) : Action → Prop
  | .establish id connection result =>
    s.node.SettlesType connection result ∧
      ∀ k, s.node.table.Holds k → k.connId = id →
        (s.node.getConnection id).map Connection.connectionType = some result.connectionType
  | _ => True

instance (s : Lifecycle) (a : Action) : Decidable (a.KeepsType s) := by
  cases a <;> unfold Action.KeepsType <;> infer_instance

theorem inv_init (n : Node) : (init n).Inv where
  table := SubscriptionTable.inv_empty _
  stream := fun h => (by cases h)
  held := fun k hk => absurd hk (SubscriptionTable.not_holds_empty k)

/-- A connection that enters the table at `id` with the type of the records of `id` changes no type
of a record. -/
theorem registered_connType {ct : ConnType} (hr : Node.Registered s.node n' id ct)
    (hheld : ∀ k, s.node.table.Holds k → k.connId = id → s.node.connType id = ct) {k : SubKey}
    (hk : s.node.table.Holds k) : n'.connType k.connId = s.node.connType k.connId := by
  obtain ⟨⟨c, hc, hct⟩, hother⟩ := hr.getConnection
  by_cases hkid : k.connId = id
  · rw [hkid, Node.connType_eq hc, hct, hheld k hk hkid]
  · unfold Node.connType
    rw [hother _ hkid]

/-- A connection enters the table at `id`, with the type of its stream and of the records of
`id`. -/
theorem Inv.register (h : s.Inv) (st : Stream) (hid : st.connIndex = id)
    (hr : Node.Registered s.node n' id st.category)
    (hheld : ∀ k, s.node.table.Holds k → k.connId = id → s.node.connType id = st.category)
    (tr : List Effect) : Inv ⟨n', s.streams.insert id st, tr⟩ where
  table := by
    rw [hr.table]
    exact h.table.congr fun k hk => registered_connType hr hheld hk
  stream := fun {id' st'} hl => by
    obtain ⟨hget, hother⟩ := hr.getConnection
    obtain ⟨rfl, rfl⟩ | ⟨hne, hl⟩ := AList.lookup_insert_iff.mp hl
    · exact ⟨hid, hget⟩
    · obtain ⟨h1, c, hc, hct⟩ := h.stream hl
      exact ⟨h1, c, (hother id' hne).trans hc, hct⟩
  held := fun k hk => by
    obtain ⟨c, -, hn⟩ := hr.connections
    rw [hn, AList.mem_insert]
    have hk' : s.node.table.Holds k := by
      rw [← hr.table]
      exact hk
    exact .inr (h.held k hk')

/-- The subscription table changes, the connections do not. -/
theorem Inv.links (h : s.Inv) (n' : Node)
    (hl : n'.forwarder.connectionTable = s.node.forwarder.connectionTable)
    (ht : n'.table.Inv s.node.connType)
    (hheld : ∀ k, n'.table.Holds k → s.node.table.Holds k ∨
      k.connId ∈ s.node.forwarder.connectionTable)
    (tr : List Effect) :
    Inv ⟨n', s.streams, tr⟩ where
  table := by
    have hty : n'.connType = s.node.connType := by
      unfold Node.connType Node.getConnection Forwarder.getConnection
      rw [hl]
    rw [hty]
    exact ht
  stream := fun {id st} hs => by
    show _ ∧ ∃ c, n'.forwarder.connectionTable.lookup id = some c ∧ _
    rw [hl]
    exact h.stream hs
  held := fun k hk => by
    rw [hl]
    cases hheld k hk with
    | inl hk => exact h.held k hk
    | inr hk => exact hk

theorem tableStep_inv {t : SubscriptionTable} {ty : ConnId → ConnType} (h : t.Inv ty)
    (dst : ProtoName) (conn : ConnId) (add : Bool) (subId : SubId) :
    (Node.tableStep t dst conn (ty conn) add subId).2.Inv ty ∧
      ∀ k, (Node.tableStep t dst conn (ty conn) add subId).2.Holds k → t.Holds k ∨
        k.connId = conn := by
  cases add with
  | true =>
    rcases h.add rfl with
      ⟨m, -, ht, -⟩ | ⟨e, first, -, -, ha⟩
    · rw [show (Node.tableStep t dst conn (ty conn) true subId).2 = t from ht]
      exact ⟨h, fun k hk => .inl hk⟩
    · refine ⟨ha.inv, fun k hk => ?_⟩
      cases (ha.holds k).mp hk with
      | inl hk => exact .inl hk
      | inr hk => exact .inr (by rw [hk])
  | false =>
    rcases h.remove rfl with
      ⟨m, -, ht, -⟩ | ⟨e, last, -, -, hr⟩
    · rw [show (Node.tableStep t dst conn (ty conn) false subId).2 = t from ht]
      exact ⟨h, fun k hk => .inl hk⟩
    · exact ⟨hr.inv, fun k hk => .inl ((hr.holds k).mp hk).1⟩

theorem Inv.message (h : s.Inv) (st : Stream) (msg : Message) (tr : List Effect) :
    Inv ⟨(s.node.receive st msg).node, s.streams, tr⟩ := by
  cases s.node.receive_node h.table.routing st msg with
  | shrunk hl hs =>
    refine h.links _ hl.connectionTable (hs.inv h.table) (fun k hk => .inl ?_) tr
    unfold SubscriptionTable.Holds at hk ⊢
    rwa [hs.state] at hk
  | @filed add hdr subId dst c hm hf =>
    obtain ⟨hinv, hholds⟩ :=
      tableStep_inv h.table dst (hdr.recvFrom.getD st.connIndex) add subId
    rw [Node.connType_eq hf.connection] at hinv hholds
    rw [hf.node]
    refine h.links _ (Node.sameLinks_withTable s.node _).connectionTable hinv (fun k hk => ?_) tr
    cases hholds k hk with
    | inl hk => exact .inl hk
    | inr hk =>
      refine .inr ?_
      rw [hk, ← AList.lookup_isSome]
      exact Option.isSome_of_mem hf.connection

section
variable (calculateHash : String → UInt64) {s : Lifecycle} {id : ConnId} {st : Stream}

/-- The table after the drop of a stream's connection, before the peers are told. -/
structure DroppedClean (s : Lifecycle) (id : ConnId) (t : SubscriptionTable) : Prop where
  inv : t.Inv s.node.connType
  complete : s.node.table.Complete s.node.connType → t.Complete s.node.connType
  holds : ∀ k, t.Holds k ↔ s.node.table.Holds k ∧ k.connId ≠ id
  lists : ∀ q ct, ¬ t.routing.Lists q ct id

theorem Inv.droppedClean (h : s.Inv) (hst : s.streams.lookup id = some st) :
    s.DroppedClean id (s.node.table.removeConnection calculateHash st.connIndex st.category).2 := by
  obtain ⟨hid, c, hc, hct⟩ := h.stream hst
  have hty : st.category = s.node.connType id := by
    rw [Node.connType_eq hc, hct]
  rw [hid, hty]
  rcases hr : s.node.table.removeConnection calculateHash id (s.node.connType id) with ⟨res, t⟩
  rcases h.table.removeConnection hr with ⟨-, ht, hno⟩ | ⟨lost, -, hd⟩
  · rw [ht]
    refine ⟨h.table, fun hc => hc, fun k => ⟨fun hk => ⟨hk, hno k hk⟩, fun hk => hk.1⟩,
      fun q ct hl => ?_⟩
    obtain ⟨k, hk, hkc, -⟩ := h.table.held hl
    exact hno k hk hkc
  · exact ⟨hd.inv h.table, hd.complete, hd.holds, hd.not_lists h.table⟩

structure Gone (s : Lifecycle) (id : ConnId) (n' : Node) : Prop where
  connectionTable : n'.forwarder.connectionTable = s.node.forwarder.connectionTable.erase id
  inv : n'.table.Inv s.node.connType
  complete : s.node.table.Complete s.node.connType → n'.table.Complete s.node.connType
  holds : ∀ k, n'.table.Holds k ↔ s.node.table.Holds k ∧ k.connId ≠ id
  lists : ∀ q ct, ¬ n'.table.routing.Lists q ct id

theorem Inv.gone (h : s.Inv) (hst : s.streams.lookup id = some st) :
    s.Gone id (s.node.closeStream calculateHash st).1 := by
  have hd := h.droppedClean calculateHash hst
  obtain ⟨hcl, -⟩ := s.node.closeStream_spec calculateHash st hd.inv.routing
  have hconns := hcl.connectionTable
  rw [(h.stream hst).1] at hconns
  refine ⟨hconns, hcl.table.inv hd.inv, fun hc => ?_, fun k => ?_, fun q ct hl => ?_⟩
  · refine hcl.table.complete (hd.complete hc) fun k hk => ?_
    obtain ⟨hk, hne⟩ := (hd.holds k).mp hk
    rw [hconns, AList.mem_erase]
    exact ⟨hne, h.held k hk⟩
  · rw [hcl.table.holds, hd.holds]
  · exact hd.lists q ct (hcl.table.lists q ct id hl)

theorem Gone.getConnection (h : s.Gone id n') {c : ConnId} (hne : c ≠ id) :
    n'.getConnection c = s.node.getConnection c := by
  unfold Node.getConnection Forwarder.getConnection
  rw [h.connectionTable, AList.lookup_erase_ne hne]

theorem Gone.connType (h : s.Gone id n') {k : SubKey} (hk : n'.table.Holds k) :
    n'.connType k.connId = s.node.connType k.connId := by
  unfold Node.connType
  rw [h.getConnection ((h.holds k).mp hk).2]

theorem Inv.close (h : s.Inv) (hst : s.streams.lookup id = some st) (tr : List Effect) :
    Inv ⟨(s.node.closeStream calculateHash st).1, s.streams.erase id, tr⟩ := by
  have hg := h.gone calculateHash hst
  refine ⟨hg.inv.congr fun k hk => hg.connType hk, fun {id' st'} hl => ?_, fun k hk => ?_⟩
  · obtain ⟨hne, hl⟩ := AList.lookup_erase_iff.mp hl
    obtain ⟨h1, c, hc, hct⟩ := h.stream hl
    exact ⟨h1, c, (hg.getConnection hne).trans hc, hct⟩
  · obtain ⟨hk, hne⟩ := (hg.holds k).mp hk
    rw [hg.connectionTable, AList.mem_erase]
    exact ⟨hne, h.held k hk⟩

theorem Inv.registerLocal (h : s.Inv) (hfree : s.Free id) (fromControlPlane : Bool) :
    Node.Registered s.node
        { s.node with
          forwarder := s.node.forwarder.onConnectionEstablished { connectionType := .Local } id
          controlPlane := s.node.controlPlane || fromControlPlane } id .Local ∧
      ∀ k, s.node.table.Holds k → k.connId ≠ id := by
  refine ⟨⟨rfl, { connectionType := .Local }, rfl, rfl⟩, fun k hk hkid => ?_⟩
  exact hfree.1 (hkid ▸ h.held k hk)

theorem Inv.step (h : s.Inv) {a : Action} (ha : a.KeepsType s) : (s.step calculateHash a).Inv := by
  cases a with
  | establish id connection result =>
    obtain ⟨hset, hkeep⟩ := ha
    obtain ⟨hcat, hreg⟩ := s.node.negotiateAndRegister_spec hset id
    unfold Lifecycle.step
    dsimp only
    split
    · rw [← hcat] at hreg hkeep
      refine h.register ⟨id, _, _, _, _⟩ rfl hreg (fun k hk hkid => ?_) _
      unfold Node.connType
      rw [hkeep k hk hkid]
      rfl
    · exact h
  | registerLocal id fromControlPlane =>
    unfold Lifecycle.step
    dsimp only
    split
    · rename_i hfree
      obtain ⟨hreg, hnone⟩ := h.registerLocal hfree fromControlPlane
      exact h.register ⟨id, .Local, true, fromControlPlane, _⟩ rfl hreg
        (fun k hk hkid => absurd hkid (hnone k hk)) _
    · exact h
  | message id msg =>
    cases hst : s.streams.lookup id with
    | none => simpa only [Lifecycle.step, hst] using h
    | some st =>
      simp only [Lifecycle.step, hst]
      exact h.message st msg _
  | close id =>
    cases hst : s.streams.lookup id with
    | none => simpa only [Lifecycle.step, hst] using h
    | some st =>
      simp only [Lifecycle.step, hst]
      exact h.close calculateHash hst _
  | forwarding peerSync =>
    exact h.links { s.node with peerSync } rfl h.table (fun k hk => .inl hk) _

/-! ## Drops -/

/-- The records of a stream's connection were added under the category the stream drops it with, and
the drop leaves no route. -/
structure CleanDrop (s : Lifecycle) (id : ConnId) (st : Stream) : Prop where
  category : ∀ k r, s.node.table.state.subscriptions.lookup k = some r → k.connId = id →
    r.category = st.category
  routes : (s.node.closeStream calculateHash st).1.table.NoRoute id

theorem Inv.cleanDrop (h : s.Inv) (hst : s.streams.lookup id = some st) :
    s.CleanDrop calculateHash id st where
  category := fun k r hr hk => by
    obtain ⟨-, c, hc, hct⟩ := h.stream hst
    rw [h.table.category hr, hk, Node.connType_eq hc, hct]
  routes := by
    have hg := h.gone calculateHash hst
    exact SubscriptionTable.noRoute_of_not_lists hg.inv.routing hg.lists

/-- **Drops are clean**: in every run in which each negotiation settles the announced type. -/
theorem drop_clean (n : Node) (as : List Action)
    (h : Run.Meets (step calculateHash) (fun s a => a.KeepsType s) (init n) as) :
    ∀ id st, (as.foldl (step calculateHash) (init n)).streams.lookup id = some st →
      (as.foldl (step calculateHash) (init n)).CleanDrop calculateHash id st := by
  intro id st hst
  have hinv : (as.foldl (step calculateHash) (init n)).Inv :=
    Run.Meets.invariant (fun s a hi ha => hi.step calculateHash ha) (inv_init n) h
  exact hinv.cleanDrop calculateHash hst

end

/-! ## A rejected peer -/

def sampleNode : Node where
  serviceId := "n1"
  deploymentName := "d"

/-- An incoming connection announces itself as a peer of the given deployment, then subscribes. -/
def peerRun (deployment : String) : List Action :=
  [.establish 4 { connectionType := .Remote } ⟨.Peer, "n2", deployment⟩,
    .message 4 (buildSubscribe sampleName sampleName "" {} 7)]

theorem drop_clean_accepted :
    Run.Meets (step fun _ => 0) (fun s a => a.KeepsType s) (init sampleNode) (peerRun "d") ∧
      ((peerRun "d").foldl (step fun _ => 0) (init sampleNode)).CleanDrop (fun _ => 0) 4
        ⟨4, .Peer, false, false, false⟩ := by
  have h : Run.Meets (step fun _ => 0) (fun s a => a.KeepsType s) (init sampleNode)
      (peerRun "d") := by decide +kernel
  exact ⟨h, drop_clean (fun _ => 0) sampleNode (peerRun "d") h 4 _ (by decide +kernel)⟩

/-- The peer of another deployment is turned away, but its stream runs on as a peer while the table
has it as a remote connection: the route it added stays when it is gone. -/
theorem rejected_peer_keeps_route :
    ¬ ∀ (calculateHash : String → UInt64) (n : Node) (as : List Action) (id : ConnId) (st : Stream),
      (as.foldl (step calculateHash) (init n)).streams.lookup id = some st →
        (as.foldl (step calculateHash) (init n)).CleanDrop calculateHash id st := by
  intro h
  have hclean := h (fun _ => 0) sampleNode (peerRun "other") 4 ⟨4, .Peer, false, false, false⟩
    (by decide +kernel)
  apply hclean.routes.not_lists (EncodedName.route ⟨1, 2, 3, some ⟨0, 5⟩⟩) .Remote
  decide +kernel

end Lifecycle

end Slim
