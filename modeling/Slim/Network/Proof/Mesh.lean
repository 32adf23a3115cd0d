import Slim.Lib.Flood
import Slim.Network.Mesh
import Slim.Network.Proof.PeerLink
import Slim.Proof.Lifecycle

/-!
# Floods in a mesh

The mesh simulates the abstract flood (`Sim`): a subscription on a link is a copy, a spawned task is
a task, the ids a node has seen say whether it has sent copies, and its routes are those of its
subscription table. Deliveries of acknowledgements and the ends of waits change nothing there.

`flood_no_loop`: routes form no cycle and lead to the node of the application. `flood_reaches`: they
are everywhere the TTL allows, if no node drops a copy with more hops left than it has forwarded
with (`Action.DropKeepsTtl`); `flood_stops_short` shows what happens otherwise.
-/

namespace Slim

open Function PeerSync Relation SubscriptionTable

namespace Node

variable {n : Node}

/-! ## What a node does -/

theorem ackTo_ackUpstream (n : Node) (task : ForwardTask) (r : Except DataPathError Unit) :
    AckTo task.inConnection (n.ackUpstream task r) := by
  unfold ackUpstream
  split
  · simp [AckTo]
  · exact ackTo_sendSubscriptionAck n _ _ _

theorem ackTo_nil (conn : ConnId) : AckTo conn [] := by simp [AckTo]

theorem handleNewMessage_ack (n : Node) (conn : ConnId) (ct : ConnType) (ack : SubscriptionAck) :
    ∃ acks, n.handleNewMessage conn ct { messageType := some (.subscriptionAck ack) } =
      ⟨.ok (), { n with peerSync := { n.peerSync with pendingAcks := acks } }, []⟩ := by
  obtain ⟨acks, ha⟩ := resolveAck_node n.peerSync ack.subscriptionId
    (if ack.success then .ok () else .error (.RemoteSubscriptionAckError ack.error))
  refine ⟨acks, ?_⟩
  rw [← ha]
  exact n.handleNewMessage_subscriptionAck conn ct ack

/-- The first subscription of a readable name by a local application is filed and forwarded. -/
theorem handleNewMessage_first {m : LocalMsg} {e : EncodedName} (hm : Mesh.Subscribes n m e)
    (hrun : n.running = true) (htable : n.table = SubscriptionTable.empty)
    (hseen : n.peerSync.seenSubIds = []) :
    ∃ t first es, Added n.connType n.table t e m.conn m.subId first ∧
      (∀ x ∈ es, ∃ msg, x = .controlPlane msg) ∧
      n.handleNewMessage m.conn .Local m.message = ⟨.ok (), n.withTable t,
        es ++
          [.spawn (n.localTask m.conn (SlimHeader.new m.source m.dst m.identity {}) m.dst m.subId
          true)]⟩ := by
  obtain ⟨c, hc, hct⟩ := hm.isLocal
  have hty : n.connType m.conn = .Local := by rw [connType_eq hc, hct]
  have hi : n.table.Inv n.connType := by rw [htable]; exact inv_empty _
  have hv : (SlimHeader.new m.source m.dst m.identity {}).validateRouted = .ok () :=
    SlimHeader.validateRouted_eq_ok.mpr ⟨_, _, rfl, hm.source, rfl, by simp [hm.name]⟩
  have hmsg := congrArg (n.handleNewMessage m.conn .Local) m.message_eq
  rw [handleNewMessage_subscription hv rfl, if_neg (by simp [ConnType.isLocal]),
    processSubscription_at (f := none) hc (by rfl) (by rfl) (by rfl), hm.add, hct,
    if_neg (by simp [hasSeenSubId, hseen])] at hmsg
  rcases hr : n.table.addSubscription m.dst m.conn (n.connType m.conn) m.subId with ⟨r, t⟩
  rcases hi.add hr with ⟨msg, -, -, hno⟩ | ⟨e', first, he', rfl, ha⟩
  · have hs := hm.readable
    rw [(hno e hm.name).1] at hs
    cases hs
  · obtain rfl : e = e' := Option.some.inj (hm.name.symm.trans he')
    obtain rfl : first = true := ha.first_iff.mpr fun d hd => by
      rw [htable] at hd
      exact Routing.not_lists_empty hd
    rw [hty] at hr
    rw [show tableStep n.table m.dst m.conn .Local true m.subId = (.ok true, t) from hr] at hmsg
    have hpc : c.isPeerConnection = false := by simp [Connection.isPeerConnection, hct]
    simp only [hpc] at hmsg
    rw [forwardSubscription_local (n := n.withTable t) hct hrun] at hmsg
    exact ⟨t, true, _, ha, fun x hx => ⟨_, mem_notified hx⟩, hmsg⟩

end Node

/-! ## What is carried -/

namespace Topology

variable {V : Type} {top : Topology V}

theorem carried_send {u v : V} (hv : v ∈ top.nbrs u) (msg : Message) :
    top.carried u (.send (top.conn u v) msg) = some (u, v, msg) := by
  have hf : (top.nbrs u).find? (fun w => top.conn u w = top.conn u v) = some v := by
    cases hf : (top.nbrs u).find? (fun w => top.conn u w = top.conn u v) with
    | none => simpa using List.find?_eq_none.mp hf v hv
    | some w =>
      have hw : top.conn u w = top.conn u v := by simpa using List.find?_some hf
      rw [top.inj (List.mem_of_find?_eq_some hf) hv hw]
  simp [carried, hf]

theorem carried_ackTo {u : V} {conn : ConnId} {es : List Effect} (h : Node.AckTo conn es)
    {x : V × V × Message} (hx : x ∈ es.filterMap (top.carried u)) :
    x.2.1 ∈ top.nbrs x.1 ∧ ∃ ack, x.2.2 = { messageType := some (.subscriptionAck ack) } := by
  obtain ⟨e, he, hc⟩ := List.mem_filterMap.mp hx
  obtain ⟨ack, rfl⟩ := h e he
  obtain ⟨v, hv, rfl⟩ := Option.map_eq_some_iff.mp hc
  exact ⟨List.mem_of_find?_eq_some hv, ack, rfl⟩

theorem carried_map {v : V} {us : List V} (hu : ∀ u ∈ us, u ∈ top.nbrs v) (msg : Message) :
    ((us.map (top.conn v)).map fun c => Effect.send c msg).filterMap (top.carried v) =
      us.map fun u => (v, u, msg) := by
  induction us with
  | nil => rfl
  | cons u us ih =>
    have hhead : u ∈ top.nbrs v := hu u List.mem_cons_self
    simp only [List.map_cons, List.filterMap_cons, carried_send hhead]
    rw [ih fun w hw => hu w (List.mem_cons_of_mem _ hw)]

end Topology

theorem taskOf_ackTo {V : Type} {u : V} {conn : ConnId} {es : List Effect}
    (h : Node.AckTo conn es) : es.filterMap (taskOf u) = [] := by
  rw [List.filterMap_eq_nil_iff]
  intro e he
  obtain ⟨ack, rfl⟩ := h e he
  rfl

/-! ## The simulation -/

namespace Mesh

variable {V : Type}

/-- The copy a message on a link stands for. -/
def copyOf (x : V × V × Message) : Option (V × V × Nat) :=
  x.2.2.asSubscription.map fun y => (x.1, x.2.1, y.2.1.ttl)

/-- A copy of the subscription `m`, or an acknowledgement. -/
def Carries (top : Topology V) (m : LocalMsg) (x : V × V × Message) : Prop :=
  x.2.1 ∈ top.nbrs x.1 ∧ ((∃ ttl, x.2.2 = Node.peerMsg m.dst m.subId true ttl) ∨
    ∃ ack, x.2.2 = { messageType := some (.subscriptionAck ack) })

/-- A task that forwards the subscription `m`. -/
structure Forwards (top : Topology V) (m : LocalMsg) (x : V × ForwardTask) (k : Flood.Task V) :
    Prop where
  node : x.1 = k.node
  name : x.2.name = m.dst
  subId : x.2.subId = m.subId
  add : x.2.add = true
  ttl : x.2.peerTtl = k.ttl
  targets : x.2.targets =
    ⟨some (k.source.elim .All fun u => .ExcludeConn (top.conn k.node u)), none⟩
  source : ∀ u, k.source = some u → u ∈ top.nbrs k.node

structure Sim (top : Topology V) (nodes : V → Node) (m : LocalMsg) (e : EncodedName) (s : Mesh V)
    (f : Flood.State V) : Prop where
  links : ∀ v, (nodes v).SameLinks (s.node v)
  table : ∀ v, (s.node v).table.Inv (nodes v).connType
  msgs : ∀ x ∈ s.inflight, Carries top m x
  copies : s.inflight.filterMap copyOf = f.copies
  tasks : List.Forall₂ (Forwards top m) s.spawned f.tasks
  started : List.Forall₂ (Forwards top m) s.started f.started
  seen : ∀ v, (s.node v).peerSync.hasSeenSubId m.subId = true ↔ v ∈ f.order
  routes : ∀ v u, RoutesTo top e s v u ↔ (v, u) ∈ f.routes

section
variable {top : Topology V} {nodes : V → Node} {m : LocalMsg} {e : EncodedName} {s : Mesh V}
  {f : Flood.State V} {T : Nat} {x : V × V × Message} {conn : ConnId} {es : List Effect} {i : Nat}
  {inflight : List (V × V × Message)} {u o : V}

theorem copyOf_ack {ack : SubscriptionAck}
    (h : x.2.2 = { messageType := some (.subscriptionAck ack) }) : copyOf x = none := by
  simp [copyOf, h, Message.asSubscription]

theorem copyOf_peerMsg (u v : V) (name : ProtoName) (subId : SubId) (ttl : Nat) :
    copyOf (u, v, Node.peerMsg name subId true ttl) = some (u, v, ttl) := by
  simp [copyOf, Node.peerMsg, SlimHeader.new]

theorem copies_ackTo (h : Node.AckTo conn es) :
    (es.filterMap (top.carried u)).filterMap copyOf = [] := by
  rw [List.filterMap_eq_nil_iff]
  intro x hx
  obtain ⟨-, ack, ha⟩ := Topology.carried_ackTo h hx
  exact copyOf_ack ha

theorem carries_ackTo (h : Node.AckTo conn es) (hx : x ∈ es.filterMap (top.carried u)) :
    Carries top m x := by
  obtain ⟨hv, ha⟩ := Topology.carried_ackTo h hx
  exact ⟨hv, .inr ha⟩

theorem copies_eraseIdx (h : Sim top nodes m e s f) (hx : s.inflight[i]? = some x) :
    ∃ l r, f.copies = l ++ (copyOf x).toList ++ r ∧
      (s.inflight.eraseIdx i).filterMap copyOf = l ++ r := by
  obtain ⟨a, b, hl, he⟩ := Vec.split_eraseIdx hx
  refine ⟨a.filterMap copyOf, b.filterMap copyOf, ?_, by rw [he, List.filterMap_append]⟩
  rw [← h.copies, hl, List.filterMap_append, List.filterMap_cons]
  cases copyOf x <;> simp

theorem Sim.up (h : Sim top nodes m e s f) (hq : Quiet top nodes T) {v : V} (hu : u ∈ top.nbrs v) :
    (s.node v).Up (top.conn v u) .Peer := (h.links v).up (hq.up v u hu)

theorem Sim.running (h : Sim top nodes m e s f) (hq : Quiet top nodes T) (v : V) :
    (s.node v).running = true := (h.links v).running.trans (hq.running v)

theorem Quiet.connType (hq : Quiet top nodes T) {v : V} (hu : u ∈ top.nbrs v) :
    (nodes v).connType (top.conn v u) = .Peer := by
  obtain ⟨c, hc, hct, -⟩ := hq.up v u hu
  rw [Node.connType_eq hc, hct]

variable [DecidableEq V]

section
variable (h : Sim top nodes m e s f)
include h

/-- **A stutter**: one node changes nothing but its waits, and sends acknowledgements only. -/
theorem Sim.stutter (hin : ∀ x ∈ inflight, x ∈ s.inflight)
    (waiting : List (V × ForwardTask)) {v : V} {n : Node} (hl : (s.node v).SameLinks n)
    (ht : n.table = (s.node v).table)
    (hseen : n.peerSync.seenSubIds = (s.node v).peerSync.seenSubIds) (hes : Node.AckTo conn es) :
    Sim top nodes m e (({ s with inflight, waiting } : Mesh V).after top v n es)
      { f with copies := inflight.filterMap copyOf } := by
  have hnode : ∀ w, (s.node w).SameLinks (update s.node v n w) ∧
      (update s.node v n w).table = (s.node w).table ∧
      (update s.node v n w).peerSync.seenSubIds = (s.node w).peerSync.seenSubIds := by
    intro w
    by_cases hw : w = v
    · subst hw
      rw [update_self]
      exact ⟨hl, ht, hseen⟩
    · rw [update_of_ne hw]
      exact ⟨Node.SameLinks.refl _, rfl, rfl⟩
  refine ⟨fun w => (h.links w).trans (hnode w).1, fun w => ?_, fun x hx => ?_, ?_, ?_, h.started,
    fun w => ?_, fun w u => ?_⟩
  · exact (hnode w).2.1 ▸ h.table w
  · cases List.mem_append.mp hx with
    | inl hx => exact h.msgs x (hin x hx)
    | inr hx => exact carries_ackTo hes hx
  · simp [after, copies_ackTo hes]
  · simp only [after, taskOf_ackTo hes, List.append_nil]
    exact h.tasks
  · rw [← h.seen w]
    simp [after, hasSeenSubId, (hnode w).2.2]
  · rw [← h.routes w u]
    simp [RoutesTo, after, (hnode w).2.1]

/-- A node files a copy it got from `u` and relays it while hops are left. -/
theorem Sim.filed {v : V} (hu : u ∈ top.nbrs v) (hin : ∀ x ∈ inflight, x ∈ s.inflight) {ttl : Nat}
    (ht : ttl - 1 ≠ 0) (hv : v ∉ f.order) {t : SubscriptionTable} {first : Bool}
    (ha : Added (nodes v).connType (s.node v).table t e (top.conn v u) m.subId first)
    (hes : Node.AckTo (top.conn v u) es) :
    Sim top nodes m e (({ s with inflight } : Mesh V).after top v ((s.node v).withTable t)
        (if 2 ≤ ttl - 1 then [.spawn (Node.relayTask (top.conn v u)
          (SlimHeader.new m.dst m.dst "" { ttl }) m.dst m.subId true)] else es))
      (f.receive (inflight.filterMap copyOf) u v ttl) := by
  have hrec : f.receive (inflight.filterMap copyOf) u v ttl =
      { f with
        copies := inflight.filterMap copyOf
        routes := (v, u) :: f.routes
        tasks := if 2 ≤ ttl - 1 then f.tasks ++ [⟨v, some u, ttl - 1⟩] else f.tasks } :=
    if_neg (by simp [ht, hv])
  rw [hrec]
  refine ⟨fun w => (h.links w).trans ?_, fun w => ?_, fun x hx => ?_, ?_, ?_, h.started,
    fun w => ?_, fun w x => ?_⟩
  · by_cases hw : w = v
    · subst hw
      simp only [after, update_self]
      exact Node.sameLinks_withTable _ _
    · simp only [after, update_of_ne hw]
      exact Node.SameLinks.refl _
  · by_cases hw : w = v
    · subst hw
      simp only [after, update_self]
      exact ha.inv
    · simp only [after, update_of_ne hw]
      exact h.table w
  · cases List.mem_append.mp hx with
    | inl hx => exact h.msgs x (hin x hx)
    | inr hx =>
      split at hx
      · simp [Topology.carried] at hx
      · exact carries_ackTo hes hx
  · simp only [after, List.filterMap_append]
    split
    · simp [Topology.carried]
    · rw [copies_ackTo hes, List.append_nil]
  · simp only [after]
    split
    · refine List.rel_append h.tasks (.cons ?_ .nil)
      refine ⟨rfl, rfl, rfl, rfl, rfl, rfl, fun w hw => ?_⟩
      cases hw
      exact hu
    · rw [taskOf_ackTo hes, List.append_nil]
      exact h.tasks
  · rw [← h.seen w]
    by_cases hw : w = v
    · subst hw
      simp [after]
    · simp [after, update_of_ne hw]
  · rw [List.mem_cons, ← h.routes w x]
    by_cases hw : w = v
    · subst hw
      simp only [RoutesTo, after, update_self, Node.withTable_table, ha.lists,
        Prod.mk.injEq, true_and]
      constructor
      · intro ⟨hx, ct, hl⟩
        cases hl with
        | inl hl => exact .inr ⟨hx, ct, hl⟩
        | inr hl => exact .inl (top.inj hx hu hl.2)
      · intro hl
        cases hl with
        | inl he => exact ⟨he ▸ hu, _, .inr ⟨rfl, by rw [he]⟩⟩
        | inr hl => exact ⟨hl.1, hl.2.imp fun ct hc => .inl hc⟩
    · simp [RoutesTo, after, hw]

section
variable (hq : Quiet top nodes T)
include hq

theorem Sim.deliver (hname : m.dst.name = some e) (hread : m.dst.strName.isSome) (hid : m.subId ≠ 0)
    {v : V} {msg : Message} (hx : s.inflight[i]? = some (u, v, msg)) :
    Sim top nodes m e (s.step top (.deliver i)) f ∨
      ∃ l r ttl, f.copies = l ++ (u, v, ttl) :: r ∧ msg = Node.peerMsg m.dst m.subId true ttl ∧
        Sim top nodes m e (s.step top (.deliver i)) (f.receive (l ++ r) u v ttl) := by
  obtain ⟨l, r, hc, hrest⟩ := copies_eraseIdx h hx
  have hin : ∀ x ∈ s.inflight.eraseIdx i, x ∈ s.inflight := fun x hx => List.mem_of_mem_eraseIdx hx
  obtain ⟨hv, hmsg⟩ := h.msgs _ (List.mem_of_getElem? hx)
  have hu : u ∈ top.nbrs v := top.symm hv
  have hstep : s.step top (.deliver i) =
      ({ s with inflight := s.inflight.eraseIdx i } : Mesh V).after top v
        ((s.node v).handleNewMessage (top.conn v u) .Peer msg).node
        ((s.node v).handleNewMessage (top.conn v u) .Peer msg).effects := by
    simp [step, hx]
  rw [hstep]
  cases hmsg with
  | inr hack =>
    obtain ⟨ack, rfl⟩ := hack
    obtain ⟨acks, ha⟩ := Node.handleNewMessage_ack (s.node v) (top.conn v u) .Peer ack
    rw [ha]
    rw [copyOf_ack rfl] at hc
    have hs := h.stutter hin s.waiting
      (n := { s.node v with peerSync := { (s.node v).peerSync with pendingAcks := acks } })
      ⟨rfl, rfl, rfl, rfl, rfl⟩ rfl rfl (Node.ackTo_nil (top.conn v u))
    rw [hrest, ← show f.copies = l ++ r by simpa using hc] at hs
    exact .inl hs
  | inl hsub =>
    obtain ⟨ttl, rfl⟩ := hsub
    rw [copyOf_peerMsg] at hc
    refine .inr ⟨l, r, ttl, by simpa using hc, rfl, ?_⟩
    rw [← hrest]
    obtain ⟨c, hconn, hct, -⟩ := h.up hq hu
    obtain ⟨es, hes, hcase⟩ := Node.handleNewMessage_peerMsg hconn hct (h.running hq v) (h.table v)
      (hq.connType hu) hname hread hid ttl
    by_cases ht : ttl - 1 = 0
    · rw [if_pos ht] at hcase
      obtain ⟨res, hcase⟩ := hcase
      rw [hcase, Flood.State.receive, if_pos (.inl ht)]
      exact h.stutter hin s.waiting (Node.SameLinks.refl _) rfl rfl
        (Node.ackTo_nil (top.conn v u))
    · rw [if_neg ht] at hcase
      by_cases hseen : (s.node v).peerSync.hasSeenSubId m.subId = true
      · rw [if_pos hseen] at hcase
        rw [hcase, Flood.State.receive, if_pos (.inr ((h.seen v).mp hseen))]
        exact h.stutter hin s.waiting (Node.SameLinks.refl _) rfl rfl hes
      · rw [if_neg hseen] at hcase
        obtain ⟨t, first, ha, hcase⟩ := hcase
        rw [hcase]
        exact h.filed hu hin ht (fun hv => hseen ((h.seen v).mpr hv)) ha hes

/-- The connections a task sends to are those of the abstract one's targets. -/
theorem Sim.targetConns {k : Flood.Task V} (hk : ∀ u, k.source = some u → u ∈ top.nbrs k.node) :
    (s.node k.node).targetConns
        (k.source.elim .All fun u => .ExcludeConn (top.conn k.node u)) =
      (k.targets top.nbrs).map (top.conn k.node) := by
  have hp : (s.node k.node).peerSync.peerConns = (top.nbrs k.node).map (top.conn k.node) :=
    (h.links k.node).peerConns.trans (hq.peers k.node)
  unfold Flood.Task.targets
  cases hs : k.source with
  | none => simp [Node.targetConns, hp]
  | some u =>
    simp only [Option.elim_some, Node.targetConns, hp, List.filter_map]
    congr 1
    refine List.filter_congr fun w hw => ?_
    have hiff : top.conn k.node w = top.conn k.node u ↔ w = u :=
      ⟨top.inj hw (hk u hs), fun hwu => by rw [hwu]⟩
    simp [hiff]

theorem Sim.startForward {k : Flood.Task V}
    {task : ForwardTask} (hk : Forwards top m (k.node, task) k) :
    ∃ n, (s.node k.node).startForward task = (n, ((k.targets top.nbrs).map (top.conn k.node)).map
        fun c => .send c (Node.peerMsg m.dst m.subId true k.ttl)) ∧
      (s.node k.node).SameLinks n ∧ n.table = (s.node k.node).table ∧
      (n.peerSync.hasSeenSubId m.subId = true ↔
        (s.node k.node).peerSync.hasSeenSubId m.subId = true ∨ k.targets top.nbrs ≠ []) := by
  have hconns := h.targetConns hq hk.source
  by_cases htgt : k.targets top.nbrs = []
  · rw [Node.startForward_none hk.targets (by rw [hconns, htgt]; rfl)]
    exact ⟨_, by rw [htgt]; rfl, Node.SameLinks.refl _, rfl, by simp [htgt]⟩
  · have hup : ∀ c ∈ (s.node k.node).targetConns
        (k.source.elim .All fun u => .ExcludeConn (top.conn k.node u)),
        (s.node k.node).Up c .Peer := by
      rw [hconns]
      intro c hc
      obtain ⟨u, hu, rfl⟩ := List.mem_map.mp hc
      exact h.up hq (List.mem_filter.mp hu).1
    rw [Node.startForward_up hk.targets (by rw [hconns]; simpa using htgt) hup, hconns, hk.name,
      hk.subId, hk.add, hk.ttl]
    refine ⟨_, rfl, ⟨rfl, ?_, ?_, rfl, rfl⟩, rfl, ?_⟩
    · exact Node.forwarded_peerConns _ _ _ _ _
    · exact Node.forwarded_subscriptionTtl _ _ _ _ _
    · simp [hasSeenSubId, htgt]

theorem Sim.start {x : V × ForwardTask} (hx : s.spawned[i]? = some x) :
    ∃ l k r, f.tasks = l ++ k :: r ∧
      Sim top nodes m e (s.step top (.start i)) (f.start top.nbrs (l ++ r) k) := by
  obtain ⟨l, k, r, hl, hk, hrest⟩ := Vec.split_forall₂ h.tasks hx
  refine ⟨l, k, r, hl, ?_⟩
  obtain ⟨v, task⟩ := x
  obtain rfl : v = k.node := hk.node
  obtain ⟨n, hsf, hlinks, htable, hseen⟩ := h.startForward hq hk
  have hsub : ∀ u ∈ k.targets top.nbrs, u ∈ top.nbrs k.node := fun u hu => (List.mem_filter.mp hu).1
  have hcar := Topology.carried_map hsub (Node.peerMsg m.dst m.subId true k.ttl)
  have hstep : s.step top (.start i) = ({ s with
      spawned := s.spawned.eraseIdx i
      waiting := s.waiting ++ [(k.node, task)]
      started := (k.node, task) :: s.started } : Mesh V).after top k.node n
        (((k.targets top.nbrs).map (top.conn k.node)).map
          fun c => .send c (Node.peerMsg m.dst m.subId true k.ttl)) := by
    simp [step, hx, hsf]
  rw [hstep]
  refine ⟨fun w => (h.links w).trans ?_, fun w => ?_, fun x hx => ?_, ?_, ?_, .cons hk h.started,
    fun w => ?_, fun w u => ?_⟩
  · by_cases hw : w = k.node
    · subst hw
      simpa only [after, update_self] using hlinks
    · simp only [after, update_of_ne hw]
      exact Node.SameLinks.refl _
  · by_cases hw : w = k.node
    · subst hw
      simp only [after, update_self, htable]
      exact h.table _
    · simp only [after, update_of_ne hw]
      exact h.table w
  · cases List.mem_append.mp hx with
    | inl hx => exact h.msgs x hx
    | inr hx =>
      rw [hcar] at hx
      obtain ⟨u, hu, rfl⟩ := List.mem_map.mp hx
      exact ⟨hsub u hu, .inl ⟨_, rfl⟩⟩
  · simp only [after, hcar, List.filterMap_append, h.copies, List.filterMap_map]
    congr 1
    rw [← List.filterMap_eq_map]
    refine List.filterMap_congr fun u _ => ?_
    simp [copyOf_peerMsg]
  · simp only [after]
    have hnil : (((k.targets top.nbrs).map (top.conn k.node)).map fun c =>
        Effect.send c (Node.peerMsg m.dst m.subId true k.ttl)).filterMap (taskOf k.node) = [] := by
      rw [List.filterMap_eq_nil_iff]
      intro y hy
      obtain ⟨c, -, rfl⟩ := List.mem_map.mp hy
      rfl
    rw [hnil, List.append_nil]
    exact hrest
  · by_cases hw : w = k.node
    · subst hw
      simp only [after, update_self, hseen, h.seen, Flood.State.start]
      by_cases htgt : k.targets top.nbrs = []
      · simp [htgt]
      · simp [htgt]
    · simp only [after, update_of_ne hw, h.seen, Flood.State.start]
      split
      · exact Iff.rfl
      · simp [hw]
  · rw [Flood.State.start, ← h.routes w u]
    by_cases hw : w = k.node
    · subst hw
      simp [RoutesTo, after, htable]
    · simp [RoutesTo, after, hw]

end

theorem Sim.finish (i : Nat) (result : Except DataPathError Unit)
    (timeout : Bool) : Sim top nodes m e (s.step top (.finish i result timeout)) f := by
  cases hx : s.waiting[i]? with
  | none => simpa only [step, hx] using h
  | some x =>
    obtain ⟨v, task⟩ := x
    simp only [step, hx]
    have hcopies := h.copies
    cases timeout with
    | false =>
      have hs := h.stutter (fun _ hx => hx) (s.waiting.eraseIdx i) (Node.SameLinks.refl (s.node v))
        rfl rfl (Node.ackTo_ackUpstream (s.node v) task result)
      rw [hcopies] at hs
      exact hs
    | true =>
      have hs := h.stutter (fun _ hx => hx) (s.waiting.eraseIdx i)
        (n := { s.node v with peerSync := (s.node v).peerSync.removeAck task.subId })
        ⟨rfl, rfl, rfl, rfl, rfl⟩ rfl rfl (Node.ackTo_ackUpstream
          { s.node v with peerSync := (s.node v).peerSync.removeAck task.subId } task result)
      rw [hcopies] at hs
      exact hs

end

theorem sim_init (hq : Quiet top nodes T) (hm : Subscribes (nodes o) m e) :
    Sim top nodes m e (init top nodes o m) (Flood.init o T) := by
  obtain ⟨t, first, es, ha, hes, hout⟩ := Node.handleNewMessage_first hm (hq.running o) (hq.table o)
    (hq.seen o)
  obtain ⟨c, hc, hct⟩ := hm.isLocal
  have hempty : ∀ v, (nodes v).table.Inv (nodes v).connType := fun v => by
    rw [hq.table v]
    exact inv_empty _
  have hnone : ∀ v u, ¬ ∃ ct, (nodes v).table.routing.Lists e.route ct (top.conn v u) := by
    rintro v u ⟨ct, hl⟩
    rw [hq.table v] at hl
    exact Routing.not_lists_empty hl
  have hquiet : es.filterMap (top.carried o) = [] ∧ es.filterMap (taskOf o) = [] := by
    constructor <;>
    · rw [List.filterMap_eq_nil_iff]
      intro x hx
      obtain ⟨msg, rfl⟩ := hes x hx
      rfl
  have hinit : init top nodes o m = ⟨update nodes o ((nodes o).withTable t), [],
      [(o, (nodes o).localTask m.conn (SlimHeader.new m.source m.dst m.identity {}) m.dst m.subId
        true)], [], []⟩ := by
    simp [init, hout, after, hquiet, Topology.carried, taskOf]
  rw [hinit]
  refine ⟨fun v => ?_, fun v => ?_, by simp, rfl, .cons ?_ .nil, .nil, fun v => ?_, fun v u => ?_⟩
  · by_cases hv : v = o
    · subst hv
      simp only [update_self]
      exact Node.sameLinks_withTable _ _
    · simp only [update_of_ne hv]
      exact Node.SameLinks.refl _
  · by_cases hv : v = o
    · subst hv
      simp only [update_self]
      exact ha.inv
    · simp only [update_of_ne hv]
      exact hempty v
  · exact ⟨rfl, rfl, rfl, rfl, hq.ttl o, rfl, fun u hu => by cases hu⟩
  · by_cases hv : v = o
    · subst hv
      simp [hasSeenSubId, hq.seen, Flood.init]
    · simp [update_of_ne hv, hasSeenSubId, hq.seen, Flood.init]
  · refine iff_of_false ?_ (by simp [Flood.init])
    rintro ⟨hu, ct, hl⟩
    by_cases hv : v = o
    · subst hv
      simp only [update_self, Node.withTable_table, ha.lists] at hl
      cases hl with
      | inl hl => exact hnone v u ⟨ct, hl⟩
      | inr hl =>
        -- the application's connection is not a peer link
        have hty := hq.connType hu
        rw [hl.2.2, Node.connType_eq hc, hct] at hty
        cases hty
    · simp only [update_of_ne hv] at hl
      exact hnone v u ⟨ct, hl⟩

/-! ## Runs -/

/-- What deliveries and starts of the flood keep, the steps of the mesh keep. -/
theorem Sim.step (hq : Quiet top nodes T) (hm : Subscribes (nodes o) m e) {I : Flood.State V → Prop}
    {a : Action} (h : ∃ f, Sim top nodes m e s f ∧ I f)
    (hreceive : ∀ f i l r u v ttl, Sim top nodes m e s f → I f → a = .deliver i →
      s.inflight[i]? = some (u, v, Node.peerMsg m.dst m.subId true ttl) →
      f.copies = l ++ (u, v, ttl) :: r → I (f.receive (l ++ r) u v ttl))
    (hstart : ∀ f l k r, I f → f.tasks = l ++ k :: r → I (f.start top.nbrs (l ++ r) k)) :
    ∃ f, Sim top nodes m e (s.step top a) f ∧ I f := by
  obtain ⟨f, hs, hf⟩ := h
  cases a with
  | deliver i =>
    cases hx : s.inflight[i]? with
    | none => exact ⟨f, by simpa only [Mesh.step, hx] using hs, hf⟩
    | some x =>
      obtain ⟨u, v, msg⟩ := x
      rcases hs.deliver hq hm.name hm.readable hm.subId hx with hs' | ⟨l, r, ttl, hc, rfl, hs'⟩
      · exact ⟨f, hs', hf⟩
      · exact ⟨_, hs', hreceive f i l r u v ttl hs hf rfl hx hc⟩
  | start i =>
    cases hx : s.spawned[i]? with
    | none => exact ⟨f, by simpa only [Mesh.step, hx] using hs, hf⟩
    | some x =>
      obtain ⟨l, k, r, hk, hs⟩ := hs.start hq hx
      exact ⟨_, hs, hstart f l k r hf hk⟩
  | finish i result timeout => exact ⟨f, hs.finish i result timeout, hf⟩

/-- **No routing loop**: in every state, routes form no cycle, and a path of routes that goes no
further is at the node of the application. -/
theorem flood_no_loop (top : Topology V) (nodes : V → Node) (T : Nat) (hq : Quiet top nodes T)
    (o : V) (m : LocalMsg) (e : EncodedName) (hm : Subscribes (nodes o) m e) (as : List Action) :
    (∀ v, ¬ TransGen (RoutesTo top e (as.foldl (step top) (init top nodes o m))) v v) ∧
      ∀ v w, TransGen (RoutesTo top e (as.foldl (step top) (init top nodes o m))) v w →
        (∀ u, ¬ RoutesTo top e (as.foldl (step top) (init top nodes o m)) w u) → w = o := by
  obtain ⟨f, hs, hf⟩ := Run.invariant (I := fun s => ∃ f, Sim top nodes m e s f ∧ Flood.Inv o f)
    (fun _ _ h => Sim.step hq hm h
      (fun _ _ _ _ _ _ _ _ hf _ _ hc => hf.receive hc) fun _ _ _ _ hf hk => hf.start top.nbrs hk)
    ⟨_, sim_init hq hm, Flood.inv_init o T⟩ as
  have hmono : ∀ v w, TransGen (RoutesTo top e (as.foldl (step top) (init top nodes o m)))
      v w → TransGen (fun v u => (v, u) ∈ f.routes) v w :=
    fun v w hvw => TransGen.mono (fun a b hab => (hs.routes a b).mp hab) v w hvw
  refine ⟨fun v hv => hf.no_cycle v (hmono v v hv), fun v w hvw hend => ?_⟩
  exact hf.ends_at_origin (hmono v w hvw) fun u hu => hend u ((hs.routes w u).mpr hu)

omit [DecidableEq V] in
theorem Sim.dropKeeps (h : Sim top nodes m e s f) {v : V} {ttl : Nat}
    (hx : s.inflight[i]? = some (u, v, Node.peerMsg m.dst m.subId true ttl))
    (hd : (Action.deliver i).DropKeepsTtl s) : f.DropKeeps v ttl := by
  intro hv hl
  obtain ⟨x, hxs, hxv, hle⟩ := hd _ hx _ (Message.asSubscription_subscription true
    (SlimHeader.new m.dst m.dst "" { ttl }) m.subId) ((h.seen v).mpr hv) hl
  cases List.mem_append.mp hxs with
  | inl ht =>
    obtain ⟨k, hk, hf⟩ := Vec.exists_of_mem_forall₂ h.tasks ht
    exact ⟨k, .inl hk, hf.node.symm.trans hxv, hf.ttl ▸ hle⟩
  | inr ht =>
    obtain ⟨k, hk, hf⟩ := Vec.exists_of_mem_forall₂ h.started ht
    exact ⟨k, .inr hk, hf.node.symm.trans hxv, hf.ttl ▸ hle⟩

/-- **Reach**: in a run in which no dropped copy had more hops left than its receiver has forwarded
or will forward with, when nothing is under way any more every node within the TTL has a route. -/
theorem flood_reaches (top : Topology V) (hconn : top.graph.Connected) (nodes : V → Node) (T : Nat)
    (hq : Quiet top nodes T) (o : V) (m : LocalMsg) (e : EncodedName)
    (hm : Subscribes (nodes o) m e) (as : List Action)
    (hd : Run.Meets (step top) (fun s a => a.DropKeepsTtl s) (init top nodes o m) as)
    (hdone : (as.foldl (step top) (init top nodes o m)).Done) (v : V) (hv : v ≠ o)
    (hdist : top.graph.dist o v ≤ T - 1) :
    ∃ u, RoutesTo top e (as.foldl (step top) (init top nodes o m)) v u := by
  obtain ⟨f, hs, hf⟩ := Run.Meets.invariant
    (I := fun s => ∃ f, Sim top nodes m e s f ∧ Flood.Covers top.nbrs o T f)
    (fun _ _ h hd => Sim.step hq hm h
      (fun _ _ _ _ _ _ _ hs hf ha hx hc => hf.receive hc (hs.dropKeeps hx (ha ▸ hd)))
      fun _ _ _ _ hf hk => hf.start hk)
    ⟨_, sim_init hq hm, Flood.covers_init top.nbrs o T⟩ hd
  obtain ⟨hin, hsp, -⟩ := hdone
  have hcopies : f.copies = [] := by rw [← hs.copies, hin]; rfl
  have htasks : f.tasks = [] := by
    have ht := hs.tasks
    rw [hsp] at ht
    exact List.forall₂_nil_left_iff.mp ht
  obtain ⟨p, hp⟩ := hconn.exists_walk_length_eq_dist o v
  have hpos : 0 < p.length := by
    cases p with
    | nil => exact absurd rfl hv
    | cons _ p => simp
  obtain ⟨u, hu⟩ := hf.reached hcopies htasks (fun _ _ hadj => hadj) p (by omega) hv
  exact ⟨u, (hs.routes v u).mpr hu⟩

/-- **Range**: in every state, a node with a route is within the TTL of the node of the
application. -/
theorem flood_within (top : Topology V) (nodes : V → Node) (T : Nat) (hq : Quiet top nodes T)
    (o : V) (m : LocalMsg) (e : EncodedName) (hm : Subscribes (nodes o) m e) (as : List Action)
    (v u : V) (hr : RoutesTo top e (as.foldl (step top) (init top nodes o m)) v u) :
    ∃ p : top.graph.Walk o v, p.length ≤ T - 1 := by
  obtain ⟨f, hs, hf⟩ := Run.invariant
    (I := fun s => ∃ f, Sim top nodes m e s f ∧ Flood.Ranged top.graph o T f)
    (fun _ _ h => Sim.step hq hm h (fun _ _ _ _ _ _ _ _ hf _ _ hc => hf.receive hc)
      fun _ _ _ _ hf hk => hf.start (fun _ _ hadj => hadj) hk)
    ⟨_, sim_init hq hm, Flood.ranged_init o T⟩ as
  exact hf.route v u ((hs.routes v u).mp hr)

end

/-! ## A shortcut -/

/-- Node 0 is linked with 1 and 2, which are linked with each other; 3 to 8 follow 2 in a row. -/
def shortcutNbrs : Fin 9 → List (Fin 9)
  | 0 => [1, 2]
  | 1 => [0, 2]
  | 2 => [0, 1, 3]
  | 3 => [2, 4]
  | 4 => [3, 5]
  | 5 => [4, 6]
  | 6 => [5, 7]
  | 7 => [6, 8]
  | 8 => [7]

def shortcut : Topology (Fin 9) where
  nbrs := shortcutNbrs
  conn _ v := 10 + UInt64.ofNat v
  symm {u v} := by revert u v; decide
  irrefl := by decide
  inj {u v w} := by revert u v w; decide +kernel

/-- An application on connection 1, and peers on connections 10 to 18. -/
def shortcutNodes (v : Fin 9) : Node where
  forwarder :=
    { connectionTable := (List.range 9).foldl
        (fun t i => t.insert (10 + UInt64.ofNat i) { connectionType := .Peer })
        (AList.insert 1 { connectionType := .Local } ∅) }
  peerSync :=
    { peerConns := (shortcutNbrs v).map fun u => 10 + UInt64.ofNat u,
      subscriptionTtl := DEFAULT_TTL }

def shortcutMsg : LocalMsg := ⟨1, true, sampleName, sampleName, "", 7⟩

theorem shortcut_quiet : Quiet shortcut shortcutNodes DEFAULT_TTL where
  up := fun v u hu =>
    ⟨{ connectionType := .Peer }, by revert v u; decide +kernel, rfl, rfl, rfl, rfl⟩
  peers := by decide +kernel
  ttl := fun _ => rfl
  running := fun _ => rfl
  table := fun _ => rfl
  seen := fun _ => rfl

theorem shortcut_subscribes :
    Subscribes (shortcutNodes 0) shortcutMsg ⟨1, 2, 3, some ⟨0, 5⟩⟩ where
  add := rfl
  subId := by decide
  source := rfl
  name := rfl
  readable := rfl
  isLocal := ⟨{ connectionType := .Local }, by decide +kernel, rfl⟩

theorem shortcut_connected : shortcut.graph.Connected := by
  -- every node but 0 has a link to a smaller one
  have hdown : ∀ v : Fin 9, v ≠ 0 → ∃ u < v, v ∈ shortcutNbrs u := by decide
  have hreach : ∀ v : Fin 9, shortcut.graph.Reachable 0 v := by
    intro v
    induction v using WellFoundedLT.induction with
    | ind v ih =>
      by_cases hv : v = 0
      · rw [hv]
      · obtain ⟨u, hlt, hu⟩ := hdown v hv
        exact (ih u hlt).trans (SimpleGraph.Adj.reachable hu)
  exact ⟨fun u v => (hreach u).symm.trans (hreach v)⟩

theorem shortcut_dist : shortcut.graph.dist 0 8 ≤ DEFAULT_TTL - 1 := by
  have hadj : ∀ u v : Fin 9, v ∈ shortcutNbrs u → shortcut.graph.Adj u v := fun _ _ h => h
  exact SimpleGraph.dist_le (.cons (hadj 0 2 (by decide)) (.cons (hadj 2 3 (by decide))
    (.cons (hadj 3 4 (by decide)) (.cons (hadj 4 5 (by decide)) (.cons (hadj 5 6 (by decide))
    (.cons (hadj 6 7 (by decide)) (.cons (hadj 7 8 (by decide)) .nil)))))))

/-- Every copy is relayed and delivered, the tasks end and their acknowledgements are delivered. -/
def settled : List Action :=
  (List.replicate 25 [.start 0, .deliver 0]).flatten ++
    List.replicate 9 (.finish 0 (.ok ()) false) ++ List.replicate 9 (.deliver 0)

/-- The direct copy reaches node 2 first. -/
def directFirst : List Action := [.start 0, .deliver 1] ++ settled

theorem flood_reaches_direct :
    Run.Meets (step shortcut) (fun s a => a.DropKeepsTtl s)
        (init shortcut shortcutNodes 0 shortcutMsg) directFirst ∧
      ∃ u, RoutesTo shortcut ⟨1, 2, 3, some ⟨0, 5⟩⟩
        (directFirst.foldl (step shortcut) (init shortcut shortcutNodes 0 shortcutMsg)) 8 u := by
  have hd : Run.Meets (step shortcut) (fun s a => a.DropKeepsTtl s)
      (init shortcut shortcutNodes 0 shortcutMsg) directFirst := by decide +kernel
  exact ⟨hd, flood_reaches shortcut shortcut_connected shortcutNodes DEFAULT_TTL shortcut_quiet 0
    shortcutMsg _ shortcut_subscribes directFirst hd (by decide +kernel) 8 (by decide)
    shortcut_dist⟩

theorem flood_no_loop_direct :
    Quiet shortcut shortcutNodes DEFAULT_TTL ∧
      Subscribes (shortcutNodes 0) shortcutMsg ⟨1, 2, 3, some ⟨0, 5⟩⟩ ∧
      ∀ v, ¬ TransGen (RoutesTo shortcut ⟨1, 2, 3, some ⟨0, 5⟩⟩
        (directFirst.foldl (step shortcut) (init shortcut shortcutNodes 0 shortcutMsg))) v v :=
  ⟨shortcut_quiet, shortcut_subscribes, (flood_no_loop shortcut shortcutNodes DEFAULT_TTL
    shortcut_quiet 0 shortcutMsg _ shortcut_subscribes directFirst).1⟩

theorem flood_within_direct : ∃ p : shortcut.graph.Walk 0 8, p.length ≤ DEFAULT_TTL - 1 :=
  flood_within shortcut shortcutNodes DEFAULT_TTL shortcut_quiet 0 shortcutMsg _
    shortcut_subscribes directFirst 8 7 ⟨by decide, .Peer, by decide +kernel⟩

/-- The copy by way of node 1 reaches node 2 first, with one hop less. -/
def detourFirst : List Action := [.start 0, .deliver 0, .start 0, .deliver 1] ++ settled

/-- Node 2 relays the copy that made a detour and drops the direct one, so node 8 gets none. -/
theorem flood_stops_short :
    ¬ ∀ (V : Type) [Fintype V] [DecidableEq V] (top : Topology V), top.graph.Connected →
      ∀ nodes : V → Node, Quiet top nodes DEFAULT_TTL →
      ∀ (o : V) (m : LocalMsg) (e : EncodedName), Subscribes (nodes o) m e → ∀ as : List Action,
        (as.foldl (step top) (init top nodes o m)).Done → ∀ v, v ≠ o →
          top.graph.dist o v ≤ DEFAULT_TTL - 1 →
          ∃ u, RoutesTo top e (as.foldl (step top) (init top nodes o m)) v u := by
  intro h
  obtain ⟨u, -, ct, pe, hpe, -⟩ := h (Fin 9) shortcut shortcut_connected shortcutNodes
    shortcut_quiet 0 shortcutMsg _ shortcut_subscribes detourFirst (by decide +kernel) 8 (by decide)
    shortcut_dist
  have hnone : (((detourFirst.foldl (step shortcut)
      (init shortcut shortcutNodes 0 shortcutMsg)).node 8).table.routing.lookup
        (EncodedName.route ⟨1, 2, 3, some ⟨0, 5⟩⟩).1).isNone := by decide +kernel
  rw [hpe] at hnone
  cases hnone

end Mesh

end Slim
