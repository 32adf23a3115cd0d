import Slim.Network.PeerLink

/-!
# Route convergence of two peers

The invariant looks at `b` as it will be once it has processed what is on the link (`drained`): it
then holds, for every prefix and id with a local subscription at `a`, exactly the record of the
subscription that opened it. With an empty link, `b` has a route to `a` for exactly the names that
are subscribed at `a` (`peer_route_iff`).

The forwarded unsubscription carries the id and the encoding of the subscription that left last,
while the peer's record has those of the subscription that came first. So the invariant asks that
the last to leave is the one that opened the name (`Action.ClosesAsOpened`);
`peer_keeps_stale_route` shows what happens otherwise.
-/

namespace Slim

open Function SubscriptionTable

namespace Node

/-! ## Settling -/

theorem settle_fold {es : List Effect} (h : ∀ e ∈ es, ∀ t, e ≠ .spawn t) (n : Node)
    (acc : List Effect) : es.foldl settleStep (n, acc) = (n, acc ++ es) := by
  induction es generalizing acc with
  | nil => simp
  | cons e es ih =>
    have he : ∀ t, e ≠ .spawn t := h e List.mem_cons_self
    have ht := ih (fun x hx => h x (List.mem_cons_of_mem e hx)) (acc ++ [e])
    cases e with
    | spawn task => exact absurd rfl (he task)
    | send c m => simpa [settleStep] using ht
    | status c m => simpa [settleStep] using ht
    | controlPlane m => simpa [settleStep] using ht

theorem settle_plain {out : Out} (h : ∀ e ∈ out.effects, ∀ t, e ≠ .spawn t) :
    settle out = (out.node, out.effects) := by
  rw [settle, settle_fold h, List.nil_append]

theorem settle_spawn {n : Node} {r : Except (Fault DataPathError) Unit} {es : List Effect}
    (task : ForwardTask) (h : ∀ e ∈ es, ∀ t, e ≠ .spawn t) :
    settle ⟨r, n, es ++ [.spawn task]⟩ =
      ((n.startForward task).1, es ++ (n.startForward task).2) := by
  simp [settle, settle_fold h, settleStep]

end Node

/-! ## What is sent -/

theorem sentTo_eq_nil {conn : ConnId} {es : List Effect}
    (h : ∀ e ∈ es, ∀ m, e ≠ .send conn m) : sentTo conn es = [] := by
  rw [sentTo, List.filterMap_eq_nil_iff]
  intro e he
  cases e with
  | send c m =>
    by_cases hc : c = conn
    · exact absurd (by rw [hc]) (h _ he m)
    · simp [hc]
  | status c m => rfl
  | controlPlane m => rfl
  | spawn t => rfl

theorem sentTo_ackTo {conn conn' : ConnId} {es : List Effect} (h : Node.AckTo conn' es)
    (hne : conn' ≠ conn) : sentTo conn es = [] := sentTo_eq_nil fun e he m hm => by
  obtain ⟨ack, hk⟩ := h e he
  rw [hk] at hm
  cases hm
  exact hne rfl

/-- A message that goes out when the table reports a transition. -/
def onTransition (r : Except (Fault DataPathError) Bool) (m : Message) : List Message :=
  match r with
  | .ok true => [m]
  | _ => []

theorem LocalMsg.message_eq (m : LocalMsg) :
    m.message = .subscription m.add (SlimHeader.new m.source m.dst m.identity {}) m.subId := by
  unfold message
  cases m.add <;> rfl

namespace Node

variable {n : Node}

/-- **An application message at a node with one peer**: refused or dropped, or the table is updated
and a transition is sent to the peer. -/
theorem settle_app {m : LocalMsg} {c : Connection} {connB : ConnId}
    (hc : n.getConnection m.conn = some c) (hl : c.connectionType = .Local)
    (hup : n.Up connB .Peer) (hp : n.peerSync.peerConns = [connB]) (hrun : n.running = true) :
    ∃ n' effects, settle (n.handleNewMessage m.conn .Local m.message) = (n', effects) ∧
      SameLinks n n' ∧
      (n'.table = n.table ∧ sentTo connB effects = [] ∨
        ∃ e, m.dst.name = some e ∧
          n'.table = (tableStep n.table m.dst m.conn .Local m.add m.subId).2 ∧
          sentTo connB effects = onTransition
            (tableStep n.table m.dst m.conn .Local m.add m.subId).1
            (peerMsg m.dst m.subId m.add n.peerSync.subscriptionTtl)) := by
  have hne : m.conn ≠ connB := fun h => by
    obtain ⟨c', hc', ht, -⟩ := hup
    rw [← h, hc, Option.some.injEq] at hc'
    rw [← hc', hl] at ht
    cases ht
  rw [LocalMsg.message_eq]
  cases hv : (SlimHeader.new m.source m.dst m.identity {}).validateRouted with
  | error err =>
    refine ⟨n, [], ?_, SameLinks.refl n, .inl ⟨rfl, rfl⟩⟩
    simp [handleNewMessage, hv, settle]
  | ok u =>
    obtain ⟨src, dst, -, -, hd, hn⟩ := SlimHeader.validateRouted_eq_ok.mp hv
    cases hd
    obtain ⟨e, he⟩ := Option.isSome_iff_exists.mp hn
    rw [handleNewMessage_subscription hv rfl, if_neg (by simp [ConnType.isLocal]),
      processSubscription_at (f := none) hc (by rfl) (by rfl) (by rfl)]
    split
    · have h := ackTo_ackIfAsked n m.conn m.subId (.ok ())
      exact ⟨_, _, settle_plain h.no_spawn, SameLinks.refl n, .inl ⟨rfl, sentTo_ackTo h hne⟩⟩
    · rw [hl]
      rcases hr : tableStep n.table m.dst m.conn .Local m.add m.subId with ⟨r, t⟩
      have hsame := sameLinks_withTable n t
      rcases r with (err | msg) | transition
      · by_cases hz : m.subId = 0
        · simp only [hz]
          exact ⟨_, _, settle_plain (by simp), hsame, .inr ⟨e, he, rfl, rfl⟩⟩
        · simp only [hz, ne_eq]
          have h := ackTo_sendSubscriptionAck (n.withTable t) m.conn m.subId (.error err)
          exact ⟨_, _, settle_plain h.no_spawn, hsame, .inr ⟨e, he, rfl, sentTo_ackTo h hne⟩⟩
      · exact ⟨_, _, settle_plain (by simp), hsame, .inr ⟨e, he, rfl, rfl⟩⟩
      · have hpc : c.isPeerConnection = false := by simp [Connection.isPeerConnection, hl]
        simp only [hpc]
        rw [forwardSubscription_local (n := n.withTable t) hl hrun]
        cases transition with
        | false =>
          have h := ackTo_ackIfAsked (n.withTable t) m.conn m.subId (.ok ())
          exact ⟨_, _, settle_plain h.no_spawn, hsame, .inr ⟨e, he, rfl, sentTo_ackTo h hne⟩⟩
        | true =>
          have htgt : (n.withTable t).targetConns .All = [connB] := hp
          have hupc : ∀ x ∈ (n.withTable t).targetConns .All, (n.withTable t).Up x .Peer := by
            intro x hx
            rw [htgt, List.mem_singleton] at hx
            rw [hx]
            exact hsame.up hup
          simp only [↓reduceIte]
          rw [settle_spawn _ notified_no_spawn, startForward_up rfl (by rw [htgt]; simp) hupc, htgt]
          refine ⟨_, _, rfl, ⟨rfl, ?_, ?_, rfl, rfl⟩, .inr ⟨e, he, rfl, ?_⟩⟩
          · exact forwarded_peerConns _ _ _ _ _
          · exact forwarded_subscriptionTtl _ _ _ _ _
          · simp [sentTo, localTask, onTransition]

end Node

/-! ## Tables of the two nodes -/

namespace SubscriptionTable

variable {q : Prefix × BitVec 128} {ty : ConnId → ConnType} {e : EncodedName} {conn : ConnId}
  {sid : SubId} {ct : ConnType} {first : Bool}

def Subscribed (t : SubscriptionTable) (q : Prefix × BitVec 128) : Prop :=
  ∃ k, t.Holds k ∧ k.encoded.route = q

variable {t t' : SubscriptionTable}

theorem subscribed_iff_lists (hi : t.Inv fun _ => ct) (hc : t.Complete fun _ => ct) :
    t.Subscribed q ↔ ∃ c, t.routing.Lists q ct c := by
  constructor
  · rintro ⟨k, hk, rfl⟩
    exact ⟨k.connId, hc k hk⟩
  · rintro ⟨c, hl⟩
    obtain ⟨k, hk, -, hq⟩ := hi.held hl
    exact ⟨k, hk, hq⟩

/-- An accepted addition without strings found an entry, and so a record, of the prefix. -/
theorem subscribed_of_add (hi : t.Inv ty) {name : ProtoName}
    (hr : t.addSubscription name conn ct sid = (.ok first, t')) (he : name.name = some e)
    (hs : name.strName = none) : ∃ q, q.1 = e.prefix3 ∧ t.Subscribed q := by
  simp only [addSubscription, he] at hr
  cases hl : t.routing.lookup e.prefix3 with
  | none => simp [entryOrNew, hl, hs] at hr
  | some pe =>
    obtain ⟨id, hid⟩ := List.exists_mem_of_ne_nil _ (hi.routing.nonempty hl)
    obtain ⟨ct', c, hc⟩ := (hi.routing.mem_ids_iff hl).mp hid
    obtain ⟨k, hk, -, hq⟩ := hi.held hc
    exact ⟨(e.prefix3, id), rfl, k, hk, hq⟩

theorem Added.subscribed (h : Added ty t t' e conn sid first) (q : Prefix × BitVec 128) :
    t'.Subscribed q ↔ t.Subscribed q ∨ q = e.route := by
  constructor
  · rintro ⟨k, hk, rfl⟩
    rcases (h.holds k).mp hk with hk | rfl
    · exact .inl ⟨k, hk, rfl⟩
    · exact .inr rfl
  · rintro (⟨k, hk, rfl⟩ | rfl)
    · exact ⟨k, (h.holds k).mpr (.inl hk), rfl⟩
    · exact ⟨_, (h.holds _).mpr (.inr rfl), rfl⟩

theorem Removed.subscribed_of_ne {last : Bool} (h : Removed ty t t' e conn sid last)
    (hq : q ≠ e.route) : t'.Subscribed q ↔ t.Subscribed q := by
  constructor
  · rintro ⟨k, hk, rfl⟩
    exact ⟨k, ((h.holds k).mp hk).1, rfl⟩
  · rintro ⟨k, hk, rfl⟩
    refine ⟨k, (h.holds k).mpr ⟨hk, ?_⟩, rfl⟩
    rintro rfl
    exact hq rfl

end SubscriptionTable

/-- The table `d` of the peer mirrors the table `t` of a node: for every prefix and id that is
subscribed at the node it has the record of the subscription that opened it, and nothing else. -/
structure Mirror (connA : ConnId) (t d : SubscriptionTable)
    (opened : Prefix × BitVec 128 → Option (SubId × EncodedName)) : Prop where
  inv : t.Inv fun _ => .Local
  complete : t.Complete fun _ => .Local
  peerInv : d.Inv fun _ => .Peer
  peerComplete : d.Complete fun _ => .Peer
  opens : ∀ q, t.Subscribed q → ∃ sid e, opened q = some (sid, e) ∧ e.route = q
  holds : ∀ k, d.Holds k ↔ k.connId = connA ∧ t.Subscribed k.encoded.route ∧
    opened k.encoded.route = some (k.subId, k.encoded)

namespace Mirror

variable {connA conn : ConnId} {t t' d : SubscriptionTable} {sid : SubId} {e : EncodedName}
  {name : ProtoName} {opened : Prefix × BitVec 128 → Option (SubId × EncodedName)}

section
variable (h : Mirror connA t d opened)
include h

theorem lists_iff (q : Prefix × BitVec 128) :
    (∃ ct, d.routing.Lists q ct connA) ↔ t.Subscribed q := by
  constructor
  · rintro ⟨ct, hl⟩
    obtain ⟨k, hk, -, rfl⟩ := h.peerInv.held hl
    exact ((h.holds k).mp hk).2.1
  · intro hs
    obtain ⟨sid, e, ho, rfl⟩ := h.opens q hs
    exact ⟨.Peer, h.peerComplete ⟨connA, sid, e⟩ ((h.holds _).mpr ⟨rfl, hs, ho⟩)⟩

theorem frame (hi : t'.Inv fun _ => .Local)
    (hc : t'.Complete fun _ => .Local) (hs : ∀ q, t'.Subscribed q ↔ t.Subscribed q) :
    Mirror connA t' d opened where
  inv := hi
  complete := hc
  peerInv := h.peerInv
  peerComplete := h.peerComplete
  opens := fun q hq => h.opens q ((hs q).mp hq)
  holds := fun k => by rw [h.holds, hs]

theorem opening {first : Bool}
    (ha : Added (fun _ => .Local) t t' e conn sid first)
    (he : name.name = some e) (hno : ¬ t.Subscribed e.route)
    (hs : name.strName = none → ∃ q, q.1 = e.prefix3 ∧ t.Subscribed q) :
    Mirror connA t' (d.addSubscription name connA .Peer sid).2
      (update opened e.route (some (sid, e))) := by
  have hopens : ∀ q, t'.Subscribed q → ∃ sid' e',
      update opened e.route (some (sid, e)) q = some (sid', e') ∧ e'.route = q := by
    intro q hq
    by_cases hqe : q = e.route
    · subst hqe
      exact ⟨sid, e, update_self .., rfl⟩
    · rw [update_of_ne hqe]
      exact h.opens q (((ha.subscribed q).mp hq).resolve_right hqe)
  rcases hr : d.addSubscription name connA .Peer sid with ⟨res, d'⟩
  rcases h.peerInv.add hr with ⟨msg, rfl, rfl, hp⟩ | ⟨e', first', he', rfl, ha'⟩
  · -- the peer would need strings for a new entry, but it has one for the prefix
    obtain ⟨hsn, hl⟩ := hp e he
    obtain ⟨q, hq, hsub⟩ := hs hsn
    obtain ⟨ct, pe, hpe, -⟩ := (h.lists_iff q).mpr hsub
    rw [hq, hl] at hpe
    cases hpe
  · obtain rfl : e = e' := Option.some.inj (he.symm.trans he')
    refine ⟨ha.inv, ha.complete h.complete, ha'.inv, ha'.complete h.peerComplete, hopens,
      fun k => ?_⟩
    rw [ha'.holds, h.holds, ha.subscribed]
    by_cases hq : k.encoded.route = e.route
    · rw [hq, update_self]
      constructor
      · rintro (⟨-, hk, -⟩ | rfl)
        · exact absurd hk hno
        · exact ⟨rfl, .inr rfl, rfl⟩
      · rintro ⟨hk, -, ho⟩
        cases ho
        exact .inr (by rw [← hk])
    · rw [update_of_ne hq]
      constructor
      · rintro (⟨hk, hsub, ho⟩ | rfl)
        · exact ⟨hk, .inl hsub, ho⟩
        · exact absurd rfl hq
      · rintro ⟨hk, hsub, ho⟩
        exact .inl ⟨hk, hsub.resolve_right hq, ho⟩

/-- The last unsubscription of a name, forwarded: it is for the subscription that opened it. -/
theorem closing {last : Bool}
    (hd : Removed (fun _ => .Local) t t' e conn sid last)
    (hc : t'.Complete fun _ => .Local) (he : name.name = some e) (hno : ¬ t'.Subscribed e.route)
    (ho : opened e.route = some (sid, e)) :
    Mirror connA t' (d.removeSubscription name connA .Peer sid).2 opened := by
  have hsub : ∀ q, t'.Subscribed q → q ≠ e.route ∧ t.Subscribed q := by
    intro q hq
    have hqe : q ≠ e.route := by
      rintro rfl
      exact hno hq
    exact ⟨hqe, (hd.subscribed_of_ne hqe).mp hq⟩
  have hheld : d.Holds ⟨connA, sid, e⟩ := (h.holds _).mpr ⟨rfl, ⟨_, hd.held, rfl⟩, ho⟩
  -- the record of the opening subscription is the only one the peer has for the name
  have honly : ∀ k, d.Holds k → k.encoded.route = e.route → k = ⟨connA, sid, e⟩ := by
    intro k hk hq
    obtain ⟨hkc, -, hko⟩ := (h.holds k).mp hk
    rw [hq, ho] at hko
    cases hko
    rw [← hkc]
  rcases hr : d.removeSubscription name connA .Peer sid with ⟨res, d'⟩
  rcases h.peerInv.remove_complete h.peerComplete hr with ⟨f, -, -, hp⟩ | ⟨e', last', he', rfl, hd'⟩
  · exact absurd hheld (hp e he)
  · obtain rfl : e = e' := Option.some.inj (he.symm.trans he')
    refine ⟨hd.inv, hc, hd'.inv, hd'.complete h.peerComplete fun _ ⟨k, hk, hne, _, hq⟩ =>
      absurd (honly k hk hq) hne, fun q hq => h.opens q (hsub q hq).2, fun k => ?_⟩
    rw [hd'.holds]
    constructor
    · rintro ⟨hk, hne⟩
      have hq : k.encoded.route ≠ e.route := fun hq => hne (honly k hk hq)
      rw [h.holds, ← hd.subscribed_of_ne hq] at hk
      exact hk
    · rintro ⟨hk, hs, hko⟩
      obtain ⟨hq, hs⟩ := hsub _ hs
      refine ⟨(h.holds k).mpr ⟨hk, hs, hko⟩, ?_⟩
      rintro rfl
      exact hq rfl

end

end Mirror

/-! ## The peer's node -/

namespace PeerLink

variable {e : EncodedName} {n : Node} {s : PeerLink} {m : LocalMsg}

/-- What `b` does with a message of `a`: it has no other peer to relay it to. -/
theorem deliverTo_peerMsg {b : Node} {connA : ConnId} (hup : b.Up connA .Peer)
    (hp : b.peerSync.peerConns = [connA]) (hseen : b.peerSync.seenSubIds = [])
    (hrun : b.running = true) {dst : ProtoName} (he : dst.name = some e) {subId : SubId}
    {add : Bool} {ttl : Nat} (httl : 2 ≤ ttl) :
    deliverTo connA b (Node.peerMsg dst subId add ttl) =
      b.withTable (Node.tableStep b.table dst connA .Peer add subId).2 := by
  obtain ⟨c, hc, hct, -⟩ := hup
  have hv : (SlimHeader.new dst dst "" { ttl }).validateRouted = .ok () :=
    SlimHeader.validateRouted_eq_ok.mpr ⟨dst, dst, rfl, by simp [he], rfl, by simp [he]⟩
  have hexp : ¬ ((ConnType.Peer).isLocal = false ∧
      (SlimHeader.new dst dst "" { ttl }).ttl - 1 = 0) := by
    rintro ⟨-, h⟩
    have h : ttl - 1 = 0 := h
    omega
  unfold deliverTo Node.peerMsg
  rw [Node.handleNewMessage_subscription hv rfl, if_neg hexp,
    Node.processSubscription_at (f := none) hc (by rfl) (by rfl) (by rfl),
    if_neg (by simp [PeerSync.hasSeenSubId, hseen]), hct]
  rcases hr : Node.tableStep b.table dst connA .Peer add subId with ⟨r, t⟩
  rcases r with (err | msg) | transition
  · by_cases hz : subId = 0
    · simp only [hz, ne_eq, not_true_eq_false, ↓reduceIte]
      rw [Node.settle_plain (by simp)]
    · simp only [hz, ne_eq]
      have h := Node.ackTo_sendSubscriptionAck (b.withTable t) connA subId (.error err)
      exact congrArg Prod.fst (Node.settle_plain h.no_spawn)
  · rw [Node.settle_plain (by simp)]
  · have hpc : c.isPeerConnection = true := by simp [Connection.isPeerConnection, hct]
    simp only [hpc]
    rw [Node.forwardSubscription_peer (n := b.withTable t) hct hrun]
    split
    · have htgt : (b.withTable t).targetConns (.ExcludeConn connA) = [] := by
        simp [Node.targetConns, hp]
      have hs := Node.settle_spawn (n := b.withTable t) (r := .ok ())
        (Node.relayTask connA (SlimHeader.new dst dst "" { ttl }) dst subId add)
        (fun e he => absurd he List.not_mem_nil)
      rw [List.nil_append] at hs
      rw [hs, Node.startForward_none rfl htgt]
    · have h := Node.ackTo_ackIfAsked (b.withTable t) connA subId (.ok ())
      exact congrArg Prod.fst (Node.settle_plain h.no_spawn)

/-! ## The history variable -/

theorem subscribed_iff {q : Prefix × BitVec 128} :
    n.subscribed q = true ↔ n.table.Subscribed q := by
  simp only [Node.subscribed, List.any_eq_true, beq_iff_eq]
  exact Iff.rfl

theorem noteOpened_keep
    (h : ∀ e, m.add = true → m.dst.name = some e → n.table.Subscribed e.route →
      s.a.table.Subscribed e.route) :
    s.noteOpened m n = s.opened := by
  funext q
  unfold noteOpened
  split
  · rename_i e he
    refine if_neg ?_
    rintro ⟨hadd, rfl, hno, hsub⟩
    exact hno (subscribed_iff.mpr (h e hadd he (subscribed_iff.mp hsub)))
  · rfl

theorem noteOpened_update (hadd : m.add = true) (he : m.dst.name = some e)
    (hno : ¬ s.a.table.Subscribed e.route) (hsub : n.table.Subscribed e.route) :
    s.noteOpened m n = update s.opened e.route (some (m.subId, e)) := by
  funext q
  simp only [noteOpened, he]
  by_cases hq : q = e.route
  · subst hq
    rw [update_self, if_pos]
    exact ⟨hadd, rfl, fun h => hno (subscribed_iff.mp h), subscribed_iff.mpr hsub⟩
  · rw [update_of_ne hq, if_neg fun h => hq h.2.1]

/-! ## The invariant -/

structure Inv (a b : Node) (connA : ConnId) (s : PeerLink) : Prop where
  links : a.SameLinks s.a
  sent : ∀ m ∈ s.link, ∃ dst e sid add, dst.name = some e ∧
    m = Node.peerMsg dst sid add a.peerSync.subscriptionTtl
  onLocal : ∀ k, s.a.table.Holds k →
    ∃ c, a.getConnection k.connId = some c ∧ c.connectionType = .Local
  peer : ∃ t, s.b = b.withTable t
  /-- What `b` has once it has processed the link. -/
  mirror : ∃ d, s.link.foldl (deliverTo connA) s.b = b.withTable d ∧
    Mirror connA s.a.table d s.opened

section
variable {a b : Node} {connB connA : ConnId} {s : PeerLink} {e : EncodedName} {n : Node}
  {m : LocalMsg} {r : Except (Fault DataPathError) Bool}

section
variable (hj : Joined a b connB connA)
include hj

theorem inv_init : Inv a b connA (init a b) where
  links := Node.SameLinks.refl a
  sent := fun m hm => absurd hm List.not_mem_nil
  onLocal := fun k hk => by
    rw [show (init a b).a.table = SubscriptionTable.empty from hj.tableA] at hk
    exact absurd hk (not_holds_empty k)
  peer := ⟨b.table, rfl⟩
  mirror := by
    have hno : ∀ q, ¬ SubscriptionTable.empty.Subscribed q := fun q ⟨k, hk, _⟩ =>
      not_holds_empty k hk
    refine ⟨SubscriptionTable.empty, ?_, ?_⟩
    · rw [← hj.tableB]
      rfl
    · rw [show (init a b).a.table = SubscriptionTable.empty from hj.tableA]
      exact ⟨inv_empty _, complete_empty _,
        inv_empty _, complete_empty _,
        fun q hq => absurd hq (hno q),
        fun k => ⟨fun hk => absurd hk (not_holds_empty k),
          fun hk => absurd hk.2.1 (hno _)⟩⟩

theorem deliverTo_withTable {dst : ProtoName} (he : dst.name = some e)
    (t : SubscriptionTable) (sid : SubId) (add : Bool) :
    deliverTo connA (b.withTable t) (Node.peerMsg dst sid add a.peerSync.subscriptionTtl) =
      b.withTable (Node.tableStep t dst connA .Peer add sid).2 :=
  deliverTo_peerMsg (b := b.withTable t) hj.upA hj.peersB hj.seenB hj.runningB he hj.ttl

section
variable (h : Inv a b connA s)
include h

theorem Inv.deliver : Inv a b connA (s.step connB connA .deliver) := by
  unfold step
  cases hlk : s.link with
  | nil => exact h
  | cons m rest =>
    obtain ⟨dst, e, sid, add, he, hm⟩ := h.sent m (by rw [hlk]; exact List.mem_cons_self)
    obtain ⟨t, ht⟩ := h.peer
    have hstep := deliverTo_withTable hj he t sid add
    rw [← ht, ← hm] at hstep
    refine ⟨h.links, fun m' hm' => h.sent m' ?_, h.onLocal, ⟨_, hstep⟩, ?_⟩
    · rw [hlk]
      exact List.mem_cons_of_mem m hm'
    · have hd := h.mirror
      rw [hlk] at hd
      exact hd

/-- What is left to show of an application step: the messages it sends turn the peer's table into
one that mirrors the new table. -/
theorem Inv.next (hn : s.a.SameLinks n)
    {dst : ProtoName} (he : dst.name = some e) (sid : SubId) (add : Bool) {ms : List Message}
    {opened : Prefix × BitVec 128 → Option (SubId × EncodedName)}
    (hms : ms = [] ∨ ms = [Node.peerMsg dst sid add a.peerSync.subscriptionTtl])
    (hloc : ∀ k, n.table.Holds k → ∃ c, a.getConnection k.connId = some c ∧
      c.connectionType = .Local)
    (hmir : ∀ d, Mirror connA s.a.table d s.opened → Mirror connA n.table
      (if ms = [] then d else (Node.tableStep d dst connA .Peer add sid).2) opened) :
    Inv a b connA ⟨n, s.b, s.link ++ ms, opened⟩ := by
  obtain ⟨d, hd, hm⟩ := h.mirror
  refine ⟨h.links.trans hn, fun m hmem => ?_, hloc, h.peer, _, ?_, hmir d hm⟩
  · rcases List.mem_append.mp hmem with hmem | hmem
    · exact h.sent m hmem
    · rcases hms with rfl | rfl
      · cases hmem
      · exact ⟨dst, e, sid, add, he, List.mem_singleton.mp hmem⟩
  · rw [List.foldl_append, hd]
    rcases hms with rfl | rfl
    · rfl
    · exact deliverTo_withTable hj he d sid add

theorem Inv.subscribe {c : Connection}
    (hc : a.getConnection m.conn = some c) (hl : c.connectionType = .Local) (hn : s.a.SameLinks n)
    (he : m.dst.name = some e) (hadd : m.add = true)
    (hr : s.a.table.addSubscription m.dst m.conn .Local m.subId = (r, n.table)) :
    Inv a b connA ⟨n, s.b, s.link ++
      onTransition r (Node.peerMsg m.dst m.subId true a.peerSync.subscriptionTtl),
      s.noteOpened m n⟩ := by
  obtain ⟨d, -, hm⟩ := h.mirror
  rcases hm.inv.add hr with ⟨msg, rfl, ht, -⟩ | ⟨e', first, he', rfl, ha⟩
  · rw [noteOpened_keep (by rw [ht]; exact fun _ _ _ hs => hs)]
    exact h.next hj hn he m.subId true (.inl rfl) (by rw [ht]; exact h.onLocal)
      (by rw [ht]; exact fun d hd => hd)
  · obtain rfl : e = e' := Option.some.inj (he.symm.trans he')
    have hloc : ∀ k, n.table.Holds k →
        ∃ c, a.getConnection k.connId = some c ∧ c.connectionType = .Local := by
      intro k hk
      rcases (ha.holds k).mp hk with hk | rfl
      · exact h.onLocal k hk
      · exact ⟨c, hc, hl⟩
    have hfirst : first = true ↔ ¬ s.a.table.Subscribed e.route := by
      rw [ha.first_iff, subscribed_iff_lists hm.inv hm.complete, not_exists]
    cases first with
    | true =>
      have hno := hfirst.mp rfl
      rw [noteOpened_update hadd he hno ((ha.subscribed _).mpr (.inr rfl))]
      exact h.next hj hn he m.subId true (.inr rfl) hloc fun d hd =>
        hd.opening ha he hno (subscribed_of_add hm.inv hr he)
    | false =>
      have hsub : s.a.table.Subscribed e.route := by
        by_contra hno
        cases hfirst.mpr hno
      have hsame : ∀ q, n.table.Subscribed q ↔ s.a.table.Subscribed q := fun q => by
        rw [ha.subscribed]
        refine ⟨fun hq => hq.elim (fun hq => hq) fun hq => ?_, .inl⟩
        rw [hq]
        exact hsub
      rw [noteOpened_keep fun e _ _ hq => (hsame _).mp hq]
      exact h.next hj hn he m.subId true (.inl rfl) hloc fun d hd =>
        hd.frame ha.inv (ha.complete hm.complete) hsame

theorem Inv.unsubscribe (hn : s.a.SameLinks n)
    (he : m.dst.name = some e) (hadd : m.add = false) (hcond : (Action.app m).ClosesAsOpened s)
    (hr : s.a.table.removeSubscription m.dst m.conn .Local m.subId = (r, n.table)) :
    Inv a b connA ⟨n, s.b, s.link ++
      onTransition r (Node.peerMsg m.dst m.subId false a.peerSync.subscriptionTtl),
      s.noteOpened m n⟩ := by
  obtain ⟨d, -, hm⟩ := h.mirror
  rw [noteOpened_keep fun _ hadd' => by rw [hadd] at hadd'; cases hadd']
  rcases hm.inv.remove hr with ⟨f, rfl, ht, -⟩ | ⟨e', last, he', rfl, hd⟩
  · exact h.next hj hn he m.subId false (.inl rfl) (by rw [ht]; exact h.onLocal)
      (by rw [ht]; exact fun d hd => hd)
  · obtain rfl : e = e' := Option.some.inj (he.symm.trans he')
    obtain ⟨hkeep, hlast⟩ := hcond e hadd he hd.held
    have hcomp := hd.complete hm.complete hkeep
    have hloc : ∀ k, n.table.Holds k →
        ∃ c, a.getConnection k.connId = some c ∧ c.connectionType = .Local :=
      fun k hk => h.onLocal k ((hd.holds k).mp hk).1
    have hiff : last = true ↔ ¬ n.table.Subscribed e.route := by
      rw [hd.last_iff, subscribed_iff_lists hd.inv hcomp, not_exists]
      refine ⟨fun hh => hh.2, fun hh => ⟨?_, hh⟩⟩
      rintro ⟨k, hk, -, rfl⟩
      exact hh k.connId (hcomp k hk)
    cases last with
    | true =>
      have hno := hiff.mp rfl
      have ho : s.opened e.route = some (m.subId, e) := hlast fun k hk hq => by
        by_contra hne
        exact hno ⟨k, (hd.holds k).mpr ⟨hk, hne⟩, hq⟩
      exact h.next hj hn he m.subId false (.inr rfl) hloc fun d hm =>
        hm.closing hd hcomp he hno ho
    | false =>
      have hsub : n.table.Subscribed e.route := by
        by_contra hno
        cases hiff.mpr hno
      refine h.next hj hn he m.subId false (.inl rfl) hloc fun d hm =>
        hm.frame hd.inv hcomp fun q => ?_
      by_cases hq : q = e.route
      · subst hq
        exact ⟨fun _ => ⟨_, hd.held, rfl⟩, fun _ => hsub⟩
      · exact hd.subscribed_of_ne hq

theorem Inv.app {c : Connection}
    (hc : s.a.getConnection m.conn = some c) (hl : c.connectionType = .Local)
    (hcond : (Action.app m).ClosesAsOpened s) : Inv a b connA (s.appStep connB m) := by
  obtain ⟨n, effects, hset, hn, hcase⟩ := Node.settle_app hc hl (h.links.up hj.upB)
    (h.links.peerConns.trans hj.peersA) (h.links.running.trans hj.runningA)
  have happ : s.appStep connB m = ⟨n, s.b, s.link ++ sentTo connB effects, s.noteOpened m n⟩ := by
    simp [appStep, hset]
  rw [happ]
  rcases hcase with ⟨ht, hs⟩ | ⟨e, he, ht, hs⟩
  · rw [hs, List.append_nil, noteOpened_keep (by rw [ht]; exact fun _ _ _ hq => hq)]
    exact ⟨h.links.trans hn, h.sent, by rw [ht]; exact h.onLocal,
      h.peer, by rw [ht]; exact h.mirror⟩
  · rw [hs, h.links.subscriptionTtl]
    cases hadd : m.add with
    | true =>
      rw [hadd] at ht
      exact h.subscribe hj (by rw [← h.links.getConnection, hc]) hl hn he hadd
        (Prod.ext rfl ht.symm)
    | false =>
      rw [hadd] at ht
      exact h.unsubscribe hj hn he hadd hcond (Prod.ext rfl ht.symm)

end

theorem Inv.step (s : PeerLink) (x : Action) (h : Inv a b connA s)
    (hcond : x.ClosesAsOpened s) : Inv a b connA (s.step connB connA x) := by
  cases x with
  | deliver => exact h.deliver hj
  | app m =>
    cases hc : s.a.getConnection m.conn with
    | none => simpa only [PeerLink.step, hc] using h
    | some c =>
      simp only [PeerLink.step, hc]
      split
      · rename_i hl
        exact h.app hj hc hl hcond
      · exact h

end

/-- **Route convergence**: when the link is empty, the peer has a route for a name exactly when a
local connection has a subscription for it, in every run whose last unsubscriptions are for the
subscription that opened the name. -/
theorem peer_route_iff (hj : Joined a b connB connA) (as : List Action)
    (h : Run.Meets (step connB connA) (fun s x => x.ClosesAsOpened s) (init a b) as)
    (hdone : (as.foldl (step connB connA) (init a b)).link = []) (e : EncodedName) :
    (as.foldl (step connB connA) (init a b)).PeerRoutes connA e ↔
      (as.foldl (step connB connA) (init a b)).LocallySubscribed e := by
  have hi : Inv a b connA (as.foldl (step connB connA) (init a b)) :=
    h.invariant (fun s x hs hx => hs.step hj s x hx) (inv_init hj)
  obtain ⟨d, hd, hm⟩ := hi.mirror
  rw [hdone, List.foldl_nil] at hd
  unfold PeerRoutes LocallySubscribed
  rw [hd, Node.withTable_table, hm.lists_iff]
  constructor
  · rintro ⟨k, hk, hq⟩
    obtain ⟨c, hc, hl⟩ := hi.onLocal k hk
    exact ⟨k, hk, hq, c, by rw [hi.links.getConnection, hc], hl⟩
  · rintro ⟨k, hk, hq, -⟩
    exact ⟨k, hk, hq⟩

end

/-! ## Two applications at one node -/

/-- A node with two applications, on connections 1 and 2, and its peer on connection 9. -/
def sampleA : Node where
  forwarder :=
    { connectionTable := ((AList.insert 1 { connectionType := .Local } ∅).insert 2
        { connectionType := .Local }).insert 9 { connectionType := .Peer } }
  peerSync := { peerConns := [9] }

def sampleB : Node where
  forwarder := { connectionTable := AList.insert 7 { connectionType := .Peer } ∅ }
  peerSync := { peerConns := [7] }

def sampleMsg (add : Bool) (conn : ConnId) (subId : SubId) : LocalMsg :=
  ⟨conn, add, sampleName, sampleName, "", subId⟩

theorem joined_sample : Joined sampleA sampleB 9 7 where
  upB := ⟨{ connectionType := .Peer }, by decide +kernel, rfl, rfl, rfl, rfl⟩
  upA := ⟨{ connectionType := .Peer }, by decide +kernel, rfl, rfl, rfl, rfl⟩
  peersA := rfl
  peersB := rfl
  ttl := by decide
  runningA := rfl
  runningB := rfl
  tableA := rfl
  tableB := rfl
  seenA := rfl
  seenB := rfl

/-- Two applications subscribe; the second leaves first, then the first. -/
def nestedRun : List Action :=
  [.app (sampleMsg true 1 10), .app (sampleMsg true 2 20), .app (sampleMsg false 2 20), .deliver,
    .app (sampleMsg false 1 10), .deliver]

theorem peer_route_iff_nested :
    Run.Meets (step 9 7) (fun s x => x.ClosesAsOpened s) (init sampleA sampleB) nestedRun ∧
      ∀ e, (nestedRun.foldl (step 9 7) (init sampleA sampleB)).PeerRoutes 7 e ↔
        (nestedRun.foldl (step 9 7) (init sampleA sampleB)).LocallySubscribed e := by
  have h : Run.Meets (step 9 7) (fun s x => x.ClosesAsOpened s) (init sampleA sampleB)
      nestedRun := by decide +kernel
  exact ⟨h, peer_route_iff joined_sample nestedRun h (by decide +kernel)⟩

/-- Two applications subscribe; the first leaves first, then the second. -/
def crossedRun : List Action :=
  [.app (sampleMsg true 1 10), .app (sampleMsg true 2 20), .app (sampleMsg false 1 10),
    .app (sampleMsg false 2 20), .deliver, .deliver]

/-- The first application's subscription opened the name at the peer; the second one's
unsubscription does not close it. -/
theorem peer_keeps_stale_route :
    ¬ ∀ (a b : Node) (connB connA : ConnId), Joined a b connB connA → ∀ as : List Action,
      (as.foldl (step connB connA) (init a b)).link = [] → ∀ e : EncodedName,
        (as.foldl (step connB connA) (init a b)).PeerRoutes connA e ↔
          (as.foldl (step connB connA) (init a b)).LocallySubscribed e := by
  intro h
  have hroute := h sampleA sampleB 9 7 joined_sample crossedRun (by decide +kernel)
    ⟨1, 2, 3, some ⟨0, 5⟩⟩
  obtain ⟨k, hk, -⟩ := hroute.mp ⟨.Peer, by decide +kernel⟩
  have hnone : ∀ k ∈ (crossedRun.foldl (step 9 7)
      (init sampleA sampleB)).a.table.state.subscriptions.keys, False := by decide +kernel
  exact hnone k hk

end PeerLink

end Slim
