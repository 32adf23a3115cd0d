import Slim.Service.App
import Slim.Proof.Lifecycle

/-!
# What `unsubscribe` and `remove_route` leave behind

`subscribe` files a record under the application's id and a fresh subscription id, which it keeps by
the prefix of the name; `unsubscribe` asks for the kept id under the name as it is given;
`set_route` files a record under a fresh id that nothing keeps, and `remove_route` asks for id zero.
`inverse_iff`: in every run, a call takes away what it should exactly when each of the records is
the one it asks for. `records_stay` has the plain cases where it is not.
-/

namespace Slim

open SubscriptionTable Node

namespace App

variable {a : App} {n : Node} {e : EncodedName} {t : SubscriptionTable} {conn : ConnId}
  {sid : SubId}

/-! ## The node an application runs on -/

def OwnId (a : App) (e : EncodedName) : Prop := e.nameId = some (NameId.ofU128 a.appId)

/-- The connection is there, types agree, and every record of the connection is routed and has the
id of the application. -/
structure Serves (a : App) (n : Node) : Prop where
  up : ∃ c, n.getConnection a.connId = some c ∧ c.connectionType = .Local ∧ c.channelOpen = true
  table : n.table.Inv n.connType
  own : ∀ k, n.table.Holds k → k.connId = a.connId →
    a.OwnId k.encoded ∧ n.table.routing.Lists k.encoded.route .Local a.connId

theorem Serves.congr {a' : App} (h : Serves a n) (hc : a'.connId = a.connId)
    (hi : a'.appId = a.appId) : Serves a' n := by
  refine ⟨?_, h.table, fun k hk hkc => ?_⟩
  · rw [hc]
    exact h.up
  · unfold OwnId
    rw [hc, hi]
    exact h.own k hk (hkc.trans hc)

theorem Serves.connType (h : Serves a n) : n.connType a.connId = .Local := by
  obtain ⟨c, hc, hct, -⟩ := h.up
  rw [connType_eq hc, hct]

theorem OwnId.eq_of_route {e' : EncodedName} (h : a.OwnId e) (h' : a.OwnId e')
    (hr : e.route = e'.route) : e = e' := by
  obtain ⟨c0, c1, c2, i⟩ := e
  obtain ⟨d0, d1, d2, j⟩ := e'
  have hi : i = some (NameId.ofU128 a.appId) := h
  have hj : j = some (NameId.ofU128 a.appId) := h'
  simp only [EncodedName.route, Prod.mk.injEq] at hr
  obtain ⟨⟨rfl, rfl, rfl⟩, -⟩ := hr
  rw [hi, hj]

/-- What a message of the application may have filed. -/
def Files (a : App) (n : Node) (hdr : SlimHeader) (subId : SubId) (k : SubKey) : Prop :=
  ∃ dst e c, hdr.destination = some dst ∧ dst.name = some e ∧
    k = ⟨hdr.recvFrom.getD a.connId, subId, e⟩ ∧
    n.getConnection (hdr.recvFrom.getD a.connId) = some c ∧
    (hdr.recvFrom.isSome → c.isLocalConnection = false)

theorem Serves.added (h : Serves a n) {first : Bool} (hid : conn = a.connId → a.OwnId e)
    (ha : Added n.connType n.table t e conn sid first) : Serves a (n.withTable t) := by
  refine ⟨h.up, ha.inv, fun k hk hkc => ?_⟩
  rw [withTable_table, ha.lists]
  cases (ha.holds k).mp hk with
  | inl hk =>
    obtain ⟨ho, hl⟩ := h.own k hk hkc
    exact ⟨ho, .inl hl⟩
  | inr hk =>
    subst hk
    have hkc : conn = a.connId := hkc
    refine ⟨hid hkc, .inr ⟨rfl, ?_, hkc.symm⟩⟩
    rw [hkc, h.connType]

theorem Serves.removed (h : Serves a n) {last : Bool}
    (hr : Removed n.connType n.table t e conn sid last) : Serves a (n.withTable t) := by
  refine ⟨h.up, hr.inv, fun k hk hkc => ?_⟩
  have hk' := ((hr.holds k).mp hk).1
  obtain ⟨ho, hl⟩ := h.own k hk' hkc
  refine ⟨ho, ?_⟩
  rw [withTable_table, hr.lists]
  refine ⟨hl, fun ⟨hq, _, hconn, hstill⟩ => hstill ?_⟩
  -- the record that went had the same encoding
  have he := (h.own _ hr.held hconn.symm).1
  exact ⟨k, hk, hkc.trans hconn, ho.eq_of_route he hq⟩

theorem receive_stream (a : App) (n : Node) (msg : Message) :
    n.receive a.stream msg =
      let out := n.handleNewMessage a.connId .Local msg
      ⟨out.result, out.node, out.effects ++ told a.stream out⟩ :=
  n.receive_local rfl msg

/-- **A message of the application**: the node serves it on, and at most the record asked for is
new. -/
theorem Serves.receive (h : Serves a n) {msg : Message} {add : Bool} {hdr : SlimHeader}
    {subId : SubId} (hm : msg.asSubscription = some (add, hdr, subId))
    (hid : hdr.recvFrom = none → ∀ dst e, hdr.destination = some dst → dst.name = some e →
      add = true → a.OwnId e) :
    Serves a (n.receive a.stream msg).node ∧
      (∀ c, (n.receive a.stream msg).node.getConnection c = n.getConnection c) ∧
      ∀ k, (n.receive a.stream msg).node.table.Holds k →
        n.table.Holds k ∨ add = true ∧ Files a n hdr subId k := by
  rw [receive_stream]
  rcases n.handleNewMessage_subscription_node a.connId .Local hm with hn | ⟨dst, c, hf⟩
  · rw [hn]
    exact ⟨h, fun _ => rfl, fun k hk => .inl hk⟩
  · rw [hf.node]
    have hty : n.connType (hdr.recvFrom.getD a.connId) = c.connectionType :=
      connType_eq hf.connection
    -- only the application's own messages concern its connection: `recv_from` names no local one
    have hown : hdr.recvFrom.getD a.connId = a.connId → hdr.recvFrom = none := by
      intro hc
      cases hr : hdr.recvFrom with
      | none => rfl
      | some r =>
        have hl := hf.notLocal (by rw [hr]; rfl)
        rw [hc, h.connType] at hty
        rw [Connection.isLocalConnection, ← hty] at hl
        cases hl
    rw [← hty]
    cases add with
    | true =>
      rcases ht : n.table.addSubscription dst (hdr.recvFrom.getD a.connId)
        (n.connType (hdr.recvFrom.getD a.connId)) subId with ⟨r, t⟩
      rw [show tableStep n.table dst (hdr.recvFrom.getD a.connId)
        (n.connType (hdr.recvFrom.getD a.connId)) true subId = (r, t) from ht]
      rcases h.table.add ht with ⟨m, -, rfl, -⟩ | ⟨e, first, he, -, ha⟩
      · exact ⟨h, fun _ => rfl, fun k hk => .inl hk⟩
      · refine ⟨h.added (fun hc => hid (hown hc) dst e hf.destination he rfl) ha, fun _ => rfl,
          fun k hk => ?_⟩
        cases (ha.holds k).mp hk with
        | inl hk => exact .inl hk
        | inr hk => exact .inr ⟨rfl, dst, e, c, hf.destination, he, hk, hf.connection, hf.notLocal⟩
    | false =>
      rcases ht : n.table.removeSubscription dst (hdr.recvFrom.getD a.connId)
        (n.connType (hdr.recvFrom.getD a.connId)) subId with ⟨r, t⟩
      rw [show tableStep n.table dst (hdr.recvFrom.getD a.connId)
        (n.connType (hdr.recvFrom.getD a.connId)) false subId = (r, t) from ht]
      rcases h.table.remove ht with ⟨m, -, rfl, -⟩ | ⟨e, last, he, -, hr⟩
      · exact ⟨h, fun _ => rfl, fun k hk => .inl hk⟩
      · exact ⟨h.removed hr, fun _ => rfl, fun k hk => .inl ((hr.holds k).mp hk).1⟩

/-! ## Removals -/

theorem Serves.sendSubscriptionAck (h : Serves a n) (sid : SubId) :
    n.sendSubscriptionAck a.connId sid (.ok ()) =
      [.send a.connId (buildSubscriptionAck sid true "")] := by
  obtain ⟨c, hc, hct, ho⟩ := h.up
  simp [Node.sendSubscriptionAck, Node.trySend, Node.sendMsg, hc, ho, Message.isRouted,
    buildSubscriptionAck, Message.mapHeader]

theorem told_ok {out : Out} (h : out.result = .ok ()) : told a.stream out = [] := by
  simp [told, h]

theorem awaitAck_append {forwarded : Bool} {es es' : List Effect}
    (h : ∀ e ∈ es, ackOf conn sid forwarded e = none) :
    awaitAck conn sid forwarded (es ++ es') = awaitAck conn sid forwarded es' := by
  unfold awaitAck
  rw [List.findSome?_append, List.findSome?_eq_none_iff.mpr h, Option.none_or]

/-- An accepted removal is acknowledged if it has an id, by the node itself unless the message is
forwarded. -/
theorem Serves.awaitAck_forwardSubscription (h : Serves a n) (msg : Message) (dst : ProtoName)
    (ttl : Nat) (sid : SubId) (conn : ConnId) (c : Connection) (outcome : SubscriptionOutcome)
    (forwarded : Bool) :
    awaitAck a.connId sid forwarded
        (n.forwardSubscription msg dst ttl sid a.connId conn c false outcome).effects = .ok ↔
      sid ≠ 0 ∧ (n.running = false ∨ outcome.forwardConn = none ∨ forwarded = true) := by
  unfold forwardSubscription
  dsimp only
  have hnot : ∀ e ∈ (if c.isLocalConnection && !outcome.isPeerConn && outcome.transition &&
      n.controlPlane then [Effect.controlPlane msg] else []),
      ackOf a.connId sid forwarded e = none := by
    intro e he
    split_ifs at he with hcp
    · rw [List.mem_singleton] at he
      rw [he]
      rfl
    · cases he
  split
  · rename_i hspawn
    rw [Bool.and_eq_true] at hspawn
    rw [awaitAck_append hnot]
    by_cases hs : sid = 0
    · simp [awaitAck, ackOf, hs]
    · cases hf : outcome.forwardConn <;> cases forwarded <;>
        simp [awaitAck, ackOf, hspawn.2]
  · rename_i hspawn
    have hdirect : n.running = false ∨ outcome.forwardConn = none := by
      cases hrun : n.running with
      | false => exact .inl rfl
      | true =>
        refine .inr (Option.not_isSome_iff_eq_none.mp fun hf => hspawn ?_)
        simp [ForwardTargets.hasAny, hrun, hf]
    rw [awaitAck_append hnot]
    by_cases hs : sid = 0
    · simp [awaitAck, ackIfAsked, hs]
    · have hd : n.running = false ∨ outcome.forwardConn = none ∨ forwarded = true :=
        hdirect.imp id .inl
      simp [ackIfAsked, hs, hd, h.sendSubscriptionAck, awaitAck, ackOf, buildSubscriptionAck]

/-- **A removal an application asks for**: the record with exactly this connection, id and encoding
goes, if a route is left in its slot. -/
theorem Serves.unsubscribed (h : Serves a n) {name : ProtoName} {c : Connection} (identity : String)
    (flags : SlimHeaderFlags) (sid : SubId) (hname : a.appName.name.isSome)
    (he : name.name = some e) (hc : n.getConnection (flags.recvFrom.getD a.connId) = some c)
    (hl : (flags.recvFrom.isSome && c.isLocalConnection) = false) :
    (∀ k, (n.receive a.stream (buildUnsubscribe a.appName name identity flags sid)).node.table.Holds
        k ↔ n.table.Holds k ∧ ¬ (k = ⟨flags.recvFrom.getD a.connId, sid, e⟩ ∧
          ∃ ct c, n.table.routing.Lists e.route ct c)) ∧
      (n.table.Holds ⟨flags.recvFrom.getD a.connId, sid, e⟩ →
        (∃ ct c, n.table.routing.Lists e.route ct c) → ∀ forwarded, awaitAck a.connId sid forwarded
          (n.receive a.stream (buildUnsubscribe a.appName name identity flags sid)).effects = .ok ↔
        sid ≠ 0 ∧ (n.running = false ∨
          n.forwardTarget (SlimHeader.new a.appName name identity flags) = none ∨
          forwarded = true)) := by
  have hm : (buildUnsubscribe a.appName name identity flags sid).asSubscription =
      some (false, SlimHeader.new a.appName name identity flags, sid) := rfl
  have hv : (SlimHeader.new a.appName name identity flags).validateRouted = .ok () := by
    obtain ⟨e0, he0⟩ := Option.isSome_iff_exists.mp hname
    simp [SlimHeader.validateRouted, SlimHeader.new, he0, he]
  obtain ⟨dst, hdst, hout⟩ := by
    have := n.handleNewMessage_asSubscription a.connId .Local hm
    rwa [if_pos ⟨hv, fun hf => (by cases hf)⟩] at this
  cases hdst
  have hty : n.connType (flags.recvFrom.getD a.connId) = c.connectionType := connType_eq hc
  rw [processSubscription_at hc rfl rfl hl, if_neg (by simp)] at hout
  rw [receive_stream, hout]
  rcases ht : n.table.removeSubscription name (flags.recvFrom.getD a.connId)
    (n.connType (flags.recvFrom.getD a.connId)) sid with ⟨r, t⟩
  rw [show tableStep n.table name (flags.recvFrom.getD a.connId) c.connectionType false sid =
    (r, t) by rw [← ht, hty]; rfl]
  rcases h.table.remove ht with ⟨f, rfl, rfl, hno⟩ | ⟨e', last, he', rfl, hr⟩
  · have hk : ∀ k, n.table.Holds k ↔ n.table.Holds k ∧
        ¬ (k = ⟨flags.recvFrom.getD a.connId, sid, e⟩ ∧
          ∃ ct c, n.table.routing.Lists e.route ct c) := by
      intro k
      refine ⟨fun hk => ⟨hk, ?_⟩, fun hk => hk.1⟩
      rintro ⟨rfl, ct, d, hd⟩
      exact hno e he hk ct d hd
    refine ⟨?_, fun hh ⟨ct, d, hd⟩ => absurd hd (hno e he hh ct d)⟩
    rcases f with err | m
    · split_ifs with hs
      · exact hk
      · exact hk
    · exact hk
  · obtain rfl : e = e' := Option.some.inj (he.symm.trans he')
    refine ⟨fun k => ?_, fun _ _ forwarded => ?_⟩
    · rw [forwardSubscription_node, withTable_table, hr.holds]
      exact and_congr Iff.rfl (not_congr (and_iff_left hr.routed).symm)
    · dsimp only
      rw [told_ok (forwardSubscription_result ..), List.append_nil]
      exact (h.removed hr).awaitAck_forwardSubscription ..

end App

namespace AppRun

variable {s : AppRun}

/-! ## The invariant -/

/-- The record `subscribe` files: the name with the id of the application. -/
def OfSubscribe (a : App) (name : ProtoName) (k : SubKey) : Prop :=
  k.connId = a.connId ∧
    ∃ e, name.name = some e ∧ k.encoded = { e with nameId := some (NameId.ofU128 a.appId) }

/-- The record `set_route` files: the name as it is, for a connection to another node. -/
def OfRoute (n : Node) (name : ProtoName) (conn : ConnId) (k : SubKey) : Prop :=
  k.connId = conn ∧ name.name = some k.encoded ∧
    ∃ c, n.getConnection conn = some c ∧ c.isLocalConnection = false

structure Inv (s : AppRun) : Prop where
  serves : s.app.Serves s.node
  name : ∃ e, s.app.appName.name = some e ∧ s.app.OwnId e
  subscribed : ∀ name k, (name, k) ∈ s.subscribed → s.node.table.Holds k ∧ OfSubscribe s.app name k
  routed : ∀ name conn k, ((name, conn), k) ∈ s.routed →
    s.node.table.Holds k ∧ OfRoute s.node name conn k

/-- What a call does to the application and its node. `new` is what may be filed. -/
structure Called (s : AppRun) (r : CallResult × App × Node) (new : SubKey → Prop) : Prop where
  appName : r.2.1.appName = s.app.appName
  connId : r.2.1.connId = s.app.connId
  appId : r.2.1.appId = s.app.appId
  serves : s.app.Serves r.2.2
  connections : ∀ c, r.2.2.getConnection c = s.node.getConnection c
  holds : ∀ k, r.2.2.table.Holds k → s.node.table.Holds k ∨ new k

theorem Called.mono {r : CallResult × App × Node} {new new' : SubKey → Prop} (hc : Called s r new)
    (hnew : ∀ k, new k → new' k) : Called s r new' :=
  { hc with holds := fun k hk => (hc.holds k hk).imp id (hnew k) }

section
variable (h : s.Inv) (name : ProtoName) (conn : Option ConnId) (res : CallResult) (env : CallEnv)
include h

theorem Inv.called_unsent {a : App} (hn : a.appName = s.app.appName)
    (hc : a.connId = s.app.connId) (hi : a.appId = s.app.appId) (new : SubKey → Prop) :
    Called s (res, a, s.node) new :=
  ⟨hn, hc, hi, h.serves, fun _ => rfl, fun _ hk => .inl hk⟩

theorem Inv.called_sent {a : App} {msg : Message} {add : Bool}
    {hdr : SlimHeader} {subId : SubId} (hm : msg.asSubscription = some (add, hdr, subId))
    (hid : hdr.recvFrom = none → ∀ dst e, hdr.destination = some dst → dst.name = some e →
      add = true → s.app.OwnId e)
    (hn : a.appName = s.app.appName) (hc : a.connId = s.app.connId) (hi : a.appId = s.app.appId) :
    Called s (res, a, (s.node.receive s.app.stream msg).node)
      (fun k => add = true ∧ s.app.Files s.node hdr subId k) := by
  obtain ⟨hs, hconn, hholds⟩ := h.serves.receive hm hid
  exact ⟨hn, hc, hi, hs, hconn, hholds⟩

theorem Inv.subscribe_called :
    Called s (s.app.subscribe s.node name conn env) (fun _ => True) := by
  have hid : ∀ (e : EncodedName), name.name = some e → ∀ dst e', some (name.withId s.app.appId) =
      some dst → dst.name = some e' → s.app.OwnId e' := by
    intro e he dst e' hd he'
    cases hd
    rw [ProtoName.withId_name, he, Option.map_some, Option.some.injEq] at he'
    rw [← he']
    rfl
  unfold App.subscribe
  cases he : name.name with
  | none => exact h.called_unsent _ (by rfl) (by rfl) (by rfl) _
  | some e =>
    cases env.identity with
    | none => exact h.called_unsent _ (by rfl) (by rfl) (by rfl) _
    | some identity =>
      dsimp only
      split <;>
        exact Called.mono (h.called_sent _ rfl (fun _ dst e' hd he' _ => hid e he dst e' hd he')
          rfl rfl rfl) fun _ _ => trivial

theorem Inv.unsubscribe_called :
    Called s (s.app.unsubscribe s.node name conn env) (fun _ => False) := by
  unfold App.unsubscribe
  cases he : name.name with
  | none => exact h.called_unsent _ (by rfl) (by rfl) (by rfl) _
  | some e =>
    unfold App.removeAppName
    dsimp only
    cases s.app.appNames.lookup (App.nameToKey e) with
    | none => exact h.called_unsent _ (by rfl) (by rfl) (by rfl) _
    | some sid =>
      cases env.identity with
      | none => exact h.called_unsent _ (by rfl) (by rfl) (by rfl) _
      | some identity =>
        exact Called.mono (h.called_sent _ rfl (fun _ _ _ _ _ hf => (by cases hf)) rfl rfl rfl)
          fun k hf => (by cases hf.1)

theorem Inv.setRoute_called (conn : ConnId) (env : CallEnv) :
    Called s (s.app.setRoute s.node name conn env)
      (fun _ => ∃ c, s.node.getConnection conn = some c ∧ c.isLocalConnection = false) := by
  unfold App.setRoute
  cases env.identity with
  | none => exact h.called_unsent _ (by rfl) (by rfl) (by rfl) _
  | some identity =>
    refine Called.mono (h.called_sent _ rfl (fun hr => (by cases hr)) rfl rfl rfl) fun k hf => ?_
    obtain ⟨-, dst, e, c, -, -, -, hconn, hloc⟩ := hf
    exact ⟨c, hconn, hloc rfl⟩

theorem Inv.removeRoute_called (conn : ConnId) (env : CallEnv) :
    Called s (s.app.removeRoute s.node name conn env) (fun _ => False) := by
  unfold App.removeRoute
  cases env.identity with
  | none => exact h.called_unsent _ (by rfl) (by rfl) (by rfl) _
  | some identity =>
    exact Called.mono (h.called_sent _ rfl (fun hr => (by cases hr)) rfl rfl rfl)
      fun k hf => (by cases hf.1)

theorem Inv.update {r : CallResult × App × Node} {new : SubKey → Prop}
    (hc : Called s r new) (subs : List (ProtoName × SubKey))
    (routes : List ((ProtoName × ConnId) × SubKey))
    (hs : ∀ name k, (name, k) ∈ subs → OfSubscribe s.app name k)
    (hr : ∀ name conn k, ((name, conn), k) ∈ routes → r.2.2.table.Holds k →
      OfRoute s.node name conn k) :
    ({ s with subscribed := subs ++ s.subscribed, routed := routes ++ s.routed }.update r).Inv := by
  refine ⟨hc.serves.congr hc.connId hc.appId, ?_, fun name k hk => ?_, fun name conn k hk => ?_⟩
  · obtain ⟨e, he, hid⟩ := h.name
    exact ⟨e, by rw [← he]; exact congrArg _ hc.appName, hid.trans (by rw [← hc.appId]; rfl)⟩
  · obtain ⟨hmem, hheld⟩ := List.mem_filter.mp hk
    have hof : OfSubscribe s.app name k := by
      cases List.mem_append.mp hmem with
      | inl hmem => exact hs name k hmem
      | inr hmem => exact (h.subscribed name k hmem).2
    refine ⟨of_decide_eq_true hheld, hof.1.trans hc.connId.symm, ?_⟩
    obtain ⟨e, he, hk⟩ := hof.2
    exact ⟨e, he, by rw [hk, ← hc.appId]; rfl⟩
  · obtain ⟨hmem, hheld⟩ := List.mem_filter.mp hk
    have hheld := of_decide_eq_true hheld
    have hof : OfRoute s.node name conn k := by
      cases List.mem_append.mp hmem with
      | inl hmem => exact hr name conn k hmem hheld
      | inr hmem => exact (h.routed name conn k hmem).2
    obtain ⟨hconn, hname, c, hget, hloc⟩ := hof
    exact ⟨hheld, hconn, hname, c, (hc.connections conn).trans hget, hloc⟩

theorem Inv.step (c : Call) : (s.step c).Inv := by
  cases c with
  | subscribe name conn env =>
    refine h.update (h.subscribe_called name conn env) _ [] (fun name' k hk => ?_)
      (fun _ _ _ hk => by cases hk)
    obtain ⟨e, he, hk⟩ := List.mem_map.mp (List.mem_filter.mp hk).1
    cases hk
    exact ⟨rfl, e, Option.mem_toList.mp he, rfl⟩
  | unsubscribe name conn env =>
    exact h.update (h.unsubscribe_called name conn env) [] []
      (fun _ _ hk => by cases hk) (fun _ _ _ hk => by cases hk)
  | setRoute name conn env =>
    have hc := h.setRoute_called name conn env
    refine h.update hc [] _ (fun _ _ hk => by cases hk) (fun name' conn' k hk hheld => ?_)
    obtain ⟨hk, hnew⟩ := List.mem_filter.mp hk
    obtain ⟨e, he, hk⟩ := List.mem_map.mp hk
    cases hk
    have hconn := (hc.holds _ hheld).resolve_left (of_decide_eq_true hnew)
    exact ⟨rfl, Option.mem_toList.mp he, hconn⟩
  | removeRoute name conn env =>
    exact h.update (h.removeRoute_called name conn env) [] []
      (fun _ _ hk => by cases hk) (fun _ _ _ hk => by cases hk)
  | forwarding peerSync remoteSync => exact { h with serves := { h.serves with } }

end

/-! ## What a call should leave -/

/-- After `unsubscribe` no record of a `subscribe` of the name is left, and it succeeds if there was
one; so `remove_route`, for `set_route`. -/
def Call.Inverse (s : AppRun) : Call → Prop
  | .unsubscribe name conn env =>
    (∀ k, (name, k) ∈ s.subscribed → ¬ (s.step (.unsubscribe name conn env)).node.table.Holds k) ∧
      ((∃ k, (name, k) ∈ s.subscribed) → (s.call (.unsubscribe name conn env)).1 = .ok)
  | .removeRoute name conn env =>
    (∀ k, ((name, conn), k) ∈ s.routed →
      ¬ (s.step (.removeRoute name conn env)).node.table.Holds k) ∧
      ((∃ k, ((name, conn), k) ∈ s.routed) → (s.call (.removeRoute name conn env)).1 = .ok)
  | _ => True

/-- Every record the call should take away is the one it asks for: for `unsubscribe` the name is
given with the id of the application and the id kept for its prefix is the record's; for
`remove_route` the record has id zero and a route is left in its slot. The call has an identity, and
a removal that is forwarded is acknowledged. -/
def Call.NamesRecord (s : AppRun) : Call → Prop
  | .unsubscribe name conn env => ∀ k, (name, k) ∈ s.subscribed →
    name.name = some k.encoded ∧ s.app.appNames.lookup (App.nameToKey k.encoded) = some k.subId ∧
      k.subId ≠ 0 ∧ ∃ identity, env.identity = some identity ∧ (s.node.running = false ∨
        s.node.forwardTarget
          (SlimHeader.new s.app.appName name identity { forwardTo := conn }) = none ∨
        env.forwarded = true)
  | .removeRoute name conn env => ∀ k, ((name, conn), k) ∈ s.routed →
    env.identity.isSome ∧ k.subId = 0 ∧
      ∃ ct c, s.node.table.routing.Lists k.encoded.route ct c
  | _ => True

theorem forall_left_iff {α : Type} {p : α → Prop} {held : α → Prop} {ok : Prop} :
    ((∀ x, p x → ¬ held x) ∧ ((∃ x, p x) → ok)) ↔ ∀ x, p x → ¬ held x ∧ ok :=
  ⟨fun h x hx => ⟨h.1 x hx, h.2 ⟨x, hx⟩⟩, fun h => ⟨fun x hx => (h x hx).1, fun ⟨x, hx⟩ =>
    (h x hx).2⟩⟩

theorem Inv.unsubscribe_iff (h : s.Inv) (name : ProtoName) (conn : Option ConnId) (env : CallEnv) :
    (Call.unsubscribe name conn env).Inverse s ↔
      (Call.unsubscribe name conn env).NamesRecord s := by
  refine forall_left_iff.trans (forall_congr' fun k => forall_congr' fun hk => ?_)
  obtain ⟨hheld, hconn, e, he, henc⟩ := h.subscribed name k hk
  obtain ⟨conn', sid', enc⟩ := k
  dsimp only at hconn henc
  have hkey : App.nameToKey enc = App.nameToKey e := by rw [henc]; rfl
  rw [hkey]
  simp only [AppRun.step, AppRun.call, AppRun.update, App.unsubscribe, App.removeAppName, he]
  cases s.app.appNames.lookup (App.nameToKey e) with
  | none => simp [hheld]
  | some sid =>
    cases env.identity with
    | none => simp [hheld]
    | some identity =>
      obtain ⟨c, hc, -⟩ := h.serves.up
      obtain ⟨e0, he0, -⟩ := h.name
      obtain ⟨hholds, hack⟩ := h.serves.unsubscribed identity { forwardTo := conn } sid
        (by rw [he0]; rfl) he hc rfl
      have hlist : ∃ ct c, s.node.table.routing.Lists enc.route ct c :=
        ⟨_, _, (h.serves.own _ hheld hconn).2⟩
      refine (and_congr (not_congr (hholds _)) Iff.rfl).trans ?_
      simp only [hheld, true_and, not_not, Option.some.injEq, exists_eq_left']
      constructor
      · intro ⟨⟨hk, hroute⟩, hres⟩
        cases hk
        exact ⟨rfl, rfl, (hack hheld hroute env.forwarded).mp hres⟩
      · intro ⟨hen, hsid, hcond⟩
        subst hen hsid hconn
        exact ⟨⟨rfl, hlist⟩, (hack hheld hlist env.forwarded).mpr hcond⟩

theorem Inv.removeRoute_iff (h : s.Inv) (name : ProtoName) (conn : ConnId) (env : CallEnv) :
    (Call.removeRoute name conn env).Inverse s ↔
      (Call.removeRoute name conn env).NamesRecord s := by
  refine forall_left_iff.trans (forall_congr' fun k => forall_congr' fun hk => ?_)
  obtain ⟨hheld, hconn, he, c, hc, hloc⟩ := h.routed name conn k hk
  simp only [AppRun.step, AppRun.call, AppRun.update, App.removeRoute]
  cases env.identity with
  | none => simp [hheld]
  | some identity =>
    obtain ⟨e0, he0, -⟩ := h.name
    obtain ⟨hholds, -⟩ := h.serves.unsubscribed identity { recvFrom := some conn } 0
      (by rw [he0]; rfl) he hc (by rw [hloc, Bool.and_false])
    subst hconn
    simp only [hholds, hheld, true_and, not_not, Option.isSome_some, and_true]
    refine and_congr ⟨fun hk => congrArg SubKey.subId hk, fun hid => ?_⟩ Iff.rfl
    rw [← hid]
    rfl

/-- The node has an open local connection that nobody has used, and its table is sound. -/
structure Hosts (n : Node) (conn : ConnId) : Prop where
  up : ∃ c, n.getConnection conn = some c ∧ c.connectionType = .Local ∧ c.channelOpen = true
  table : n.table.Inv n.connType
  unused : ∀ k, n.table.Holds k → k.connId ≠ conn

theorem inv_init {n : Node} {conn : ConnId} (h : Hosts n conn) (encoded : EncodedName)
    (strName : Option StringName) (appId : BitVec 128) (ackCounter : SubId) :
    (init (App.new encoded strName appId conn ackCounter) n).Inv := by
  have hs : (App.new encoded strName appId conn ackCounter).Serves n :=
    ⟨h.up, h.table, fun k hk hc => absurd hc (h.unused k hk)⟩
  have hr := hs.receive (Message.asSubscription_subscription true
    (SlimHeader.new (App.new encoded strName appId conn ackCounter).appName
      (App.new encoded strName appId conn ackCounter).appName "" {}) (ackCounter + 1))
    (fun _ dst e hd he _ => by cases hd; cases he; rfl)
  exact ⟨hr.1.congr rfl rfl, ⟨_, rfl, rfl⟩, fun _ _ hk => (by cases hk),
    fun _ _ _ hk => (by cases hk)⟩

/-- **What is left behind.** After any calls of an application, the next call takes away what it
should exactly when every record concerned is the one it asks for. -/
theorem inverse_iff (n : Node) (conn : ConnId) (hn : Hosts n conn) (encoded : EncodedName)
    (strName : Option StringName) (appId : BitVec 128) (ackCounter : SubId) (calls : List Call)
    (c : Call) :
    c.Inverse (calls.foldl step (init (App.new encoded strName appId conn ackCounter) n)) ↔
      c.NamesRecord
        (calls.foldl step (init (App.new encoded strName appId conn ackCounter) n)) := by
  have h := Run.invariant (fun s c (hs : s.Inv) => hs.step c)
    (inv_init hn encoded strName appId ackCounter) calls
  cases c with
  | unsubscribe name conn env => exact h.unsubscribe_iff name conn env
  | removeRoute name conn env => exact h.removeRoute_iff name conn env
  | subscribe name conn env => exact Iff.rfl
  | setRoute name conn env => exact Iff.rfl
  | forwarding peerSync remoteSync => exact Iff.rfl

/-- A node with a local connection (1) and one to a remote node (4). -/
def hostNode : Node :=
  (([.registerLocal 1 false, .establish 4 { connectionType := .Remote } ⟨.Remote, "n2", ""⟩] :
    List Lifecycle.Action).foldl (Lifecycle.step fun _ => 0)
      (Lifecycle.init Lifecycle.sampleNode)).node

theorem hostNode_hosts : Hosts hostNode 1 where
  up := ⟨_, rfl, rfl, rfl⟩
  table := inv_empty _
  unused := fun k hk => absurd hk (not_holds_empty k)

def hostedApp : App := .new ⟨1, 2, 3, none⟩ none 5 1 100

def granted : CallEnv := ⟨some "token", true⟩

def topic (id : Option NameId) : ProtoName where
  name := some ⟨1, 2, 4, id⟩
  strName := some ⟨"org", "ns", "topic"⟩

theorem inverse_iff_own_id : Hosts hostNode 1 ∧
    (Call.unsubscribe (topic (some ⟨0, 5⟩)) none granted).Inverse
      ([.subscribe (topic (some ⟨0, 5⟩)) none granted].foldl step (init hostedApp hostNode)) := by
  refine ⟨hostNode_hosts, (inverse_iff hostNode 1 hostNode_hosts ⟨1, 2, 3, none⟩ none 5 100
    [.subscribe (topic (some ⟨0, 5⟩)) none granted] _).mpr fun k hk => ?_⟩
  have hsub : ([.subscribe (topic (some ⟨0, 5⟩)) none granted].foldl step
      (init hostedApp hostNode)).subscribed =
        [(topic (some ⟨0, 5⟩), ⟨1, 102, ⟨1, 2, 4, some ⟨0, 5⟩⟩⟩)] := by decide +kernel
  change _ ∈ ([.subscribe (topic (some ⟨0, 5⟩)) none granted].foldl step
      (init hostedApp hostNode)).subscribed at hk
  rw [hsub, List.mem_singleton] at hk
  cases hk
  exact ⟨rfl, by decide +kernel, by decide, "token", rfl, by decide +kernel⟩

/-- A name subscribed without the id of the application stays, and so does every route. -/
theorem records_stay :
    (¬ ∀ (n : Node) (conn : ConnId) (encoded : EncodedName) (strName : Option StringName)
        (appId : BitVec 128) (ackCounter : SubId) (calls : List Call) (name : ProtoName)
        (forwardTo : Option ConnId) (env : CallEnv), Hosts n conn →
      (Call.unsubscribe name forwardTo env).Inverse
        (calls.foldl step (init (App.new encoded strName appId conn ackCounter) n))) ∧
    ¬ ∀ (n : Node) (conn : ConnId) (encoded : EncodedName) (strName : Option StringName)
        (appId : BitVec 128) (ackCounter : SubId) (calls : List Call) (name : ProtoName)
        (route : ConnId) (env : CallEnv), Hosts n conn →
      (Call.removeRoute name route env).Inverse
        (calls.foldl step (init (App.new encoded strName appId conn ackCounter) n)) := by
  refine ⟨fun h => ?_, fun h => ?_⟩
  · have hinv := h hostNode 1 ⟨1, 2, 3, none⟩ none 5 100 [.subscribe (topic none) none granted]
      (topic none) none granted hostNode_hosts
    exact hinv.1 ⟨1, 102, ⟨1, 2, 4, some ⟨0, 5⟩⟩⟩ (by decide +kernel) (by decide +kernel)
  · have hinv := h hostNode 1 ⟨1, 2, 3, none⟩ none 5 100 [.setRoute (topic none) 4 granted]
      (topic none) 4 granted hostNode_hosts
    exact hinv.1 ⟨4, 102, ⟨1, 2, 4, none⟩⟩ (by decide +kernel) (by decide +kernel)

end AppRun

end Slim
