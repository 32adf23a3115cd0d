import Slim.Service.SessionRoutes
import Slim.Service.Proof.App
import Slim.Session.Proof.Loop

/-!
# What a session's routes leave behind

A session keeps one subscription id for each name and connection, and every `add_route` files a
record under a new one. `routes_exact`: as long as no route is added while the session has it, the
records of the table are those from before the session and the entries of `subscription_ids`. A
route that is added twice leaves its first record behind (`route_left_behind`).
-/

namespace Slim

open Node SessionControllerCommon SubscriptionTable

/-! ## One request -/

namespace SubscriptionManager

variable {m : SubscriptionManager} {n : Node} {id : SubId} {forwarded : Except String Unit}
  {conn : ConnId} {c : Connection}

theorem resolveAck_told {out : Out} :
    ∀ e ∈ told m.stream out, m.resolveAck id forwarded e = none := by
  intro e he
  unfold told at he
  split at he
  · cases he
  · split at he
    · rw [List.mem_singleton.mp he]
      rfl
    · cases he
  · cases he

theorem not_accepted {es : List Effect}
    (h : ∀ e ∈ es, m.resolveAck id forwarded e ≠ some (.ok ())) :
    (es.findSome? (m.resolveAck id forwarded)).getD (.error .Timeout) ≠ .ok () := by
  intro hok
  cases hfind : es.findSome? (m.resolveAck id forwarded) with
  | none =>
    rw [hfind] at hok
    cases hok
  | some r =>
    obtain ⟨e, he, hr⟩ := List.exists_of_findSome?_eq_some hfind
    rw [hfind] at hok
    exact h e he (hr.trans (congrArg some hok))

theorem resolveAck_rejected (conn : ConnId) (err : DataPathError) :
    ∀ e ∈ n.sendSubscriptionAck conn id (.error err),
      m.resolveAck id forwarded e ≠ some (.ok ()) := by
  intro e he
  rw [mem_trySend he]
  simp [resolveAck, buildSubscriptionAck, Message.mapHeader]

/-- **An accepted request** for a connection to another node, with an id the node has not forwarded
yet: the table operation it asks for was accepted. -/
theorem request_accepted (add : Bool) {msg : Message} {source name : ProtoName}
    (hm : msg.asSubscription =
      some (add, SlimHeader.new source name "" { recvFrom := some conn }, id))
    (hc : n.getConnection conn = some c) (hl : c.isLocalConnection = false)
    (hseen : add = true → n.peerSync.hasSeenSubId id = false)
    (hok : (m.request n msg id forwarded).1 = .ok ()) :
    ∃ b t, tableStep n.table name conn (n.connType conn) add id = (.ok b, t) ∧
      (m.request n msg id forwarded).2 = n.withTable t := by
  unfold request at hok ⊢
  rw [n.receive_local rfl msg] at hok ⊢
  dsimp only at hok ⊢
  have hout := n.handleNewMessage_asSubscription m.connId .Local hm
  rw [show m.stream.connIndex = m.connId from rfl, show m.stream.category = .Local from rfl] at *
  split at hout
  · obtain ⟨dst, hdst, hout⟩ := hout
    obtain rfl : name = dst := Option.some.inj hdst
    rw [processSubscription_at hc (by rfl) rfl (by simp [hl]), if_neg (by
      rintro ⟨ha, -, hs⟩
      rw [hseen ha] at hs
      cases hs)] at hout
    rw [hout] at hok ⊢
    rw [connType_eq hc]
    rcases ht : tableStep n.table name conn c.connectionType add id with
      ⟨(err | text) | b, t⟩ <;> rw [ht] at hok
    · -- the table refused: the acknowledgement says so, or there is none
      split_ifs at hok
      · exact absurd hok (not_accepted fun e he => by
          rw [show told m.stream _ = [] by simp [told], List.append_nil] at he
          exact resolveAck_rejected _ err e he)
      · refine absurd hok (not_accepted fun e he => ?_)
        rw [resolveAck_told e he]
        simp
    · refine absurd hok (not_accepted fun e he => ?_)
      rw [List.nil_append] at he
      rw [resolveAck_told e he]
      simp
    · exact ⟨b, t, rfl, forwardSubscription_node ..⟩
  · obtain ⟨f, hout⟩ := hout
    rw [hout] at hok
    refine absurd hok (not_accepted fun e he => ?_)
    rw [resolveAck_told e he]
    simp

theorem setRoute_accepted {source name : ProtoName} {subId : Nat} (hinv : n.table.Inv n.connType)
    (hc : n.getConnection conn = some c) (hl : c.isLocalConnection = false)
    (hseen : n.peerSync.hasSeenSubId (m.ackCounter + 1) = false)
    (hok : (m.setRoute n source name conn forwarded).1.map UInt64.toNat = .ok subId) :
    subId = (m.ackCounter + 1).toNat ∧ ∃ e first t, name.name = some e ∧
      Added n.connType n.table t e conn (m.ackCounter + 1) first ∧
      (m.setRoute n source name conn forwarded).2.2 = n.withTable t := by
  have haccepted : (m.request n (buildSubscribe source name "" { recvFrom := some conn }
      (m.ackCounter + 1)) (m.ackCounter + 1) forwarded).1 = .ok () ∧
      subId = (m.ackCounter + 1).toNat := by
    unfold setRoute at hok
    dsimp only at hok
    cases hr : (m.request n (buildSubscribe source name "" { recvFrom := some conn }
      (m.ackCounter + 1)) (m.ackCounter + 1) forwarded).1 with
    | error e =>
      rw [hr] at hok
      cases hok
    | ok u =>
      rw [hr] at hok
      cases hok
      exact ⟨rfl, rfl⟩
  obtain ⟨b, t, ht, hnode⟩ := request_accepted true rfl hc hl (fun _ => hseen)
    haccepted.1
  refine ⟨haccepted.2, ?_⟩
  rcases hinv.add ht with
    ⟨text, hp, -⟩ | ⟨e, first, he, -, ha⟩
  · cases hp
  · exact ⟨e, first, t, he, ha, hnode⟩

theorem removeRoute_accepted {source name : ProtoName} {subId : SubId}
    (hinv : n.table.Inv n.connType) (hc : n.getConnection conn = some c)
    (hl : c.isLocalConnection = false)
    (hok : (m.removeRoute n source name subId conn forwarded).1 = .ok ()) :
    ∃ e last t, name.name = some e ∧
      Removed n.connType n.table t e conn subId last ∧
      (m.removeRoute n source name subId conn forwarded).2 = n.withTable t := by
  obtain ⟨b, t, ht, hnode⟩ := request_accepted false rfl hc hl (fun h => by cases h) hok
  rcases hinv.remove ht
    with ⟨f, hf, -⟩ | ⟨e, last, he, -, hr⟩
  · cases hf
  · exact ⟨e, last, t, he, hr, hnode⟩

end SubscriptionManager

/-! ## One call -/

namespace SessionRoutes

variable {s : SessionRoutes} {name : ProtoName} {conn : ConnId} {c : SessionControllerCommon}
  {r : Except SubscriptionAckError Nat} {x : (ProtoName × ConnId) × SubKey}

/-- An accepted `add_route` keeps the id of the answer. -/
theorem addRoute_accepted (hne : name ≠ c.settings.source)
    (hok : (addRoute name conn (answered c r)).1 = .ok ()) :
    ∃ id, r = .ok id ∧
      (addRoute name conn (answered c r)).2.subscriptionIds =
        c.subscriptionIds.insert (.Route, name, conn) id ∧
      (addRoute name conn (answered c r)).2.settings = c.settings := by
  have hne' : name ≠ (answered c r).settings.source := hne
  simp only [addRoute, Prog.read_bind_run, id, hne'] at hok ⊢
  cases r with
  | error e => cases hok
  | ok id => exact ⟨id, rfl, rfl, rfl⟩

/-- An accepted `delete_route` of a route the session has forgets its id. -/
theorem deleteRoute_accepted {subId : Nat} (hne : name ≠ c.settings.source)
    (hid : routeId c name conn = some subId)
    (hok : (deleteRoute name conn (answered c r)).1 = .ok ()) :
    (∃ x, r = .ok x) ∧
      (deleteRoute name conn (answered c r)).2.subscriptionIds =
        c.subscriptionIds.erase (.Route, name, conn) ∧
      (deleteRoute name conn (answered c r)).2.settings = c.settings := by
  have hne' : name ≠ (answered c r).settings.source := hne
  have hid' : (answered c r).subscriptionIds.lookup (.Route, name, conn) = some subId := hid
  simp only [deleteRoute, deleteEntry,
    Prog.read_bind_run, id, hne', hid', if_false] at hok ⊢
  cases r with
  | error e => cases hok
  | ok x => exact ⟨⟨x, rfl⟩, rfl, rfl⟩

theorem deleteRoute_unknown
    (h : (if name = c.settings.source then none else routeId c name conn) = none) :
    (deleteRoute name conn c).2.settings = c.settings ∧
      ∀ name' conn', routeId (deleteRoute name conn c).2 name' conn' =
        routeId c name' conn' := by
  by_cases hne : name = c.settings.source
  · simp [deleteRoute, hne]
  · rw [if_neg hne] at h
    have hl : c.subscriptionIds.lookup (.Route, name, conn) = none := h
    simp only [deleteRoute, deleteEntry,
      Prog.read_bind_run, id, hne, hl, if_false]
    refine ⟨rfl, fun name' conn' => ?_⟩
    by_cases hkey : (name', conn') = (name, conn)
    · cases hkey
      exact (AList.lookup_erase ..).trans hl.symm
    · exact AList.lookup_erase_ne fun h => hkey (by cases h; rfl)

/-! ## The invariant -/

/-- The record of an entry of `subscription_ids`. -/
def EntryOf (s : SessionRoutes) (name : ProtoName) (k : SubKey) : Prop :=
  name.name = some k.encoded ∧ routeId s.common name k.connId = some k.subId.toNat

theorem EntryOf.eq {k k' : SubKey} (h : s.EntryOf name k) (h' : s.EntryOf name k')
    (hc : k.connId = k'.connId) : k = k' := by
  obtain ⟨kc, ks, ke⟩ := k
  obtain ⟨kc', ks', ke'⟩ := k'
  obtain rfl : kc = kc' := hc
  have hs := Option.some.inj (h.2.symm.trans h'.2)
  have he := Option.some.inj (h.1.symm.trans h'.1)
  rw [SubKey.mk.injEq]
  exact ⟨rfl, UInt64.toNat_inj.mp hs, he⟩

def Remote (n : Node) (conn : ConnId) : Prop :=
  ∃ c, n.getConnection conn = some c ∧ c.isLocalConnection = false

instance decidableRemote (n : Node) (conn : ConnId) : Decidable (Remote n conn) :=
  match h : n.getConnection conn with
  | none => .isFalse fun ⟨_, hc, _⟩ => by rw [h] at hc; cases hc
  | some c =>
    if hl : c.isLocalConnection = false then .isTrue ⟨c, h, hl⟩
    else .isFalse fun ⟨_, hc, hl'⟩ => hl (Option.some.inj (h.symm.trans hc) ▸ hl')

/-- The node is `n₀`, the one before the session, with the records of the session's entries. -/
structure Books (n₀ : Node) (s : SessionRoutes) : Prop where
  connections : ∀ c, s.node.getConnection c = n₀.getConnection c
  table : s.node.table.Inv s.node.connType
  complete : s.node.table.Complete s.node.connType
  holds : ∀ k, s.node.table.Holds k ↔ n₀.table.Holds k ∨ ∃ name, s.EntryOf name k
  new : ∀ name k, s.EntryOf name k → ¬ n₀.table.Holds k
  unique : ∀ name name' k, s.EntryOf name k → s.EntryOf name' k → name = name'
  entry : ∀ name conn subId, routeId s.common name conn = some subId →
    name ≠ s.common.settings.source ∧ Remote s.node conn ∧
      ∃ k, s.EntryOf name k ∧ k.connId = conn
  made : ∀ name conn k, ((name, conn), k) ∈ s.made ↔ k.connId = conn ∧ s.EntryOf name k

/-- The id is fresh, and the route is a new one of the session, over a link; what is given back
leaves its connection no records in other encodings only. -/
def KeepsBooks (s : SessionRoutes) : Call → Prop
  | .addRoute name conn _ => name ≠ s.common.settings.source →
    routeId s.common name conn = none ∧ Remote s.node conn ∧
      s.node.peerSync.hasSeenSubId (s.manager.ackCounter + 1) = false ∧
      ∀ e ∈ name.name, ¬ s.node.table.Holds ⟨conn, s.manager.ackCounter + 1, e⟩
  | .deleteRoute name conn _ => ∀ e ∈ name.name, ∀ subId ∈ routeId s.common name conn,
    s.node.table.KeepsEncoding ⟨conn, UInt64.ofNat subId, e⟩
  | .elsewhere .. => True

instance decidableKeepsBooks (s : SessionRoutes) : ∀ c, Decidable (s.KeepsBooks c)
  | .addRoute .. => inferInstanceAs (Decidable (_ → _))
  | .deleteRoute .. => inferInstanceAs (Decidable (∀ e ∈ _, ∀ subId ∈ _, _))
  | .elsewhere .. => .isTrue trivial

theorem mem_kept {n : Node} {made : List ((ProtoName × ConnId) × SubKey)} :
    x ∈ kept n made ↔ x ∈ made ∧ n.table.Holds x.2 := by
  simp [kept]

theorem mem_filed {e : EncodedName} (he : name.name = some e) :
    x ∈ s.filed name conn ↔
      x = ((name, conn), ⟨conn, s.manager.ackCounter + 1, e⟩) ∧ ¬ s.node.table.Holds x.2 := by
  simp [filed, he]

section steps

variable {n₀ : Node} {t : SubscriptionTable} {s' : SessionRoutes} {e : EncodedName}
  {name' : ProtoName} {k : SubKey}

/-- The entries after `add_route` of a route the session did not have. -/
theorem entryOf_insert {subId : SubId} (he : name.name = some e)
    (hnone : routeId s.common name conn = none)
    (hids : s'.common.subscriptionIds = s.common.subscriptionIds.insert (.Route, name, conn)
      subId.toNat) :
    s'.EntryOf name' k ↔ s.EntryOf name' k ∨ name' = name ∧ k = ⟨conn, subId, e⟩ := by
  unfold EntryOf
  unfold routeId at hnone ⊢
  rw [hids]
  by_cases hkey : (name', k.connId) = (name, conn)
  · obtain ⟨kc, ks, ke⟩ := k
    obtain ⟨rfl, rfl⟩ : name' = name ∧ kc = conn := by simpa using hkey
    simp [he, hnone, UInt64.toNat_inj, eq_comm, and_comm]
  · rw [AList.lookup_insert_ne fun h => hkey (by cases h; rfl)]
    refine ⟨.inl, fun h => h.resolve_right ?_⟩
    rintro ⟨rfl, rfl⟩
    exact hkey rfl

theorem Books.added (h : Books n₀ s) {first : Bool} (hne : name ≠ s.common.settings.source)
    (he : name.name = some e) (hremote : Remote s.node conn)
    (hnone : routeId s.common name conn = none)
    (hfresh : ¬ s.node.table.Holds ⟨conn, s.manager.ackCounter + 1, e⟩)
    (ha : Added s.node.connType s.node.table t e conn
      (s.manager.ackCounter + 1) first)
    (hnode : s'.node = s.node.withTable t) (hset : s'.common.settings = s.common.settings)
    (hids : s'.common.subscriptionIds = s.common.subscriptionIds.insert (.Route, name, conn)
      (s.manager.ackCounter + 1).toNat)
    (hmade : s'.made = kept s'.node (s.filed name conn ++ s.made)) : Books n₀ s' := by
  have hentry : ∀ {name' : ProtoName} {k : SubKey}, s'.EntryOf name' k ↔ _ :=
    entryOf_insert he hnone hids
  have hholds : ∀ k, s'.node.table.Holds k ↔
      s.node.table.Holds k ∨ k = ⟨conn, s.manager.ackCounter + 1, e⟩ := fun k => by
    rw [hnode]
    exact ha.holds k
  have htype : s'.node.connType = s.node.connType := by
    rw [hnode]
    rfl
  have hkey : s'.EntryOf name ⟨conn, s.manager.ackCounter + 1, e⟩ := hentry.mpr (.inr ⟨rfl, rfl⟩)
  refine ⟨?_, ?_, ?_, ?_, ?_, ?_, ?_, ?_⟩
  · rw [hnode]
    exact h.connections
  · rw [hnode]
    exact ha.inv
  · rw [hnode]
    exact ha.complete h.complete
  · intro k
    rw [hholds, h.holds]
    constructor
    · rintro ((hold | ⟨name', hk⟩) | rfl)
      · exact .inl hold
      · exact .inr ⟨name', hentry.mpr (.inl hk)⟩
      · exact .inr ⟨name, hkey⟩
    · rintro (hold | ⟨name', hk⟩)
      · exact .inl (.inl hold)
      · obtain hk | ⟨-, rfl⟩ := hentry.mp hk
        · exact .inl (.inr ⟨name', hk⟩)
        · exact .inr rfl
  · intro name' k hk
    obtain hk | ⟨-, rfl⟩ := hentry.mp hk
    · exact h.new name' k hk
    · exact fun hold => hfresh ((h.holds _).mpr (.inl hold))
  · -- the new record was not held, so it is of no other entry
    intro name₁ name₂ k h₁ h₂
    have hno : ∀ name', ¬ s.EntryOf name' ⟨conn, s.manager.ackCounter + 1, e⟩ :=
      fun name' hk => hfresh ((h.holds _).mpr (.inr ⟨name', hk⟩))
    obtain h₁ | ⟨rfl, rfl⟩ := hentry.mp h₁ <;> obtain h₂ | ⟨rfl, hk⟩ := hentry.mp h₂
    · exact h.unique _ _ k h₁ h₂
    · exact absurd (hk ▸ h₁) (hno _)
    · exact absurd h₂ (hno _)
    · rfl
  · intro name' conn' subId hk
    rw [hset, hnode]
    by_cases hnc : (name', conn') = (name, conn)
    · cases hnc
      exact ⟨hne, hremote, _, hkey, rfl⟩
    · have hold : routeId s.common name' conn' = some subId := by
        rw [← hk, routeId, routeId, hids, AList.lookup_insert_ne fun h => hnc (by cases h; rfl)]
      obtain ⟨hne', hremote', k, hk, hkc⟩ := h.entry name' conn' subId hold
      exact ⟨hne', hremote', k, hentry.mpr (.inl hk), hkc⟩
  · intro name' conn' k
    rw [hmade, mem_kept, List.mem_append, mem_filed he, h.made, hholds]
    constructor
    · rintro ⟨⟨heq, -⟩ | ⟨hc, hk⟩, -⟩
      · cases heq
        exact ⟨rfl, hkey⟩
      · exact ⟨hc, hentry.mpr (.inl hk)⟩
    · rintro ⟨hc, hk⟩
      obtain hk | ⟨rfl, rfl⟩ := hentry.mp hk
      · exact ⟨.inr ⟨hc, hk⟩, .inl ((h.holds k).mpr (.inr ⟨name', hk⟩))⟩
      · cases hc
        exact ⟨.inl ⟨rfl, hfresh⟩, .inr rfl⟩

theorem entryOf_erase
    (hids : s'.common.subscriptionIds = s.common.subscriptionIds.erase (.Route, name, conn)) :
    s'.EntryOf name' k ↔ s.EntryOf name' k ∧ (name', k.connId) ≠ (name, conn) := by
  unfold EntryOf routeId
  rw [hids]
  by_cases hkey : (name', k.connId) = (name, conn)
  · cases hkey
    simp
  · rw [AList.lookup_erase_ne fun h => hkey (by cases h; rfl)]
    exact (and_iff_left hkey).symm

theorem Books.removed (h : Books n₀ s) {last : Bool} (hk : s.EntryOf name k)
    (hkeeps : s.node.table.KeepsEncoding k)
    (hr : Removed s.node.connType s.node.table t k.encoded k.connId k.subId last)
    (hnode : s'.node = s.node.withTable t) (hset : s'.common.settings = s.common.settings)
    (hids : s'.common.subscriptionIds = s.common.subscriptionIds.erase (.Route, name, k.connId))
    (hmade : s'.made = kept s'.node s.made) : Books n₀ s' := by
  have hentry : ∀ {name' : ProtoName} {k' : SubKey}, s'.EntryOf name' k' ↔ _ := entryOf_erase hids
  have hholds : ∀ k', s'.node.table.Holds k' ↔ s.node.table.Holds k' ∧ k' ≠ k := fun k' => by
    rw [hnode]
    exact hr.holds k'
  have htype : s'.node.connType = s.node.connType := by
    rw [hnode]
    rfl
  -- an entry is left exactly when its record is another one
  have hleft : ∀ {name' : ProtoName} {k' : SubKey},
      s'.EntryOf name' k' ↔ s.EntryOf name' k' ∧ k' ≠ k := by
    intro name' k'
    rw [hentry]
    refine and_congr_right fun hk' => not_congr ⟨fun heq => ?_, fun heq => ?_⟩
    · obtain ⟨rfl, hc⟩ := Prod.mk.inj heq
      exact hk'.eq hk hc
    · subst heq
      rw [h.unique _ _ k' hk' hk]
  refine ⟨?_, ?_, ?_, ?_, ?_, ?_, ?_, ?_⟩
  · rw [hnode]
    exact h.connections
  · rw [hnode]
    exact hr.inv
  · rw [hnode]
    exact hr.complete h.complete hkeeps
  · intro k'
    rw [hholds, h.holds]
    constructor
    · rintro ⟨hold | ⟨name', hk'⟩, hne⟩
      · exact .inl hold
      · exact .inr ⟨name', hleft.mpr ⟨hk', hne⟩⟩
    · rintro (hold | ⟨name', hk'⟩)
      · exact ⟨.inl hold, fun heq => h.new name k hk (heq ▸ hold)⟩
      · exact ⟨.inr ⟨name', (hleft.mp hk').1⟩, (hleft.mp hk').2⟩
  · exact fun name' k' hk' => h.new name' k' (hleft.mp hk').1
  · exact fun name₁ name₂ k' h₁ h₂ => h.unique name₁ name₂ k' (hleft.mp h₁).1 (hleft.mp h₂).1
  · intro name' conn' subId hk'
    rw [hset, hnode]
    have hnc : (name', conn') ≠ (name, k.connId) := by
      intro hnc
      cases hnc
      rw [routeId, hids, AList.lookup_erase] at hk'
      cases hk'
    have hold : routeId s.common name' conn' = some subId := by
      rw [← hk', routeId, routeId, hids, AList.lookup_erase_ne fun h => hnc (by cases h; rfl)]
    obtain ⟨hne', hremote', k', hk', hkc⟩ := h.entry name' conn' subId hold
    exact ⟨hne', hremote', k', hentry.mpr ⟨hk', by rwa [hkc]⟩, hkc⟩
  · intro name' conn' k'
    rw [hmade, mem_kept, h.made, hholds, hleft]
    constructor
    · rintro ⟨⟨hc, hk'⟩, -, hne⟩
      exact ⟨hc, hk', hne⟩
    · rintro ⟨hc, hk', hne⟩
      exact ⟨⟨hc, hk'⟩, (h.holds k').mpr (.inr ⟨name', hk'⟩), hne⟩

theorem Books.same (h : Books n₀ s) (htable : s'.node.table = s.node.table)
    (hconn : ∀ c, s'.node.getConnection c = s.node.getConnection c)
    (hset : s'.common.settings = s.common.settings)
    (hids : ∀ name conn, routeId s'.common name conn = routeId s.common name conn)
    (hmade : s'.made = s.made) : Books n₀ s' := by
  have hentry : ∀ name k, s'.EntryOf name k ↔ s.EntryOf name k := fun name k => by
    unfold EntryOf
    rw [hids]
  have htype : s'.node.connType = s.node.connType := by
    funext c
    unfold connType
    rw [hconn]
  refine ⟨fun c => (hconn c).trans (h.connections c), ?_, ?_, ?_, ?_, ?_, ?_, ?_⟩
  · rw [htype, htable]
    exact h.table
  · rw [htype, htable]
    exact h.complete
  · intro k
    rw [htable, h.holds]
    simp [hentry]
  · exact fun name k hk => h.new name k ((hentry name k).mp hk)
  · exact fun n₁ n₂ k h₁ h₂ => h.unique n₁ n₂ k ((hentry n₁ k).mp h₁) ((hentry n₂ k).mp h₂)
  · intro name conn subId hk
    rw [hids] at hk
    obtain ⟨hne, ⟨c, hc, hl⟩, k, hk, hkc⟩ := h.entry name conn subId hk
    exact ⟨by rwa [hset], ⟨c, (hconn conn).trans hc, hl⟩, k, (hentry name k).mpr hk, hkc⟩
  · intro name conn k
    rw [hmade, h.made, hentry]

/-- **One call**: an accepted one that meets the condition keeps the books. -/
theorem Books.call (h : Books n₀ s) {c : Call} (hok : (s.call c).1 = .ok ())
    (hc : s.KeepsBooks c) : Books n₀ (s.step c) := by
  cases c with
  | addRoute name conn forwarded =>
    unfold step
    unfold SessionRoutes.call at hok ⊢
    by_cases hne : name = s.common.settings.source
    · simp only [if_pos hne] at hok ⊢
      refine h.same rfl (fun _ => rfl) ?_ ?_ rfl
      · simp [addRoute, hne]
      · simp [addRoute, hne]
    · simp only [if_neg hne] at hok ⊢
      obtain ⟨hnone, hremote, hseen, hfresh⟩ := hc hne
      obtain ⟨c, hconn, hlocal⟩ := hremote
      obtain ⟨subId, hr, hids, hset⟩ := addRoute_accepted hne hok
      obtain ⟨rfl, e, first, t, he, ha, hnode⟩ :=
        SubscriptionManager.setRoute_accepted h.table hconn hlocal hseen hr
      exact h.added hne he ⟨c, hconn, hlocal⟩ hnone (hfresh e he) ha hnode hset hids rfl
  | deleteRoute name conn forwarded =>
    unfold step
    unfold SessionRoutes.call at hok ⊢
    cases hid : (if name = s.common.settings.source then none else routeId s.common name conn) with
    | none =>
      simp only [hid] at hok ⊢
      obtain ⟨hset, hids⟩ := deleteRoute_unknown hid
      exact h.same rfl (fun _ => rfl) hset hids rfl
    | some subId =>
      simp only [hid] at hok ⊢
      have hne : name ≠ s.common.settings.source := by
        intro hne
        rw [if_pos hne] at hid
        cases hid
      rw [if_neg hne] at hid
      obtain ⟨-, ⟨c, hconn, hlocal⟩, k, hk, rfl⟩ := h.entry name conn subId hid
      obtain rfl : k.subId.toNat = subId := Option.some.inj (hk.2.symm.trans hid)
      obtain ⟨⟨x, hr⟩, hids, hset⟩ := deleteRoute_accepted hne hid hok
      have haccepted : (s.manager.removeRoute s.node s.common.settings.source name
          (UInt64.ofNat k.subId.toNat) k.connId forwarded).1 = .ok () := by
        cases hres : (s.manager.removeRoute s.node s.common.settings.source name
          (UInt64.ofNat k.subId.toNat) k.connId forwarded).1 with
        | error e =>
          rw [hres] at hr
          cases hr
        | ok u => rfl
      obtain ⟨e, last, t, he, hrem, hnode⟩ :=
        SubscriptionManager.removeRoute_accepted h.table hconn hlocal haccepted
      obtain rfl : k.encoded = e := Option.some.inj (hk.1.symm.trans he)
      have hkeeps := hc k.encoded hk.1 _ hid
      rw [UInt64.ofNat_toNat] at hrem hkeeps
      exact h.removed hk hkeeps hrem hnode hset hids rfl
  | elsewhere ackCounter peerSync remoteSync =>
    exact h.same rfl (fun _ => rfl) rfl (fun _ _ => rfl) rfl

end steps

/-! ## Runs -/

theorem books_init (hinv : s.node.table.Inv s.node.connType)
    (hcomplete : s.node.table.Complete s.node.connType)
    (hnone : ∀ name conn, routeId s.common name conn = none) (hmade : s.made = []) :
    Books s.node s := by
  have hentry : ∀ name k, ¬ s.EntryOf name k := by
    rintro name k ⟨-, hk⟩
    rw [hnone] at hk
    cases hk
  refine ⟨fun _ => rfl, hinv, hcomplete, ?_, ?_, ?_, ?_, ?_⟩
  · intro k
    refine ⟨.inl, fun h => h.resolve_right ?_⟩
    rintro ⟨name, hk⟩
    exact hentry name k hk
  · exact fun name k hk => absurd hk (hentry name k)
  · exact fun name _ k hk => absurd hk (hentry name k)
  · intro name conn subId hk
    rw [hnone] at hk
    cases hk
  · intro name conn k
    rw [hmade]
    refine ⟨fun h => absurd h List.not_mem_nil, ?_⟩
    rintro ⟨-, hk⟩
    exact absurd hk (hentry name k)

/-- With every record routed, records decide on the routes. -/
theorem lists_iff_holds {ty : ConnId → ConnType} {t : SubscriptionTable} (hinv : t.Inv ty)
    (hcomplete : t.Complete ty) {q : Prefix × BitVec 128} {ct : ConnType} {c : ConnId} :
    t.routing.Lists q ct c ↔ ∃ k, t.Holds k ∧ k.connId = c ∧ k.encoded.route = q ∧ ct = ty c := by
  constructor
  · intro hl
    obtain ⟨k, hk, hc, hq⟩ := hinv.held hl
    exact ⟨k, hk, hc, hq, hinv.type hl⟩
  · rintro ⟨k, hk, rfl, rfl, rfl⟩
    exact hcomplete k hk

theorem Books.routeId_deleteRoute {n₀ : Node} (h : Books n₀ s) {forwarded : Except String Unit}
    (hok : (s.call (.deleteRoute name conn forwarded)).1 = .ok ()) :
    routeId (s.step (.deleteRoute name conn forwarded)).common name conn = none := by
  unfold step
  unfold SessionRoutes.call at hok ⊢
  cases hid : (if name = s.common.settings.source then none else routeId s.common name conn) with
  | none =>
    simp only [hid]
    rw [(deleteRoute_unknown hid).2]
    by_cases hne : name = s.common.settings.source
    · cases hr : routeId s.common name conn with
      | none => rfl
      | some subId => exact absurd hne (h.entry name conn subId hr).1
    · rwa [if_neg hne] at hid
  | some subId =>
    simp only [hid] at hok ⊢
    have hne : name ≠ s.common.settings.source := by
      intro hne
      rw [if_pos hne] at hid
      cases hid
    rw [if_neg hne] at hid
    rw [routeId, (deleteRoute_accepted hne hid hok).2.1, AList.lookup_erase]

/-- The call is accepted and meets the condition. -/
def Accepted (s : SessionRoutes) (c : Call) : Prop := (s.call c).1 = .ok () ∧ s.KeepsBooks c

instance decidableAccepted (s : SessionRoutes) (c : Call) : Decidable (s.Accepted c) :=
  inferInstanceAs (Decidable (_ ∧ _))

/-- The records a session made are those of its entries, and are all it added to the table: none is
left of a route that was given back, and without routes the table is as before the session. -/
theorem routes_exact (s₀ : SessionRoutes) (hinv : s₀.node.table.Inv s₀.node.connType)
    (hcomplete : s₀.node.table.Complete s₀.node.connType)
    (hnone : ∀ name conn, routeId s₀.common name conn = none) (hmade : s₀.made = [])
    (run : List Call) (hrun : Run.Meets step Accepted s₀ run) :
    let s := run.foldl step s₀
    (∀ k, (∃ name conn, ((name, conn), k) ∈ s.made) ↔ ∃ name, s.EntryOf name k) ∧
    (∀ k, s.node.table.Holds k ↔
      s₀.node.table.Holds k ∨ ∃ name conn, ((name, conn), k) ∈ s.made) ∧
    (∀ name conn forwarded, run.getLast? = some (.deleteRoute name conn forwarded) →
      ∀ k, ((name, conn), k) ∉ s.made) ∧
    ((∀ name conn, routeId s.common name conn = none) →
      (∀ k, s.node.table.Holds k ↔ s₀.node.table.Holds k) ∧
      ∀ q ct c, s.node.table.routing.Lists q ct c ↔ s₀.node.table.routing.Lists q ct c) := by
  have hbooks : ∀ run, Run.Meets step Accepted s₀ run → Books s₀.node (run.foldl step s₀) :=
    fun run hrun => hrun.invariant (fun s c hs hc => hs.call hc.1 hc.2)
      (books_init hinv hcomplete hnone hmade)
  intro s
  have h : Books s₀.node s := hbooks run hrun
  have hentries : ∀ k, (∃ name conn, ((name, conn), k) ∈ s.made) ↔ ∃ name, s.EntryOf name k := by
    intro k
    simp only [h.made]
    exact ⟨fun ⟨name, conn, _, hk⟩ => ⟨name, hk⟩, fun ⟨name, hk⟩ => ⟨name, k.connId, rfl, hk⟩⟩
  refine ⟨hentries, fun k => ?_, fun name conn forwarded hlast k hk => ?_, fun hempty => ?_⟩
  · rw [hentries]
    exact h.holds k
  · obtain ⟨pre, rfl⟩ := List.getLast?_eq_some_iff.mp hlast
    obtain ⟨hpre, hc, -⟩ := Run.meets_append.mp hrun
    have hgone := (hbooks pre hpre).routeId_deleteRoute hc.1
    obtain ⟨rfl, -, hid⟩ := (h.made name conn k).mp hk
    have hs : s = (pre.foldl step s₀).step (.deleteRoute name k.connId forwarded) := by
      simp [s]
    rw [hs, hgone] at hid
    cases hid
  · have hholds : ∀ k, s.node.table.Holds k ↔ s₀.node.table.Holds k := by
      intro k
      rw [h.holds]
      refine ⟨fun hk => hk.resolve_right ?_, .inl⟩
      rintro ⟨name, -, hid⟩
      rw [hempty] at hid
      cases hid
    have htype : s.node.connType = s₀.node.connType := by
      funext c
      unfold connType
      rw [h.connections]
    refine ⟨hholds, fun q ct c => ?_⟩
    rw [lists_iff_holds h.table h.complete, lists_iff_holds hinv hcomplete, htype]
    simp [hholds]

/-! ## A route that is added twice -/

/-- A session of an application on connection 1 of a node with a link (4) to another one. -/
def sampleRoutes : SessionRoutes where
  common := .new SessionLoop.sampleSettings (SessionLoop.sampleEnv 1)
  manager := ⟨1, 100⟩
  node := AppRun.hostNode

/-- A member on the other side of the link, with its id. -/
def sampleMember : ProtoName := AppRun.topic (some ⟨0, 5⟩)

theorem routes_exact_again :
    let run := [.addRoute sampleMember 4 (.ok ()), .deleteRoute sampleMember 4 (.ok ()),
      .addRoute sampleMember 4 (.ok ()), .addRoute (AppRun.topic none) 4 (.ok ()),
      .deleteRoute sampleMember 4 (.ok ())]
    let s := run.foldl step sampleRoutes
    (∀ k, (∃ name conn, ((name, conn), k) ∈ s.made) ↔ ∃ name, s.EntryOf name k) ∧
      ∀ k, ((sampleMember, 4), k) ∉ s.made := by
  intro run s
  obtain ⟨hentries, -, hgone, -⟩ := routes_exact sampleRoutes (inv_empty _)
    (complete_empty _) (fun _ _ => rfl) rfl run (by decide +kernel)
  exact ⟨hentries, hgone sampleMember 4 (.ok ()) rfl⟩

/-- Discovery and join add the same route. Only the second record goes when the route is given back:
the session has no routes left and the table has its first record. -/
theorem route_left_behind :
    let run := [.addRoute sampleMember 4 (.ok ()), .addRoute sampleMember 4 (.ok ()),
      .deleteRoute sampleMember 4 (.ok ())]
    let s := run.foldl step sampleRoutes
    Run.Meets step (fun s c => (s.call c).1 = .ok ()) sampleRoutes run ∧
      s.common.subscriptionIds.keys = [] ∧ (∃ k, ((sampleMember, 4), k) ∈ s.made) ∧
      ∃ k, s.node.table.Holds k ∧ ¬ sampleRoutes.node.table.Holds k := by
  refine ⟨by decide +kernel, by decide +kernel,
    ⟨⟨4, 101, ⟨1, 2, 4, some ⟨0, 5⟩⟩⟩, by decide +kernel⟩,
    ⟨4, 101, ⟨1, 2, 4, some ⟨0, 5⟩⟩⟩, by decide +kernel⟩

end SessionRoutes

end Slim
