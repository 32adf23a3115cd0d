import Slim.ControlPlane

/-!
# When the control plane's view is right

`view_right`: in every run whose steps meet `KeepsView`, the last notification of a name is a
Subscribe exactly when a connection that counts holds it; `view_wrong` has runs where it is not. A
step is sound when, for each name, its last notification says what is held afterwards, or there is
none and nothing changed (`ViewStep`); the table side is in terms of `HeldIn`, which forgets the
streams.
-/

namespace Slim

open EncodedName Message SubscriptionTable

variable {es : List Effect}

/-! ## Notifications -/

@[simp] theorem notices_append (es es' : List Effect) :
    notices (es ++ es') = notices es ++ notices es' := List.filterMap_append

@[simp] theorem notices_nil : notices [] = [] := rfl

theorem lastNotice_append (q : Prefix × BitVec 128) (es es' : List Effect) :
    lastNotice q (es ++ es') = (lastNotice q es').or (lastNotice q es) := by
  unfold lastNotice
  rw [notices_append, List.filterMap_append, List.getLast?_append]

theorem notices_eq_nil (h : ∀ e ∈ es, e.toControlPlane = none) : notices es = [] :=
  List.filterMap_eq_nil_iff.mpr h

theorem notices_onlySends (h : Node.OnlySends es) : notices es = [] := by
  apply notices_eq_nil
  intro e he
  obtain ⟨c, m, rfl⟩ := h e he
  rfl

theorem notices_ackTo {conn : ConnId} (h : Node.AckTo conn es) : notices es = [] := by
  apply notices_eq_nil
  intro e he
  obtain ⟨m, rfl⟩ := h e he
  rfl

theorem lastNotice_eq_none {q : Prefix × BitVec 128} (h : notices es = []) :
    lastNotice q es = none := by
  unfold lastNotice
  rw [h]
  rfl

namespace Node

/-! ## Messages without `recv_from` -/

section
variable {n : Node} {conn : ConnId} {c : Connection} {hdr : SlimHeader} {subId : SubId} {add : Bool}
  {msg : Message}

theorem forwardSubscription_notices (n : Node) (msg : Message) (dst : ProtoName) (ttl : Nat)
    (subId : SubId) (inConnection inConn : ConnId) (c : Connection) (add : Bool)
    (outcome : SubscriptionOutcome) :
    notices (n.forwardSubscription msg dst ttl subId inConnection inConn c add outcome).effects =
      if c.isLocalConnection && !outcome.isPeerConn && outcome.transition && n.controlPlane
      then [msg] else [] := by
  unfold forwardSubscription
  dsimp only
  split
  · split <;> rfl
  · rw [notices_append, notices_ackTo (ackTo_ackIfAsked n _ _ _)]
    split <;> rfl

/-- What the control plane hears of a table operation of a connection. -/
def transitionNotice (c : Connection) (controlPlane : Bool) (msg : Message)
    (r : Except (Fault DataPathError) Bool) : List Message :=
  match r with
  | .ok transition => if c.isLocalConnection && transition && controlPlane then [msg] else []
  | .error _ => []

section
variable (hc : n.getConnection conn = some c)
include hc

/-- A (un)subscription for its own connection, whatever `forward_to` says. -/
theorem processSubscription_own (hrf : hdr.recvFrom = none)
    (msg : Message) (dst : ProtoName) (subId : SubId) (add : Bool)
    (hseen : ¬ (add = true ∧ subId ≠ 0 ∧ n.peerSync.hasSeenSubId subId = true)) :
    (n.processSubscription msg hdr dst subId conn add).node =
        n.withTable (tableStep n.table dst conn c.connectionType add subId).2 ∧
      notices (n.processSubscription msg hdr dst subId conn add).effects =
        transitionNotice c n.controlPlane msg
          (tableStep n.table dst conn c.connectionType add subId).1 := by
  rw [processSubscription_at hc (by rw [hrf]; rfl) rfl (by rw [hrf]; rfl), if_neg hseen]
  rcases tableStep n.table dst conn c.connectionType add subId with ⟨r, t⟩
  rcases r with (e | m) | transition
  · dsimp only
    split
    · exact ⟨rfl, notices_ackTo (ackTo_sendSubscriptionAck (n.withTable t) conn subId (.error e))⟩
    · exact ⟨rfl, rfl⟩
  · exact ⟨rfl, rfl⟩
  · have hpeer : (c.isLocalConnection && !c.isPeerConnection) = c.isLocalConnection := by
      unfold Connection.isLocalConnection Connection.isPeerConnection
      cases c.connectionType <;> rfl
    refine ⟨forwardSubscription_node _ _ _ _ _ _ _ _ _ _, ?_⟩
    rw [forwardSubscription_notices, hpeer]
    rfl

theorem processSubscription_seen (hrf : hdr.recvFrom = none) (msg : Message) (dst : ProtoName)
    (hseen : add = true ∧ subId ≠ 0 ∧ n.peerSync.hasSeenSubId subId = true) :
    (n.processSubscription msg hdr dst subId conn add).node = n ∧
      notices (n.processSubscription msg hdr dst subId conn add).effects = [] := by
  rw [processSubscription_at hc (by rw [hrf]; rfl) rfl (by rw [hrf]; rfl), if_pos hseen]
  exact ⟨rfl, notices_ackTo (ackTo_ackIfAsked n _ _ _)⟩

/-- A message that gets to the table changes it for its connection; another one changes nothing. -/
theorem handleNewMessage_own (hrf : hdr.recvFrom = none)
    (ct : ConnType) (hm : msg.asSubscription = some (add, hdr, subId)) :
    if Lifecycle.Taken n ct add hdr subId then
      ∃ dst, hdr.destination = some dst ∧
        (n.handleNewMessage conn ct msg).node =
          n.withTable (tableStep n.table dst conn c.connectionType add subId).2 ∧
        notices (n.handleNewMessage conn ct msg).effects =
          transitionNotice c n.controlPlane (passedOn conn ct msg)
            (tableStep n.table dst conn c.connectionType add subId).1
    else (n.handleNewMessage conn ct msg).node = n ∧
      notices (n.handleNewMessage conn ct msg).effects = [] := by
  have h := handleNewMessage_asSubscription n conn ct hm
  have hrf : (received conn ct hdr).recvFrom = none := hrf
  split
  · rename_i ht
    obtain ⟨hv, httl, hseen⟩ := ht
    rw [if_pos ⟨hv, httl⟩] at h
    obtain ⟨dst, hd, heq⟩ := h
    rw [heq]
    exact ⟨dst, hd, processSubscription_own hc hrf _ dst subId add hseen⟩
  · rename_i ht
    split at h
    · rename_i hok
      obtain ⟨dst, -, heq⟩ := h
      have hseen : add = true ∧ subId ≠ 0 ∧ n.peerSync.hasSeenSubId subId = true :=
        not_not.mp fun hs => ht ⟨hok.1, hok.2, hs⟩
      rw [heq]
      exact processSubscription_seen hc hrf _ dst hseen
    · obtain ⟨f, heq⟩ := h
      rw [heq]
      exact ⟨rfl, rfl⟩

end

/-! ## Streams -/

/-- The copy the control plane gets of a remote (un)subscription. -/
def copyFor (add : Bool) (source dst : ProtoName) : Message :=
  .subscription add (SlimHeader.new source dst "" {}) 0

theorem controlPlaneCopy_subscription (hm : msg.asSubscription = some (add, hdr, subId)) :
    (∃ f, controlPlaneCopy msg = .error f ∧ hdr.validateRouted ≠ .ok ()) ∨
      ∃ source dst, hdr.source = some source ∧ hdr.destination = some dst ∧
        controlPlaneCopy msg = .ok [.controlPlane (copyFor add source dst)] := by
  have hinvalid : hdr.source = none ∨ hdr.destination = none → hdr.validateRouted ≠ .ok () := by
    intro h hv
    obtain ⟨src, dst, hs, -, hd, -⟩ := SlimHeader.validateRouted_eq_ok.mp hv
    simp [hs, hd] at h
  unfold controlPlaneCopy
  rw [messageType_of_asSubscription hm]
  cases add <;> simp only [subscription, Bool.false_eq_true, ↓reduceIte]
  all_goals
    cases hs : hdr.source with
    | none => exact .inl ⟨_, rfl, hinvalid (.inl hs)⟩
    | some source =>
      cases hd : hdr.destination with
      | none => exact .inl ⟨_, rfl, hinvalid (.inr hd)⟩
      | some dst => exact .inr ⟨source, dst, rfl, rfl, rfl⟩

theorem notices_told (st : Stream) (out : Out) : notices (told st out) = [] := by
  unfold told
  split
  · rfl
  · split <;> rfl
  · rfl

theorem receive_of_copied {st : Stream} {copies : List Effect} (h : n.copied st msg = .ok copies) :
    (n.receive st msg).node = (n.handleNewMessage st.connIndex st.category msg).node ∧
      notices (n.receive st msg).effects =
        notices copies ++ notices (n.handleNewMessage st.connIndex st.category msg).effects := by
  unfold receive
  rw [h]
  refine ⟨rfl, ?_⟩
  rw [notices_append, notices_append, notices_told, List.append_nil]

section
variable {st : Stream} {msg : Message} {copies : List Effect}

theorem copied_nothing (hc : n.getConnection st.connIndex = some c)
    (hct : c.connectionType = st.category) (hloc : st.isLocal = true ↔ st.category = .Local)
    (h : st.category = .Local ∨ st.category = .Peer)
    (hm : msg.asSubscription = some (add, hdr, subId)) : n.copied st msg = .ok [] := by
  have htype : msg.messageType.isNone = false := by
    rw [messageType_of_asSubscription hm]
    rfl
  unfold copied
  rw [hc]
  cases h with
  | inl h =>
    rw [hloc.mpr h]
    simp
  | inr h => simp [hct, h, htype]

theorem copied_remote (msg : Message) (hc : n.getConnection st.connIndex = some c)
    (hct : c.connectionType = st.category) (hloc : st.isLocal = false)
    (hcp : st.fromControlPlane = false) (hn : st.notifies = true)
    (h : st.category = .Remote ∨ st.category = .Edge) : n.copied st msg = controlPlaneCopy msg := by
  unfold copied
  rw [hc]
  rcases h with h | h <;> simp [hct, h, hloc, hcp, hn]

theorem copied_ok (h : n.copied st msg = .ok copies) :
    copies = [] ∨ controlPlaneCopy msg = .ok copies := by
  unfold copied at h
  dsimp only at h
  split_ifs at h
  · exact .inr h
  · cases h
    exact .inl rfl

theorem controlPlaneCopy_other (hm : msg.asSubscription = none)
    (h : controlPlaneCopy msg = .ok copies) : copies = [] := by
  unfold asSubscription at hm
  unfold controlPlaneCopy at h
  split at h
  case h_1 hdr _ hmt | h_2 hdr _ hmt =>
    cases hdr with
    | none => cases h
    | some hdr => simp [hmt] at hm
  · cases h
    rfl
  · cases h

theorem receive_other (st : Stream) (hw : n.table.routing.Wf) (hm : msg.asSubscription = none) :
    SameLinks n (n.receive st msg).node ∧
      n.table.Shrunk (· ∈ n.forwarder.connectionTable) (n.receive st msg).node.table ∧
      notices (n.receive st msg).effects = [] := by
  cases hcp : n.copied st msg with
  | error f =>
    unfold receive
    rw [hcp]
    exact ⟨.refl n, .refl hw, rfl⟩
  | ok copies =>
    have hnil : copies = [] := (copied_ok hcp).elim id (controlPlaneCopy_other hm)
    obtain ⟨hn, hes⟩ := receive_of_copied hcp
    obtain ⟨hl, hs, hsends⟩ := handleNewMessage_other_node n hw st.connIndex st.category hm
    rw [hn, hes, hnil, notices_onlySends hsends]
    exact ⟨hl, hs, rfl⟩

end

end

end Node

/-! ## The table side -/

namespace SubscriptionTable

/-- Some connection that is no peer has a record of the name `q`. -/
def HeldIn (ty : ConnId → ConnType) (t : SubscriptionTable) (q : Prefix × BitVec 128) : Prop :=
  ∃ k, t.Holds k ∧ ty k.connId ≠ .Peer ∧ k.encoded.route = q

section
variable {ty : ConnId → ConnType} {t t' : SubscriptionTable} {e : EncodedName} {conn : ConnId}
  {sid : SubId}

theorem heldIn_congr {ty' : ConnId → ConnType}
    (hty : ∀ k, t.Holds k → ty' k.connId = ty k.connId) (q : Prefix × BitVec 128) :
    HeldIn ty' t q ↔ HeldIn ty t q := by
  refine exists_congr fun k => and_congr_right fun hk => ?_
  rw [hty k hk]

theorem Added.heldIn_iff {first : Bool} (h : Added ty t t' e conn sid first)
    (q : Prefix × BitVec 128) : HeldIn ty t' q ↔ HeldIn ty t q ∨ q = e.route ∧ ty conn ≠ .Peer := by
  constructor
  · intro ⟨k, hk, hty, hq⟩
    cases (h.holds k).mp hk with
    | inl hk => exact .inl ⟨k, hk, hty, hq⟩
    | inr hk =>
      subst hk
      exact .inr ⟨hq.symm, hty⟩
  · intro hq
    cases hq with
    | inl hq =>
      obtain ⟨k, hk, hty, hq⟩ := hq
      exact ⟨k, (h.holds k).mpr (.inl hk), hty, hq⟩
    | inr hq => exact ⟨⟨conn, sid, e⟩, (h.holds _).mpr (.inr rfl), hq.2, hq.1.symm⟩

theorem Added.heldIn_of_not_first (h : Added ty t t' e conn sid false) (hi : t.Inv ty)
    (hty : ty conn ≠ .Peer) : HeldIn ty t e.route := by
  have hlisted : ¬ ∀ c, ¬ t.routing.Lists e.route (ty conn) c := fun hno =>
    (by cases h.first_iff.mpr hno)
  obtain ⟨c, hc⟩ := not_forall_not.mp hlisted
  obtain ⟨k, hk, rfl, hkq⟩ := hi.held hc
  refine ⟨k, hk, ?_, hkq⟩
  rw [← hi.type hc]
  exact hty

theorem Removed.heldIn_iff {last : Bool} (h : Removed ty t t' e conn sid last)
    {q : Prefix × BitVec 128} (hq : q ≠ e.route ∨ ty conn = .Peer) :
    HeldIn ty t' q ↔ HeldIn ty t q := by
  constructor
  · intro ⟨k, hk, hty, hkq⟩
    exact ⟨k, ((h.holds k).mp hk).1, hty, hkq⟩
  · intro ⟨k, hk, hty, hkq⟩
    refine ⟨k, (h.holds k).mpr ⟨hk, fun hkey => ?_⟩, hty, hkq⟩
    subst hkey
    cases hq with
    | inl hq => exact hq hkq.symm
    | inr hq => exact hty hq

theorem Removed.heldIn_before {last : Bool} (h : Removed ty t t' e conn sid last)
    (hty : ty conn ≠ .Peer) : HeldIn ty t e.route := ⟨_, h.held, hty, rfl⟩

theorem Removed.heldIn_of_not_last (h : Removed ty t t' e conn sid false)
    (hty : ty conn ≠ .Peer) : HeldIn ty t' e.route := by
  by_cases hs : t'.StillSubscribed conn e
  · obtain ⟨k, hk, hkc, hke⟩ := hs
    exact ⟨k, hk, (by rw [hkc]; exact hty), (by rw [hke])⟩
  · have hlisted : ¬ ∀ c, ¬ t'.routing.Lists e.route (ty conn) c := fun hno =>
      (by cases h.last_iff.mpr ⟨hs, hno⟩)
    obtain ⟨c, hc⟩ := not_forall_not.mp hlisted
    obtain ⟨k, hk, rfl, hkq⟩ := h.inv.held hc
    refine ⟨k, hk, ?_, hkq⟩
    rw [← h.inv.type hc]
    exact hty

theorem Removed.type_ne_of_last (h : Removed ty t t' e conn sid true) (hc : t'.Complete ty)
    {k : SubKey} (hk : t'.Holds k) (hq : k.encoded.route = e.route) : ty k.connId ≠ ty conn := by
  intro hty
  have hl := hc k hk
  rw [hq, hty] at hl
  exact (h.last_iff.mp rfl).2 _ hl

end

end SubscriptionTable

inductive Tabled (ty : ConnId → ConnType) (t : SubscriptionTable) (dst : ProtoName)
    (e : EncodedName) (conn : ConnId) (subId : SubId) :
    Bool → Except (Fault DataPathError) Bool × SubscriptionTable → Prop
  | refused {add : Bool} {f : Fault DataPathError}
      (hadd : add = true → dst.strName = none ∧ t.routing.lookup e.prefix3 = none)
      (hremove : add = false → ¬ t.Holds ⟨conn, subId, e⟩) :
      Tabled ty t dst e conn subId add (.error f, t)
  | added {first : Bool} {t' : SubscriptionTable}
      (ha : Added ty t t' e conn subId first) :
      Tabled ty t dst e conn subId true (.ok first, t')
  | removed {last : Bool} {t' : SubscriptionTable}
      (hr : Removed ty t t' e conn subId last) :
      Tabled ty t dst e conn subId false (.ok last, t')

theorem tabled_tableStep {ty : ConnId → ConnType} {t : SubscriptionTable} (hi : t.Inv ty)
    (hc : t.Complete ty) {dst : ProtoName} {e : EncodedName} (he : dst.name = some e)
    (conn : ConnId) (subId : SubId) (add : Bool) :
    Tabled ty t dst e conn subId add (Node.tableStep t dst conn (ty conn) add subId) := by
  cases add with
  | true =>
    show Tabled ty t dst e conn subId true (t.addSubscription dst conn (ty conn) subId)
    rcases hr : t.addSubscription dst conn (ty conn) subId with ⟨r, t'⟩
    rcases hi.add hr with ⟨m, rfl, rfl, hno⟩ | ⟨e', first, he', rfl, ha⟩
    · exact .refused (fun _ => hno e he) (fun h => (by cases h))
    · rw [he, Option.some.injEq] at he'
      subst he'
      exact .added ha
  | false =>
    show Tabled ty t dst e conn subId false (t.removeSubscription dst conn (ty conn) subId)
    rcases hr : t.removeSubscription dst conn (ty conn) subId with ⟨r, t'⟩
    rcases hi.remove_complete hc hr with ⟨f, rfl, rfl, hno⟩ | ⟨e', last, he', rfl, hrem⟩
    · exact .refused (fun h => (by cases h)) (fun _ => hno e he)
    · rw [he, Option.some.injEq] at he'
      subst he'
      exact .removed hrem

/-! ## Steps -/

/-- The last notification of a name says what is held afterwards; a name without a notification is
held as before. -/
def ViewStep (held held' : Prefix × BitVec 128 → Prop) (es : List Effect) : Prop :=
  ∀ q, match lastNotice q es with
    | some b => b = true ↔ held' q
    | none => held' q ↔ held q

section
variable {held held' : Prefix × BitVec 128 → Prop} {es tr : List Effect}

theorem ViewStep.view (h : ViewStep held held' es)
    (hv : ∀ q, lastNotice q tr = some true ↔ held q) (q : Prefix × BitVec 128) :
    lastNotice q (tr ++ es) = some true ↔ held' q := by
  have hq := h q
  rw [lastNotice_append]
  cases hl : lastNotice q es with
  | none =>
    rw [hl] at hq
    rw [Option.none_or, hv]
    exact hq.symm
  | some b =>
    rw [hl] at hq
    rw [Option.some_or, Option.some.injEq]
    exact hq

theorem viewStep_silent (hn : notices es = []) (h : ∀ q, held' q ↔ held q) :
    ViewStep held held' es := by
  intro q
  rw [lastNotice_eq_none hn]
  exact h q

theorem viewStep_notice {m : Message} {add : Bool} {hdr : SlimHeader} {subId : SubId}
    {e : EncodedName} (hn : notices es = [m]) (hm : m.asSubscription = some (add, hdr, subId))
    (he : hdr.destination.bind ProtoName.name = some e)
    (hother : ∀ q, q ≠ e.route → (held' q ↔ held q)) (hown : add = true ↔ held' e.route) :
    ViewStep held held' es := by
  intro q
  have hl : lastNotice q es = if e.route = q then some add else none := by
    unfold lastNotice
    rw [hn]
    simp only [List.filterMap_cons, noticeOf, hm, he]
    by_cases hq : e.route = q
    · simp [hq]
    · simp [hq]
  rw [hl]
  by_cases hq : e.route = q
  · rw [if_pos hq, ← hq]
    exact hown
  · rw [if_neg hq]
    exact hother q (Ne.symm hq)

end

namespace Lifecycle

variable {s : Lifecycle} {id : ConnId}

/-- The invariant: types agree, every record is routed, streams notify as their type asks, the
control plane has no record of its own, and the view is right. -/
structure ViewInv (s : Lifecycle) : Prop where
  inv : s.Inv
  complete : s.node.table.Complete s.node.connType
  isLocal : ∀ {id st}, s.streams.lookup id = some st → (st.isLocal = true ↔ st.category = .Local)
  notifies : ∀ {id st}, s.streams.lookup id = some st → st.isLocal = false →
    st.notifies = true ∧ st.fromControlPlane = false
  own : ∀ k, s.node.table.Holds k → ¬ s.OwnedByControlPlane k.connId
  view : ∀ q, lastNotice q s.trace = some true ↔ s.node.table.HeldIn s.node.connType q

theorem ViewInv.counts_iff (h : s.ViewInv) {k : SubKey} (hk : s.node.table.Holds k) :
    s.Counts k.connId ↔ s.node.connType k.connId ≠ .Peer := by
  obtain ⟨c, hc⟩ := Option.isSome_iff_exists.mp (AList.lookup_isSome.mpr (h.inv.held k hk))
  have hc : s.node.getConnection k.connId = some c := hc
  rw [Node.connType_eq hc]
  constructor
  · intro ⟨⟨c', hc', hct⟩, _⟩
    rw [hc, Option.mem_some_iff] at hc'
    rw [hc']
    exact hct
  · intro hct
    exact ⟨⟨c, hc, hct⟩, h.own k hk⟩

theorem ViewInv.held_iff (h : s.ViewInv) (q : Prefix × BitVec 128) :
    s.Held q ↔ s.node.table.HeldIn s.node.connType q := by
  refine exists_congr fun k => and_congr_right fun hk => ?_
  rw [h.counts_iff hk]

/-! ## A (un)subscription -/

section
variable {s : Lifecycle} {st : Stream} {c : Connection} {msg : Message} {add : Bool}
  {hdr : SlimHeader} {subId : SubId} {dst : ProtoName} {e : EncodedName} {es : List Effect}
  {t : SubscriptionTable} {m : Message} {i : SubId} {id : ConnId}

/-- What a (un)subscription does to the records and the view. -/
structure MessageStep (s : Lifecycle) (n' : Node) (es : List Effect) : Prop where
  complete : n'.table.Complete s.node.connType
  holds : ∀ k, n'.table.Holds k → s.node.table.Holds k ∨ ¬ s.OwnedByControlPlane k.connId
  view : ViewStep (s.node.table.HeldIn s.node.connType) (n'.table.HeldIn s.node.connType) es

section
variable (h : s.ViewInv) {n' : Node} {conn : ConnId}

include h

theorem messageStep_unchanged (hn : n' = s.node) (hes : ∀ q, lastNotice q es = none) :
    MessageStep s n' es := by
  subst hn
  refine ⟨h.complete, fun k hk => .inl hk, fun q => ?_⟩
  rw [hes]

/-- A subscription the table took, with what the control plane was told of it. -/
theorem ViewInv.subscribed (hcp : ¬ s.OwnedByControlPlane conn) {first : Bool}
    (ha : Added s.node.connType s.node.table t e conn subId first)
    (hm : m.asSubscription = some (true, hdr, i))
    (he : hdr.destination.bind ProtoName.name = some e)
    (hes : notices es = [m] ∧ s.node.connType conn ≠ .Peer ∨ notices es = [] ∧
      (s.node.connType conn ≠ .Peer → first = false)) :
    MessageStep s (s.node.withTable t) es := by
  refine ⟨ha.complete h.complete, fun k hk => ?_, ?_⟩
  · cases (ha.holds k).mp hk with
    | inl hk => exact .inl hk
    | inr hk => exact .inr (by rw [hk]; exact hcp)
  · cases hes with
    | inl hes =>
      refine viewStep_notice hes.1 hm he (fun q hq => ?_) ?_
      · rw [Node.withTable_table, ha.heldIn_iff]
        simp [hq]
      · rw [Node.withTable_table, ha.heldIn_iff]
        simp [hes.2]
    | inr hes =>
      refine viewStep_silent hes.1 fun q => ?_
      rw [Node.withTable_table, ha.heldIn_iff]
      refine ⟨fun hq => ?_, .inl⟩
      cases hq with
      | inl hq => exact hq
      | inr hq =>
        have hf := hes.2 hq.2
        subst hf
        rw [hq.1]
        exact ha.heldIn_of_not_first h.inv.table hq.2

theorem ViewInv.unsubscribed {last : Bool}
    (hr : Removed s.node.connType s.node.table t e conn subId last)
    (hkeep : s.node.table.KeepsEncoding ⟨conn, subId, e⟩)
    (hm : m.asSubscription = some (false, hdr, i))
    (he : hdr.destination.bind ProtoName.name = some e)
    (hes : notices es = [m] ∧ ¬ t.HeldIn s.node.connType e.route ∨ notices es = [] ∧
      (s.node.connType conn ≠ .Peer → last = false)) :
    MessageStep s (s.node.withTable t) es := by
  refine ⟨hr.complete h.complete hkeep, fun k hk => .inl ((hr.holds k).mp hk).1, ?_⟩
  cases hes with
  | inl hes =>
    refine viewStep_notice hes.1 hm he (fun q hq => hr.heldIn_iff (.inl hq)) ?_
    simpa using hes.2
  | inr hes =>
    refine viewStep_silent hes.1 fun q => ?_
    by_cases hp : s.node.connType conn = .Peer
    · exact hr.heldIn_iff (.inr hp)
    · by_cases hq : q = e.route
      · have hl := hes.2 hp
        subst hl hq
        exact iff_of_true (hr.heldIn_of_not_last hp) (hr.heldIn_before hp)
      · exact hr.heldIn_iff (.inl hq)

/-- The records stay as they are and the control plane is told what they say. -/
theorem messageStep_noticed (hn : n' = s.node) (hes : notices es = [m])
    (hm : m.asSubscription = some (add, hdr, i)) (he : hdr.destination.bind ProtoName.name = some e)
    (hown : add = true ↔ s.node.table.HeldIn s.node.connType e.route) : MessageStep s n' es := by
  subst hn
  exact ⟨h.complete, fun k hk => .inl hk, viewStep_notice hes hm he (fun q _ => Iff.rfl) hown⟩

section
variable (hst : s.streams.lookup id = some st)
include hst

omit h in
theorem not_owned
    (hown : st.fromControlPlane = false) : ¬ s.OwnedByControlPlane id := by
  intro ⟨st', hst', hcp⟩
  rw [hst, Option.mem_some_iff] at hst'
  rw [← hst', hown] at hcp
  cases hcp

/-- A message that is not copied: of a local or peer connection. -/
theorem ViewInv.message_own
    (hcat : st.category = .Local ∨ st.category = .Peer)
    (hm : msg.asSubscription = some (add, hdr, subId)) (hd : hdr.destination = some dst)
    (he : dst.name = some e) (hcp : s.node.controlPlane = true) (hown : st.fromControlPlane = false)
    (hrf : hdr.recvFrom = none) (hkeep : add = false → s.node.table.KeepsEncoding ⟨id, subId, e⟩)
    (hright : s.NotifiesRight st.category add hdr dst e ⟨id, subId, e⟩) :
    MessageStep s (s.node.receive st msg).node (s.node.receive st msg).effects := by
  obtain ⟨hid, c, hc, hct⟩ := h.inv.stream hst
  have hty : s.node.connType id = c.connectionType := Node.connType_eq hc
  have hcopied := Node.copied_nothing (hid ▸ hc) hct (h.isLocal hst) hcat hm
  obtain ⟨hn, hes⟩ := Node.receive_of_copied hcopied
  have hout := Node.handleNewMessage_own (hid ▸ hc) hrf st.category hm
  have hpm := Node.asSubscription_passedOn id st.category msg
  rw [hm] at hpm
  have hbind : hdr.destination.bind ProtoName.name = some e := by
    rw [hd]
    exact he
  rw [hid] at hn hes hout
  rw [hn]
  split at hout
  · obtain ⟨dst', hd', hn', hes'⟩ := hout
    rw [hd, Option.some.injEq] at hd'
    subst hd'
    rw [hes', hcp] at hes
    rw [hn']
    have htab := tabled_tableStep h.inv.table h.complete he id subId add
    rw [hty] at htab
    generalize Node.tableStep s.node.table dst id c.connectionType add subId = x at htab hes ⊢
    have hnotice : ∀ b : Bool, Node.transitionNotice c true (Node.passedOn id st.category msg)
        (.ok b) = if st.category = .Local ∧ b = true then [Node.passedOn id st.category msg]
          else [] := by
      intro b
      simp [Node.transitionNotice, Connection.isLocalConnection, hct]
    cases htab with
    | refused hadd hremove =>
      exact messageStep_unchanged h rfl fun q => lastNotice_eq_none hes
    | @added first t ha =>
      refine h.subscribed (not_owned hst hown) ha hpm hbind ?_
      rw [hes, hnotice, hty, hct]
      cases hcat with
      | inl hcat => cases first <;> simp [hcat]
      | inr hcat => simp [hcat]
    | @removed last t hr =>
      refine h.unsubscribed hr (hkeep rfl) hpm hbind ?_
      rw [hes, hnotice, hty, hct]
      cases hcat with
      | inr hcat => simp [hcat]
      | inl hcat =>
        cases last with
        | false => simp
        | true =>
          refine .inl ⟨by simp [hcat], fun hheld => ?_⟩
          rw [hcat] at hright
          obtain ⟨k, hk, hkty, hkq⟩ := hheld
          obtain ⟨hk', hne⟩ := (hr.holds k).mp hk
          -- some other local record would have kept the slot
          obtain ⟨k', hk1, hk2, hk3, hk4⟩ :=
            hright hr.held k hk' ((h.counts_iff hk').mpr hkty) hkq hne
          have hlast := hr.type_ne_of_last (hr.complete h.complete (hkeep rfl))
            ((hr.holds k').mpr ⟨hk1, hk3⟩) hk2
          rw [hk4, hty, hct, hcat] at hlast
          exact hlast rfl
  · obtain ⟨hn', hes'⟩ := hout
    refine messageStep_unchanged h hn' fun q => lastNotice_eq_none ?_
    rw [hes, hes']
    rfl

/-- A copied message: of a remote or edge connection. -/
theorem ViewInv.message_remote
    (hcat : st.category = .Remote ∨ st.category = .Edge)
    (hm : msg.asSubscription = some (add, hdr, subId)) (hd : hdr.destination = some dst)
    (he : dst.name = some e) (hrf : hdr.recvFrom = none)
    (hkeep : add = false → s.node.table.KeepsEncoding ⟨id, subId, e⟩)
    (hright : s.NotifiesRight st.category add hdr dst e ⟨id, subId, e⟩) :
    MessageStep s (s.node.receive st msg).node (s.node.receive st msg).effects := by
  obtain ⟨hid, c, hc, hct⟩ := h.inv.stream hst
  have hty : s.node.connType id = c.connectionType := Node.connType_eq hc
  have hloc : st.isLocal = false := by
    rw [Bool.eq_false_iff]
    intro hl
    rw [(h.isLocal hst).mp hl] at hcat
    simp at hcat
  have hpeer : s.node.connType id ≠ .Peer := by
    rw [hty, hct]
    rcases hcat with hcat | hcat <;> simp [hcat]
  obtain ⟨hnot, hown⟩ := h.notifies hst hloc
  have hcopied := Node.copied_remote msg (hid ▸ hc) hct hloc hown hnot hcat
  rcases Node.controlPlaneCopy_subscription hm with ⟨f, hf, -⟩ | ⟨source, dst', hsrc, hd', hcopy⟩
  · have hrec : s.node.receive st msg = ⟨.error f, s.node, []⟩ := by
      unfold Node.receive
      rw [hcopied, hf]
    rw [hrec]
    exact messageStep_unchanged h rfl fun q => rfl
  · rw [hd, Option.some.injEq] at hd'
    subst hd'
    rw [hcopy] at hcopied
    obtain ⟨hn, hes⟩ := Node.receive_of_copied hcopied
    have hout := Node.handleNewMessage_own (hid ▸ hc) hrf st.category hm
    have hcm : (Node.copyFor add source dst).asSubscription =
        some (add, SlimHeader.new source dst "" {}, 0) := by
      exact asSubscription_subscription _ _ _
    have hbind : (SlimHeader.new source dst "" {}).destination.bind ProtoName.name = some e := he
    rw [hid] at hn hes hout
    have hsilent : ∀ r, Node.transitionNotice c s.node.controlPlane
        (Node.passedOn id st.category msg) r = [] := by
      intro r
      have hl : c.isLocalConnection = false := by
        rw [Connection.isLocalConnection, hct]
        rcases hcat with hcat | hcat <;> simp [hcat]
      cases r <;> simp [Node.transitionNotice, hl]
    have hadd : add = true → s.node.table.HeldIn s.node.connType e.route ∨
        Taken s.node st.category add hdr subId ∧
          (dst.strName.isSome ∨ (s.node.table.routing.lookup e.prefix3).isSome) := by
      intro ha
      rw [← h.held_iff]
      subst ha
      rcases hcat with hcat | hcat <;> rw [hcat] at hright ⊢ <;> exact hright
    have hrem : add = false → ∀ k, s.node.table.Holds k → s.node.connType k.connId ≠ .Peer →
        k.encoded.route = e.route → k = ⟨id, subId, e⟩ ∧
          Taken s.node st.category add hdr subId := by
      intro ha k hk hkty hkq
      have hcounts := (h.counts_iff hk).mpr hkty
      subst ha
      rcases hcat with hcat | hcat <;> rw [hcat] at hright ⊢ <;> exact hright k hk hcounts hkq
    rw [hn]
    split at hout
    · obtain ⟨dst', hd', hn', hes'⟩ := hout
      rw [hd, Option.some.injEq] at hd'
      subst hd'
      rw [hes', hsilent] at hes
      rw [hn']
      have htab := tabled_tableStep h.inv.table h.complete he id subId add
      rw [hty] at htab
      generalize Node.tableStep s.node.table dst id c.connectionType add subId = x at htab ⊢
      cases htab with
      | refused hno hnone =>
        refine messageStep_noticed h rfl hes hcm hbind ?_
        cases add with
        | true =>
          refine iff_of_true rfl ((hadd rfl).resolve_right fun hx => ?_)
          rw [(hno rfl).1, (hno rfl).2] at hx
          simp at hx
        | false =>
          refine iff_of_false Bool.false_ne_true ?_
          rintro ⟨k, hk, hkty, hkq⟩
          obtain ⟨rfl, -⟩ := hrem rfl k hk hkty hkq
          exact hnone rfl hk
      | @added first t ha =>
        exact h.subscribed (not_owned hst hown) ha hcm hbind (.inl ⟨hes, hpeer⟩)
      | @removed last t hr =>
        refine h.unsubscribed hr (hkeep rfl) hcm hbind (.inl ⟨hes, ?_⟩)
        rintro ⟨k, hk, hkty, hkq⟩
        obtain ⟨hk, hne⟩ := (hr.holds k).mp hk
        exact hne (hrem rfl k hk hkty hkq).1
    · rename_i htaken
      obtain ⟨hn', hes'⟩ := hout
      rw [hes'] at hes
      refine messageStep_noticed h hn' hes hcm hbind ?_
      cases add with
      | true => exact iff_of_true rfl ((hadd rfl).resolve_right fun hx => htaken hx.1)
      | false =>
        refine iff_of_false Bool.false_ne_true ?_
        rintro ⟨k, hk, hkty, hkq⟩
        exact htaken (hrem rfl k hk hkty hkq).2

end

theorem ViewInv.message_unnamed
    (hm : msg.asSubscription = some (add, hdr, subId))
    (he : hdr.destination.bind ProtoName.name = none) :
    MessageStep s (s.node.receive st msg).node (s.node.receive st msg).effects := by
  have hinvalid : hdr.validateRouted ≠ .ok () := by
    intro hv
    obtain ⟨-, dst, -, -, hd, hname⟩ := SlimHeader.validateRouted_eq_ok.mp hv
    rw [hd, Option.bind_some] at he
    rw [he] at hname
    cases hname
  have hout := Node.handleNewMessage_asSubscription s.node st.connIndex st.category hm
  rw [if_neg fun hok => hinvalid hok.1] at hout
  obtain ⟨f, hout⟩ := hout
  cases hcp : s.node.copied st msg with
  | error f =>
    unfold Node.receive
    rw [hcp]
    exact messageStep_unchanged h rfl fun q => rfl
  | ok copies =>
    obtain ⟨hn, hes⟩ := Node.receive_of_copied hcp
    rw [hout] at hn hes
    refine messageStep_unchanged h hn fun q => ?_
    unfold lastNotice
    rw [hes]
    cases Node.copied_ok hcp with
    | inl hnil => rw [hnil]; rfl
    | inr hcopy =>
      rcases Node.controlPlaneCopy_subscription hm with ⟨f, hf, -⟩ | ⟨src, dst, -, hd, hcopy'⟩
      · rw [hf] at hcopy
        cases hcopy
      · rw [hcopy'] at hcopy
        cases hcopy
        rw [hd] at he
        have hno : (Node.copyFor add src dst).noticeOf q = none := by
          unfold noticeOf Node.copyFor
          simp [SlimHeader.new, he]
        show List.getLast? (List.filterMap (noticeOf q) [Node.copyFor add src dst]) = none
        rw [List.filterMap_cons, hno]
        rfl

theorem ViewInv.messageStep (hst : s.streams.lookup id = some st)
    (hm : msg.asSubscription = some (add, hdr, subId)) (hk : s.MessageKeepsView st add hdr subId) :
    MessageStep s (s.node.receive st msg).node (s.node.receive st msg).effects := by
  cases he : hdr.destination.bind ProtoName.name with
  | none => exact h.message_unnamed hm he
  | some e =>
    obtain ⟨dst, hd, he⟩ := Option.bind_eq_some_iff.mp he
    obtain ⟨hcp, hown, hrf, hkeep, hright⟩ := hk dst hd e he
    rw [(h.inv.stream hst).1] at hkeep hright
    cases hcat : st.category with
    | Local => exact h.message_own hst (.inl hcat) hm hd he hcp hown hrf hkeep hright
    | Peer => exact h.message_own hst (.inr hcat) hm hd he hcp hown hrf hkeep hright
    | Remote => exact h.message_remote hst (.inl hcat) hm hd he hrf hkeep hright
    | Edge => exact h.message_remote hst (.inr hcat) hm hd he hrf hkeep hright

end

end

/-! ## The other steps -/

theorem connType_congr {n n' : Node}
    (h : n'.forwarder.connectionTable = n.forwarder.connectionTable) :
    n'.connType = n.connType := by
  unfold Node.connType Node.getConnection Forwarder.getConnection
  rw [h]

theorem ViewInv.message (h : s.ViewInv) {st : Stream} {msg : Message}
    (hst : s.streams.lookup id = some st)
    (hk : ∀ x ∈ msg.asSubscription, s.MessageKeepsView st x.1 x.2.1 x.2.2) :
    ViewInv
      ⟨(s.node.receive st msg).node, s.streams, s.trace ++ (s.node.receive st msg).effects⟩ := by
  have hconns : (s.node.receive st msg).node.forwarder.connectionTable =
      s.node.forwarder.connectionTable := by
    cases s.node.receive_node h.inv.table.routing st msg with
    | shrunk hl hs => exact hl.connectionTable
    | filed hm hf =>
      rw [hf.node]
      rfl
  have hty := connType_congr hconns
  have hstep : s.MessageStep (s.node.receive st msg).node (s.node.receive st msg).effects := by
    cases hm : msg.asSubscription with
    | some x =>
      obtain ⟨add, hdr, subId⟩ := x
      exact h.messageStep hst hm (hk (add, hdr, subId) hm)
    | none =>
      obtain ⟨-, hs, hn⟩ := Node.receive_other st h.inv.table.routing hm
      refine ⟨hs.complete h.complete h.inv.held, fun k hk => .inl ((hs.holds k).mp hk),
        viewStep_silent hn fun q => ?_⟩
      exact exists_congr fun k => and_congr_left fun _ => hs.holds k
  refine ⟨h.inv.message st msg _, ?_, h.isLocal, h.notifies, fun k hk => ?_, fun q => ?_⟩
  · rw [hty]
    exact hstep.complete
  · cases hstep.holds k hk with
    | inl hk => exact h.own k hk
    | inr hk => exact hk
  · rw [hstep.view.view h.view q, hty]

/-- A connection enters the table; the control plane hears nothing about names. -/
theorem ViewInv.register (h : s.ViewInv) {n' : Node} (st : Stream) (hid : st.connIndex = id)
    (hr : Node.Registered s.node n' id st.category)
    (hheld : ∀ k, s.node.table.Holds k → k.connId = id → s.node.connType id = st.category)
    (hloc : st.isLocal = true ↔ st.category = .Local)
    (hnot : st.isLocal = false → st.notifies = true ∧ st.fromControlPlane = false)
    (hown : st.fromControlPlane = true → ∀ k, s.node.table.Holds k → k.connId ≠ id)
    (es : List Effect) (hes : ∀ q, lastNotice q es = none) :
    ViewInv ⟨n', s.streams.insert id st, s.trace ++ es⟩ := by
  have hty : ∀ k, n'.table.Holds k → n'.connType k.connId = s.node.connType k.connId := by
    intro k hk
    rw [hr.table] at hk
    exact registered_connType hr hheld hk
  refine ⟨h.inv.register st hid hr hheld _, ?_, fun {id' st'} hl => ?_, fun {id' st'} hl => ?_,
    fun k hk => ?_, fun q => ?_⟩
  · refine SubscriptionTable.Complete.congr ?_ hty
    rw [hr.table]
    exact h.complete
  · obtain ⟨-, rfl⟩ | ⟨-, hl⟩ := AList.lookup_insert_iff.mp hl
    · exact hloc
    · exact h.isLocal hl
  · obtain ⟨-, rfl⟩ | ⟨-, hl⟩ := AList.lookup_insert_iff.mp hl
    · exact hnot
    · exact h.notifies hl
  · have hk : s.node.table.Holds k := by
      rw [← hr.table]
      exact hk
    intro ⟨st', hst', hcp⟩
    obtain ⟨hkid, rfl⟩ | ⟨-, hst'⟩ := AList.lookup_insert_iff.mp hst'
    · exact hown hcp k hk hkid
    · exact h.own k hk ⟨st', hst', hcp⟩
  · rw [lastNotice_append, hes, Option.none_or, h.view, heldIn_congr hty,
      hr.table]

section
variable (calculateHash : String → UInt64) {s : Lifecycle} {id : ConnId} {st : Stream}

/-- A name rebuilt from strings that hash to its prefix is the name of the record. -/
theorem route_recordName {r : Routing} {rec : SubRecord} (h : ∀ pe ∈ r.lookup rec.encoded.prefix3,
      (calculateHash pe.strings.strComponent0, calculateHash pe.strings.strComponent1,
        calculateHash pe.strings.strComponent2) = rec.encoded.prefix3) :
    (recordName calculateHash r rec).name.map route = some rec.encoded.route := by
  unfold recordName
  cases hl : r.lookup rec.encoded.prefix3 with
  | none => rfl
  | some pe =>
    have hroute : (pe.toProtoName calculateHash rec.encoded.id).name.map route =
        some ((calculateHash pe.strings.strComponent0, calculateHash pe.strings.strComponent1,
          calculateHash pe.strings.strComponent2), rec.encoded.id) := by
      unfold PrefixEntry.toProtoName
      split
      · simp [ProtoName.fromStrings, route, prefix3, EncodedName.id]
      · rename_i hid
        simp [ProtoName.fromStrings, route, prefix3] at hid ⊢
        exact hid.symm
    rw [hroute, h pe hl]
    rfl

theorem lastNotice_lost (q : Prefix × BitVec 128) (names : List ProtoName) (conn : ConnId) :
    lastNotice q (names.map fun name => Effect.controlPlane
        (buildUnsubscribe name name "" { recvFrom := some conn } 0)) =
      if ∃ name ∈ names, name.name.map route = some q then some false else none := by
  induction names with
  | nil => rfl
  | cons name names ih =>
    have hone : lastNotice q [Effect.controlPlane
        (buildUnsubscribe name name "" { recvFrom := some conn } 0)] =
        if name.name.map route = some q then some false else none := by
      show List.getLast? (List.filterMap (noticeOf q)
        [subscription false (SlimHeader.new name name "" { recvFrom := some conn }) 0]) = _
      rw [List.filterMap_cons, noticeOf, asSubscription_subscription]
      by_cases hq : name.name.map route = some q
      · simp [SlimHeader.new, hq]
      · simp [SlimHeader.new, hq]
    rw [List.map_cons, ← List.singleton_append, lastNotice_append, ih, hone]
    simp only [List.mem_cons, exists_eq_or_imp]
    by_cases hq : name.name.map route = some q <;>
      by_cases hqs : ∃ name ∈ names, name.name.map route = some q <;>
      simp only [hq, hqs, ↓reduceIte, or_true, or_false, Option.or]

theorem mem_lostNames {n : Node} {ty : ConnId → ConnType} (hi : n.table.Inv ty) (st : Stream)
    (name : ProtoName) :
    name ∈ n.lostNames calculateHash st ↔ ∃ k rec, n.table.state.subscriptions.lookup k = some rec ∧
      k.connId = st.connIndex ∧
      recordName calculateHash n.table.routing rec = name := by
  unfold Node.lostNames Forwarder.onConnectionDrop
  rcases hr : n.table.removeConnection calculateHash st.connIndex st.category with ⟨res, t⟩
  have hr' : n.forwarder.subscriptionTable.removeConnection calculateHash st.connIndex
    st.category = (res, t) := hr
  rw [hr']
  rcases hi.removeConnection hr with ⟨rfl, -, hno⟩ | ⟨lost, rfl, hd⟩
  · refine iff_of_false (fun h => (by cases h)) fun ⟨k, rec, hl, hk, _⟩ => ?_
    exact hno k (AList.lookup_isSome.mp (by rw [hl]; rfl)) hk
  · exact hd.mem_lost name

theorem ViewInv.closeView (h : s.ViewInv) (hst : s.streams.lookup id = some st)
    (hk : ∀ k, s.node.table.Holds k → k.connId = id → s.DropKeepsView calculateHash st id k) :
    ViewStep (s.node.table.HeldIn s.node.connType)
      ((s.node.closeStream calculateHash st).1.table.HeldIn s.node.connType)
      (s.node.closeStream calculateHash st).2 := by
  have hg := h.inv.gone calculateHash hst
  obtain ⟨-, es, hsends, heff⟩ := s.node.closeStream_spec calculateHash st
    (h.inv.droppedClean calculateHash hst).inv.routing
  have hafter : ∀ q, (s.node.closeStream calculateHash st).1.table.HeldIn s.node.connType q ↔
      ∃ k, s.node.table.Holds k ∧ k.connId ≠ id ∧ s.node.connType k.connId ≠ .Peer ∧
        k.encoded.route = q := by
    intro q
    refine exists_congr fun k => ?_
    rw [hg.holds, and_assoc]
  unfold Node.lostNotices at heff
  cases hloc : st.isLocal with
  | true =>
    -- nothing is withdrawn: another record stands for each one lost
    rw [hloc] at heff
    refine viewStep_silent ?_ fun q => ?_
    · rw [heff, notices_append, notices_onlySends hsends]
      rfl
    · rw [hafter]
      constructor
      · intro ⟨k, hk, _, hty, hq⟩
        exact ⟨k, hk, hty, hq⟩
      · intro ⟨k, hkh, hty, hq⟩
        by_cases hid : k.connId = id
        · have hdrop := hk k hkh hid
          rw [DropKeepsView, hloc] at hdrop
          obtain ⟨k', hk', hcounts, hne, hq'⟩ := hdrop
          exact ⟨k', hk', hne, (h.counts_iff hk').mp hcounts, hq'.trans hq⟩
        · exact ⟨k, hkh, hid, hty, hq⟩
  | false =>
    rw [hloc, (h.notifies hst hloc).1] at heff
    intro q
    have hlost : (∃ name ∈ s.node.lostNames calculateHash st,
        name.name.map route = some q) ↔
        ∃ k, s.node.table.Holds k ∧ k.connId = id ∧ k.encoded.route = q := by
      have hname : ∀ {k rec}, s.node.table.state.subscriptions.lookup k = some rec → k.connId = id →
          (recordName calculateHash s.node.table.routing rec).name.map
            route = some k.encoded.route := by
        intro k rec hl hid
        have hdrop := hk k (AList.lookup_isSome.mp (by rw [hl]; rfl)) hid
        rw [DropKeepsView, hloc] at hdrop
        rw [← (h.inv.table.state.record hl).1] at hdrop ⊢
        exact route_recordName calculateHash hdrop.2
      constructor
      · intro ⟨name, hmem, hq⟩
        obtain ⟨k, rec, hl, hid, rfl⟩ :=
          (mem_lostNames calculateHash h.inv.table st name).mp hmem
        rw [(h.inv.stream hst).1] at hid
        rw [hname hl hid, Option.some.injEq] at hq
        exact ⟨k, AList.lookup_isSome.mp (by rw [hl]; rfl), hid, hq⟩
      · intro ⟨k, hkh, hid, hq⟩
        obtain ⟨rec, hl⟩ := Option.isSome_iff_exists.mp (AList.lookup_isSome.mpr hkh)
        refine ⟨_, (mem_lostNames calculateHash h.inv.table st _).mpr
          ⟨k, rec, hl, hid.trans (h.inv.stream hst).1.symm, rfl⟩, ?_⟩
        rw [hname hl hid, hq]
    rw [heff, lastNotice_append, lastNotice_eq_none (notices_onlySends hsends)]
    simp only [Bool.not_false, Bool.true_and, ↓reduceIte]
    rw [lastNotice_lost]
    by_cases hq : ∃ k, s.node.table.Holds k ∧ k.connId = id ∧ k.encoded.route = q
    · -- withdrawn: no other record of the name is left
      rw [if_pos (hlost.mpr hq)]
      obtain ⟨k, hkh, hid, hkq⟩ := hq
      refine iff_of_false Bool.false_ne_true fun hheld => ?_
      obtain ⟨k', hk', hne, hty, hq'⟩ := (hafter q).mp hheld
      have hdrop := hk k hkh hid
      rw [DropKeepsView, hloc] at hdrop
      exact hne (hdrop.1 k' hk' ((h.counts_iff hk').mpr hty) (hq'.trans hkq.symm))
    · rw [if_neg fun hl => hq (hlost.mp hl)]
      rw [hafter]
      constructor
      · intro ⟨k, hkh, _, hty, hkq⟩
        exact ⟨k, hkh, hty, hkq⟩
      · intro ⟨k, hkh, hty, hkq⟩
        exact ⟨k, hkh, fun hid => hq ⟨k, hkh, hid, hkq⟩, hty, hkq⟩

theorem ViewInv.close (h : s.ViewInv) (hst : s.streams.lookup id = some st)
    (hk : ∀ k, s.node.table.Holds k → k.connId = id → s.DropKeepsView calculateHash st id k) :
    ViewInv ⟨(s.node.closeStream calculateHash st).1, s.streams.erase id,
      s.trace ++ (s.node.closeStream calculateHash st).2⟩ := by
  have hg := h.inv.gone calculateHash hst
  have hstreams : ∀ {id' st'}, (s.streams.erase id).lookup id' = some st' →
      s.streams.lookup id' = some st' := fun hl => (AList.lookup_erase_iff.mp hl).2
  refine ⟨h.inv.close calculateHash hst _,
    (hg.complete h.complete).congr fun k hk => hg.connType hk,
    fun hl => h.isLocal (hstreams hl), fun hl => h.notifies (hstreams hl), fun k hk => ?_,
    fun q => ?_⟩
  · intro ⟨st', hst', hcp⟩
    exact h.own k ((hg.holds k).mp hk).1 ⟨st', hstreams hst', hcp⟩
  · rw [(h.closeView calculateHash hst hk).view h.view q]
    exact (heldIn_congr (fun k hk => hg.connType hk) q).symm

theorem lastNotice_negotiate (n : Node) (connection : Connection) (id : ConnId)
    (r : NegotiationResult) (q : Prefix × BitVec 128) :
    lastNotice q (n.negotiateAndRegister connection id r).2.2 = none := by
  unfold Node.negotiateAndRegister
  cases r.connectionType with
  | Peer =>
    unfold Node.handlePeerUpgrade
    dsimp only
    split
    · rfl
    · split <;> rfl
  | Edge => rfl
  | Remote =>
    dsimp only
    split <;> rfl
  | Local => rfl

theorem ViewInv.step (h : s.ViewInv) {a : Action} (ha : a.KeepsView calculateHash s) :
    (s.step calculateHash a).ViewInv := by
  cases a with
  | establish id connection result =>
    obtain ⟨hcp, hconn, hres, hset, hkeep⟩ := ha
    obtain ⟨hcat, hreg⟩ := s.node.negotiateAndRegister_spec hset id
    unfold Lifecycle.step
    dsimp only
    split
    · rw [← hcat] at hreg hkeep hres
      have hloc : connection.connectionType.isLocal = false := by
        cases hc : connection.connectionType with
        | Local => exact absurd hc hconn
        | Remote => rfl
        | Peer => rfl
        | Edge => rfl
      refine h.register ⟨id, _, _, false, _⟩ rfl hreg (fun k hk hkid => ?_) ?_ (fun _ => ⟨hcp, rfl⟩)
        (fun hf => (by cases hf)) _ (lastNotice_negotiate s.node connection id result)
      · unfold Node.connType
        rw [hkeep k hk hkid]
        rfl
      · rw [hloc]
        exact iff_of_false Bool.false_ne_true hres
    · exact h
  | registerLocal id fromControlPlane =>
    unfold Lifecycle.step
    dsimp only
    split
    · rename_i hfree
      obtain ⟨hreg, hnone⟩ := h.inv.registerLocal hfree fromControlPlane
      have hv := h.register ⟨id, .Local, true, fromControlPlane,
        s.node.controlPlane || fromControlPlane⟩ rfl hreg
          (fun k hk hkid => absurd hkid (hnone k hk))
        (iff_of_true rfl rfl) (fun hf => (by cases hf)) (fun _ => hnone) [] (fun q => rfl)
      rwa [List.append_nil] at hv
    · exact h
  | message id msg =>
    cases hst : s.streams.lookup id with
    | none => simpa only [Lifecycle.step, hst] using h
    | some st =>
      simp only [Lifecycle.step, hst]
      exact h.message hst (ha st hst)
  | close id =>
    cases hst : s.streams.lookup id with
    | none => simpa only [Lifecycle.step, hst] using h
    | some st =>
      simp only [Lifecycle.step, hst]
      exact h.close calculateHash hst (ha st hst)
  | forwarding peerSync =>
    exact { h with
      inv := h.inv.links { s.node with peerSync } rfl h.inv.table (fun k hk => .inl hk) _ }

theorem viewInv_init (n : Node) : (init n).ViewInv where
  inv := inv_init n
  complete := complete_empty _
  isLocal := fun h => (by cases h)
  notifies := fun h => (by cases h)
  own := fun k hk => absurd hk (not_holds_empty k)
  view := fun q => iff_of_false (fun h => (by cases h)) fun ⟨k, hk, _⟩ =>
    not_holds_empty k hk

/-- **The control plane's view is right** in every run whose steps keep it. -/
theorem view_right (n : Node) (as : List Action)
    (h : Run.Meets (step calculateHash) (fun s a => a.KeepsView calculateHash s) (init n) as) :
    ∀ q, lastNotice q (as.foldl (step calculateHash) (init n)).trace = some true ↔
      (as.foldl (step calculateHash) (init n)).Held q := by
  intro q
  have hinv : (as.foldl (step calculateHash) (init n)).ViewInv :=
    Run.Meets.invariant (fun s a hi ha => hi.step calculateHash ha) (viewInv_init n) h
  rw [hinv.view, hinv.held_iff]

end

/-! ## Runs -/

def remoteName : ProtoName where
  name := some ⟨1, 2, 4, none⟩
  strName := some ⟨"org", "ns", "remote"⟩

/-- The control plane (1), an application (2) and a remote link (4), each with a name of its own. -/
def separateNames : List Action :=
  [.registerLocal 1 true, .registerLocal 2 false,
    .establish 4 { connectionType := .Remote } ⟨.Remote, "n2", ""⟩,
    .message 2 (buildSubscribe sampleName sampleName "" {} 7),
    .message 4 (buildSubscribe remoteName remoteName "" {} 8), .close 4,
    .message 2 (buildSubscribe sampleName sampleName "" {} 9),
    .message 2 (buildUnsubscribe sampleName sampleName "" {} 7)]

theorem view_right_separate :
    Run.Meets (step sampleHash) (fun s a => a.KeepsView sampleHash s) (init {}) separateNames ∧
      ∀ q, lastNotice q (separateNames.foldl (step sampleHash) (init {})).trace = some true ↔
        (separateNames.foldl (step sampleHash) (init {})).Held q := by
  have h : Run.Meets (step sampleHash) (fun s a => a.KeepsView sampleHash s) (init {})
      separateNames := by decide +kernel
  exact ⟨h, view_right sampleHash {} separateNames h⟩

/-- An application subscribes and is gone. -/
def droppedApp : List Action :=
  [.registerLocal 2 false, .message 2 (buildSubscribe sampleName sampleName "" {} 7), .close 2]

/-- Two remote links hold a name; one unsubscribes. -/
def sharedName : List Action :=
  [.establish 4 { connectionType := .Remote } ⟨.Remote, "n2", ""⟩,
    .establish 5 { connectionType := .Remote } ⟨.Remote, "n3", ""⟩,
    .message 4 (buildSubscribe sampleName sampleName "" {} 7),
    .message 5 (buildSubscribe sampleName sampleName "" {} 8),
    .message 4 (buildUnsubscribe sampleName sampleName "" {} 7)]

/-- The control plane keeps a name nobody holds, and loses one that is held. -/
theorem view_wrong :
    (¬ ∀ (calculateHash : String → UInt64) (n : Node) (cp : ConnId) (as : List Action)
        (q : Prefix × BitVec 128),
      lastNotice q ((.registerLocal cp true :: as).foldl (step calculateHash) (init n)).trace =
          some true →
        ((.registerLocal cp true :: as).foldl (step calculateHash) (init n)).Held q) ∧
    ¬ ∀ (calculateHash : String → UInt64) (n : Node) (cp : ConnId) (as : List Action)
        (q : Prefix × BitVec 128),
      ((.registerLocal cp true :: as).foldl (step calculateHash) (init n)).Held q →
        lastNotice q ((.registerLocal cp true :: as).foldl (step calculateHash) (init n)).trace =
          some true := by
  refine ⟨fun h => ?_, fun h => ?_⟩
  · have hheld := h sampleHash {} 1 droppedApp ((1, 2, 3), 5) (by decide +kernel)
    revert hheld
    decide +kernel
  · have hlast := h sampleHash {} 1 sharedName ((1, 2, 3), 5) (by decide +kernel)
    revert hlast
    decide +kernel

end Lifecycle

end Slim
