import Slim.Network.Proof.PeerLink
import Slim.Network.Replay

/-!
# Replayed subscriptions cannot be taken back

`restore` builds its messages without a subscription id, so that the remote node files the replayed
subscriptions under id 0 (`OnlyIdZero`). A record with the id of the original subscription is not
there, and its removal is refused.
-/

namespace Slim.Node

variable {n r : Node} {out conn : ConnId} {ct : ConnType}

/-- All that `restore` sends is replayed subscriptions. -/
theorem mem_foldl_restoreOne (tracking : Bool) {c : ConnId} {m : Message}
    (subs : List SubscriptionInfo) (s : Node × List Effect)
    (h : .send c m ∈ (subs.foldl (restoreOne out tracking) s).2) :
    .send c m ∈ s.2 ∨
      ∃ info ∈ subs, m = (RemoteSync.restoreMsg info).mapHeader SlimHeader.clearFlags := by
  induction subs generalizing s with
  | nil => exact .inl h
  | cons info subs ih =>
    rcases ih _ h with hs | ⟨i, hi, hm⟩
    · unfold restoreOne at hs
      cases hsend : s.1.sendMsg (RemoteSync.restoreMsg info) out with
      | error err =>
        rw [hsend] at hs
        exact .inl hs
      | ok e =>
        rw [hsend] at hs
        rcases List.mem_append.mp hs with hs | hs
        · exact .inl hs
        · have he : e ∈ s.1.trySend (RemoteSync.restoreMsg info) out := by simp [trySend, hsend]
          have hse := mem_trySend he
          rw [← List.mem_singleton.mp hs] at hse
          cases hse
          exact .inr ⟨info, List.mem_cons_self, rfl⟩
    · exact .inr ⟨i, List.mem_cons_of_mem info hi, hm⟩

theorem mem_sentTo_restore {m : Message} (h : m ∈ sentTo out (n.restoreRemoteSubscriptions out).2) :
    ∃ hdr, hdr.recvFrom = none ∧ m = .subscription true hdr 0 := by
  rw [sentTo, List.mem_filterMap] at h
  obtain ⟨e, he, hm⟩ := h
  cases e with
  | send c m' =>
    have hsub := mem_foldl_restoreOne false _ (n, []) he
    obtain ⟨info, -, hm'⟩ := hsub.resolve_left List.not_mem_nil
    simp only [Option.ite_none_right_eq_some, Option.some.injEq] at hm
    rw [← hm.2, hm']
    exact ⟨_, rfl, rfl⟩
  | status c err => cases hm
  | controlPlane m' => cases hm
  | spawn task => cases hm

/-- A connection with records of id 0 only. -/
def OnlyIdZero (conn : ConnId) (r : Node) : Prop :=
  ∀ k, r.table.Holds k → k.connId = conn → k.subId = 0

theorem OnlyIdZero.subscribe (h : OnlyIdZero conn r) {hdr : SlimHeader} :
    OnlyIdZero conn (r.handleNewMessage conn ct (.subscription true hdr 0)).node := by
  intro k hk hkc
  rcases handleNewMessage_subscription_node r conn ct
    (Message.asSubscription_subscription true hdr 0) with hn | ⟨dst, c, hf⟩
  · rw [hn] at hk
    exact h k hk hkc
  · by_contra hne
    have hl := lookup_tableStep r.table dst (hdr.recvFrom.getD conn) c.connectionType true 0
      (k := k) fun e _ he => hne (by rw [he])
    rw [hf.node, SubscriptionTable.Holds, withTable_table, ← AList.lookup_isSome, hl,
      AList.lookup_isSome] at hk
    exact hne (h k hk hkc)

theorem OnlyIdZero.receiveAll (h : OnlyIdZero conn r) {msgs : List Message}
    (hm : ∀ m ∈ msgs, ∃ hdr, hdr.recvFrom = none ∧ m = .subscription true hdr 0) :
    OnlyIdZero conn (receiveAll conn ct r msgs) := by
  induction msgs generalizing r with
  | nil => exact h
  | cons m msgs ih =>
    obtain ⟨hdr, hrf, rfl⟩ := hm m List.mem_cons_self
    exact ih h.subscribe fun m' hm' => hm m' (List.mem_cons_of_mem _ hm')

/-- **Replayed subscriptions can be taken back only if there are none**: at a connection that starts
without records, with recorded ids other than zero. -/
theorem canUnsubscribe_afterReplay_iff (hnew : ∀ k, r.table.Holds k → k.connId ≠ conn)
    (hids : ∀ info ∈ n.remoteSync.getSubscriptionsForReconnect out, info.subscriptionId ≠ 0) :
    (n.afterReplay out r conn ct).CanUnsubscribe conn ct
        (n.remoteSync.getSubscriptionsForReconnect out) ↔
      n.remoteSync.getSubscriptionsForReconnect out = [] := by
  have hzero : OnlyIdZero conn (n.afterReplay out r conn ct) :=
    OnlyIdZero.receiveAll (fun k hk hkc => absurd hkc (hnew k hk)) fun m hm => mem_sentTo_restore hm
  constructor
  · intro h
    cases hsubs : n.remoteSync.getSubscriptionsForReconnect out with
    | nil => rfl
    | cons info subs =>
      -- the first unsubscription finds no record with its id
      obtain ⟨last, hok⟩ := (h _ (List.Perm.refl _)).1 [] info subs (by rw [hsubs]; rfl)
      obtain ⟨e, -, hheld⟩ := SubscriptionTable.held_of_remove hok
      exact absurd (hzero _ hheld rfl) (hids info (by rw [hsubs]; exact List.mem_cons_self))
  · intro hnil us hus
    rw [hnil, List.perm_nil] at hus
    subst hus
    refine ⟨fun done info rest he => ?_, fun info hi => absurd hi List.not_mem_nil⟩
    exact absurd (congrArg List.length he) (by simp)

/-! ## One subscription, replayed -/

def sampleInfo : SubscriptionInfo where
  source := sampleName
  name := sampleName
  sourceIdentity := "id1"
  subscriptionId := 7

/-- A client that has forwarded one subscription on connection 3, an edge link, which is one that
reconnects. -/
def sampleClient : Node where
  forwarder :=
    { connectionTable := AList.insert 3 { connectionType := .Edge, isServer := false } ∅ }
  remoteSync := { table := AList.insert 3 [sampleInfo] ∅ }

/-- The remote node, which sees the client on connection 4. -/
def sampleRemote : Node where
  forwarder := { connectionTable := AList.insert 4 { connectionType := .Edge } ∅ }

theorem canUnsubscribe_afterReplay_iff_sample :
    (∀ info ∈ sampleClient.remoteSync.getSubscriptionsForReconnect 3, info.subscriptionId ≠ 0) ∧
      ((sampleClient.afterReplay 3 sampleRemote 4 .Edge).CanUnsubscribe 4 .Edge
          (sampleClient.remoteSync.getSubscriptionsForReconnect 3) ↔
        sampleClient.remoteSync.getSubscriptionsForReconnect 3 = []) :=
  ⟨by decide +kernel, canUnsubscribe_afterReplay_iff (by decide +kernel) (by decide +kernel)⟩

/-- The unsubscription with id 7 is refused: the replayed record has id 0. -/
theorem replayed_cannot_unsubscribe :
    ¬ ∀ (n r : Node) (out conn : ConnId) (ct : ConnType),
      (∀ k, r.table.Holds k → k.connId ≠ conn) →
      (∀ info ∈ n.remoteSync.getSubscriptionsForReconnect out, info.subscriptionId ≠ 0) →
      (n.afterReplay out r conn ct).CanUnsubscribe conn ct
        (n.remoteSync.getSubscriptionsForReconnect out) := by
  intro h
  have hcan := h sampleClient sampleRemote 3 4 .Edge (by decide +kernel) (by decide +kernel)
  obtain ⟨last, hok⟩ := (hcan [sampleInfo] (by decide +kernel)).1 [] sampleInfo [] rfl
  have hrefused : ((receiveAll 4 .Edge (sampleClient.afterReplay 3 sampleRemote 4 .Edge)
      []).table.removeSubscription sampleInfo.name 4 .Edge sampleInfo.subscriptionId).1.isOk =
        false := by decide +kernel
  rw [show ([] : List SubscriptionInfo).map SubscriptionInfo.unsubscribe = [] from rfl] at hok
  rw [hok] at hrefused
  cases hrefused

end Slim.Node
