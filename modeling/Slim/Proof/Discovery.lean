import Slim.Discovery
import Slim.Lib.Lookup
import Slim.Lib.Run
import Slim.Tables.Proof.Pool

/-!
# Peer membership

While every link comes up once and ends after its peer was reported as left, the peer state follows
the links (`tracks_inOrder`): the entries name connections that exist, so a fresh id is nobody's.

The end of a stream leaves its entry in the peer state, though. What that does when the peer comes
back, or when its id goes to another peer, is `stale_entries`.
-/

namespace Slim

open Pool

namespace PeerState

theorem contains_eq_false {s : PeerState} {p : String} :
    s.contains p = false ↔ s.peers.lookup p = none := by
  unfold contains
  cases s.peers.lookup p <;> simp

end PeerState

namespace Discovery

variable {s : Discovery} {c : ConnId} {p : String} {k : PeerConn}

structure Inv (s : Discovery) : Prop extends Tracks s where
  held : ∀ p entry, s.peerState.peers.lookup p = some entry →
    ∃ k, s.conns.get entry.connId = some k

theorem Inv.unowned (h : Inv s) (hc : s.peerState.connToPeer.lookup c = none) {entry : PeerEntry}
    (he : s.peerState.peers.lookup p = some entry) : entry.connId ≠ c := by
  intro heq
  have := (h.inverse p c).mp ⟨entry, he, heq⟩
  rw [hc] at this
  cases this

theorem onIncomingPeer_new (s : Discovery) (hp : s.peerState.contains p = false) (c : ConnId) :
    s.onIncomingPeer p c = { s with
      peerState :=
        { connToPeer := s.peerState.connToPeer.insert c p
          peers := s.peerState.peers.insert p ⟨c, "", false⟩ }
      peerConns := Vec.pushNew s.peerConns c } := by
  simp [onIncomingPeer, PeerSync.onIncomingPeer, PeerState.insert, hp, PeerSync.addPeerConn]

section
variable (h : Inv s)
include h

/-- A connection `c` that no entry names is registered for a peer without entry. -/
theorem Inv.registerPeer {conns : Pool PeerConn}
    (hget : ∀ c', conns.get c' = if c' = c then some k else s.conns.get c')
    (hfree : ∀ p entry, s.peerState.peers.lookup p = some entry → entry.connId ≠ c)
    (hk : s.peerState.contains k.nodeId = false) :
    Inv ({ s with conns }.onIncomingPeer k.nodeId c) := by
  have hlk := PeerState.contains_eq_false.mp hk
  have hpeers : ∀ p entry, (s.peerState.peers.insert k.nodeId ⟨c, "", false⟩).lookup p =
      some entry →
      p = k.nodeId ∧ entry.connId = c ∨ p ≠ k.nodeId ∧ s.peerState.peers.lookup p = some entry := by
    intro p entry he
    exact (AList.lookup_insert_iff.mp he).imp_left fun h => ⟨h.1, by rw [← h.2]⟩
  rw [onIncomingPeer_new { s with conns } hk]
  refine ⟨⟨fun c' k' hk' hacc hcan => ?_, fun p c' => ?_, fun p entry he k' hk' => ?_⟩,
    fun p entry he => ?_⟩
  · simp only [hget] at hk'
    by_cases hc : c' = c
    · simp [hc]
    · rw [if_neg hc] at hk'
      simp [h.live c' k' hk' hacc hcan]
  · by_cases hc : c' = c
    · subst hc
      rw [AList.lookup_insert, Option.some.injEq]
      constructor
      · intro ⟨entry, he, hent⟩
        rcases hpeers p entry he with ⟨hp, -⟩ | ⟨-, he⟩
        · exact hp.symm
        · exact absurd hent (hfree p entry he)
      · intro hp
        rw [← hp]
        exact ⟨_, AList.lookup_insert _, rfl⟩
    · rw [AList.lookup_insert_ne hc, ← h.inverse p c']
      constructor
      · intro ⟨entry, he, hent⟩
        rcases hpeers p entry he with ⟨-, heq⟩ | ⟨-, he⟩
        · exact absurd (hent.symm.trans heq) hc
        · exact ⟨entry, he, hent⟩
      · intro ⟨entry, he, hent⟩
        have hp : p ≠ k.nodeId := fun hp => by
          rw [hp, hlk] at he
          cases he
        exact ⟨entry, (AList.lookup_insert_ne hp).trans he, hent⟩
  · simp only [hget] at hk'
    rcases hpeers p entry he with ⟨hp, hent⟩ | ⟨-, he⟩
    · rw [if_pos hent, Option.some.injEq] at hk'
      rw [hp, ← hk']
    · rw [if_neg (hfree p entry he)] at hk'
      exact h.left p entry he k' hk'
  · simp only [hget]
    rcases hpeers p entry he with ⟨-, hent⟩ | ⟨-, he⟩
    · exact ⟨k, if_pos hent⟩
    · rw [if_neg (hfree p entry he)]
      exact h.held p entry he

theorem Inv.register (hk : s.peerState.contains k.nodeId = false) {s' : Discovery}
    (hr : s.register k = some (c, s')) :
    Inv s' ∧ s'.peerState.contains k.nodeId = true ∧ c ∈ s'.peerConns := by
  unfold Discovery.register at hr
  split at hr
  · cases hr
  · rename_i id conns hins
    cases hr
    obtain ⟨hnew, hget⟩ := insert_spec hins
    have hs' := onIncomingPeer_new { s with conns } hk c
    refine ⟨h.registerPeer hget (fun p entry he heq => ?_) hk, ?_, ?_⟩
    · obtain ⟨k', hk'⟩ := h.held p entry he
      rw [heq, hnew] at hk'
      cases hk'
    · rw [hs']
      simp [PeerState.contains]
    · rw [hs']
      simp

theorem Inv.joined (selfId : String) (peer : PeerInfo) : Inv (handlePeerJoined selfId s peer) := by
  unfold handlePeerJoined
  split
  · exact h
  · split
    · exact h
    · split
      · exact h
      · rename_i hno
        split
        · exact h
        · rename_i conn s' hr
          obtain ⟨hinv, hcont, hmem⟩ := h.register (by simpa using hno) hr
          -- the negotiation has registered the peer already
          have hs : { s' with peerState := s'.peerState.insert peer.id ⟨conn, peer.endpoint, true⟩
              }.addPeerConn conn = s' := by
            unfold PeerState.insert addPeerConn Vec.pushNew
            simp [hcont, hmem]
          rw [hs]
          exact hinv

theorem Inv.leave (ha : s.InOrder (.left p)) : Inv (s.handlePeerLeft p) := by
  unfold handlePeerLeft PeerState.remove
  cases hl : s.peerState.peers.lookup p with
  | none => exact h
  | some entry =>
    have hpeers : ∀ q e, (s.peerState.peers.erase p).lookup q = some e →
        q ≠ p ∧ s.peerState.peers.lookup q = some e := fun q e => AList.lookup_erase_iff.mp
    -- nobody else has the connection
    have hother : ∀ q e, q ≠ p → s.peerState.peers.lookup q = some e → e.connId ≠ entry.connId := by
      intro q e hq he heq
      have h1 := (h.inverse q entry.connId).mp ⟨e, he, heq⟩
      have h2 := (h.inverse p entry.connId).mp ⟨entry, hl, rfl⟩
      rw [h1, Option.some.injEq] at h2
      exact hq h2
    refine ⟨⟨fun c k hk hacc hcan => ?_, fun q c => ?_, fun q e he k hk => ?_⟩, fun q e he => ?_⟩
    · simp only [disconnect, removePeerConn, get_update] at hk ⊢
      by_cases hc : c = entry.connId
      · -- an accepted connection had a token, so it is cancelled
        rw [if_pos hc, Option.map_eq_some_iff] at hk
        obtain ⟨k₀, hk₀, rfl⟩ := hk
        rcases ha entry hl k₀ hk₀ with hout | htok
        · split at hacc
          · simp [hout] at hacc
          · simp [hout] at hacc
        · rw [if_pos htok] at hcan
          cases hcan
      · rw [if_neg hc] at hk
        simp [h.live c k hk hacc hcan, hc]
    · dsimp only [disconnect, removePeerConn]
      by_cases hc : c = entry.connId
      · subst hc
        rw [AList.lookup_erase]
        constructor
        · intro ⟨e, he, hent⟩
          obtain ⟨hq, he⟩ := hpeers q e he
          exact absurd hent (hother q e hq he)
        · intro hn
          cases hn
      · rw [AList.lookup_erase_ne hc, ← h.inverse q c]
        constructor
        · intro ⟨e, he, hent⟩
          exact ⟨e, (hpeers q e he).2, hent⟩
        · intro ⟨e, he, hent⟩
          have hq : q ≠ p := fun hq => by
            rw [hq, Option.mem_def, hl, Option.some.injEq] at he
            exact hc (by rw [← hent, he])
          exact ⟨e, (AList.lookup_erase_ne hq).trans he, hent⟩
    · obtain ⟨hq, he⟩ := hpeers q e he
      simp only [disconnect, get_update, if_neg (hother q e hq he)] at hk
      exact h.left q e he k hk
    · obtain ⟨hq, he⟩ := hpeers q e he
      simp only [disconnect, get_update, if_neg (hother q e hq he)]
      exact h.held q e he

theorem Inv.drop (ha : s.InOrder (.drop c)) :
    Inv ({ s with conns := (s.conns.remove c).2 }.removePeerConn c) := by
  refine ⟨⟨fun c' k hk hacc hcan => ?_, h.inverse, fun p e he k hk => ?_⟩, fun p e he => ?_⟩
  · simp only [removePeerConn, get_remove] at hk ⊢
    by_cases hc : c' = c
    · rw [if_pos hc] at hk
      cases hk
    · rw [if_neg hc] at hk
      simp [h.live c' k hk hacc hcan, hc]
  · simp only [removePeerConn, get_remove, if_neg (h.unowned ha he)] at hk
    exact h.left p e he k hk
  · simp only [removePeerConn, get_remove, if_neg (h.unowned ha he)]
    exact h.held p e he

theorem Inv.reconnect (hk : s.conns.get c = some k) :
    Inv ({ s with conns := s.conns.insertAt k c }.onIncomingPeer k.nodeId c) := by
  have hget : ∀ c', (s.conns.insertAt k c).get c' = s.conns.get c' := by
    intro c'
    rw [get_insertAt]
    split
    · rename_i heq
      rw [heq, hk]
    · rfl
  cases hcont : s.peerState.contains k.nodeId with
  | true =>
    have hs : { s with conns := s.conns.insertAt k c }.onIncomingPeer k.nodeId c =
        { s with conns := s.conns.insertAt k c } := by
      simp [onIncomingPeer, PeerSync.onIncomingPeer, hcont]
    rw [hs]
    refine ⟨⟨fun c' k' hk' => ?_, h.inverse, fun p e he k' hk' => ?_⟩, fun p e he => ?_⟩
    · rw [hget] at hk'
      exact h.live c' k' hk'
    · rw [hget] at hk'
      exact h.left p e he k' hk'
    · rw [hget]
      exact h.held p e he
  | false =>
    refine h.registerPeer (fun c' => get_insertAt k c c') (fun p e he heq => ?_) hcont
    -- the connection would be one with `p`, who has an entry
    have hp := h.left p e he k (by rw [heq]; exact hk)
    rw [PeerState.contains_eq_false, hp, he] at hcont
    cases hcont

theorem Inv.step (selfId : String) {a : Action} (ha : s.InOrder a) : Inv (s.step selfId a) := by
  cases a with
  | incoming nodeId hasToken =>
    unfold Discovery.step
    dsimp only
    split
    · exact h
    · rename_i c s' hr
      have hno : s.peerState.contains nodeId = false := ha
      exact (h.register hno hr).1
  | joined peer => exact h.joined selfId peer
  | left p => exact h.leave ha
  | drop c =>
    unfold Discovery.step
    dsimp only
    split
    · exact h
    · exact h.drop ha
  | reconnect c =>
    unfold Discovery.step
    dsimp only
    split
    · exact h
    · split
      · exact h.reconnect ‹_›
      · exact h

end

theorem inv_init : Inv ({} : Discovery) where
  live := fun c k hk => by simp at hk
  inverse := fun p c => by simp
  left := fun p e he => by simp at he
  held := fun p e he => by simp at he

theorem tracks_inOrder (selfId : String) (as : List Action)
    (h : Run.Meets (step selfId) InOrder {} as) : (as.foldl (step selfId) {}).Tracks :=
  (h.invariant (fun _ _ hi ha => hi.step selfId ha) inv_init).toTracks

/-- Two links, one dialled and one accepted over a transport with tokens, that end in order. -/
theorem tracks_inOrder_both :
    Run.Meets (step "b") InOrder {} [.joined ⟨"c", ""⟩, .incoming "a" true, .left "a", .drop 1,
        .incoming "d" false] ∧
      ([.joined ⟨"c", ""⟩, .incoming "a" true, .left "a", .drop 1, .incoming "d" false].foldl
        (step "b") {}).Tracks := by
  have h : Run.Meets (step "b") InOrder {} [.joined ⟨"c", ""⟩, .incoming "a" true, .left "a",
    .drop 1, .incoming "d" false] := by decide +kernel
  exact ⟨h, tracks_inOrder "b" _ h⟩

/-- The entry of a link that has ended stays: the peer is not registered when it comes back, and
when its id goes to another peer the maps disagree and its leaving disconnects that peer. -/
theorem stale_entries :
    (¬ ∀ selfId (as : List Action), (as.foldl (step selfId) {}).LiveTracked) ∧
      (¬ ∀ selfId (as : List Action), Inverse (as.foldl (step selfId) {}).peerState) ∧
      ¬ ∀ selfId (as : List Action), (as.foldl (step selfId) {}).LeavesAlone := by
  refine ⟨fun h => ?_, fun h => ?_, fun h => ?_⟩
  · have := h "b" [.incoming "a" true, .drop 0, .incoming "a" true] 0 ⟨"a", false, true, false⟩
      (by decide +kernel) rfl rfl
    revert this
    decide +kernel
  · have := (h "b" [.incoming "a" true, .drop 0, .incoming "d" true] "a" 0).mp
      ⟨⟨0, "", false⟩, by decide +kernel, rfl⟩
    revert this
    decide +kernel
  · have := h "b" [.incoming "a" true, .drop 0, .incoming "d" true] "a" ⟨0, "", false⟩
      (by decide +kernel) ⟨"d", false, true, false⟩ (by decide +kernel)
    revert this
    decide

end Discovery

end Slim
