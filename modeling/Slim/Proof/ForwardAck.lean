import Slim.ForwardAck
import Slim.Proof.Node

/-!
# Whose acknowledgement the client hears

With one half that waits, the wait is completed by its own recipients only: `NoConn` is the
invariant of the runs without a forward connection, `NoPeers` of those in which nothing reaches a
peer. With both halves (`¬ Alone`), the peers' half can register after the forward connection's and
drop its wait, so `Alone` is exactly what `AckRight` needs in every run (`ackRight_iff`).
`peer_completes` is the other order: the client hears what a peer answered.
-/

namespace Slim.ForwardRun

variable {task : ForwardTask} {n : Node} {s : ForwardRun}

@[simp] theorem track_peerSync (task : ForwardTask) (n : Node) (out : ConnId) :
    (track task n out).peerSync = n.peerSync := by
  unfold track
  split <;> rfl

theorem sameLinks_track (task : ForwardTask) (n : Node) (out : ConnId) :
    n.SameLinks (track task n out) := by
  unfold track
  split
  · exact ⟨rfl, rfl, rfl, rfl, rfl⟩
  · exact Node.SameLinks.refl n

theorem pendingAcks_noted (p : PeerSync) (task : ForwardTask) :
    (if task.add then p.registerForwardedSub task.name task.subId
      else p.removeForwardedSub task.name task.subId).pendingAcks = p.pendingAcks := by
  split <;> rfl

theorem sameLinks_noted (n : Node) (task : ForwardTask) :
    n.SameLinks { n with peerSync :=
      if task.add then n.peerSync.registerForwardedSub task.name task.subId
      else n.peerSync.removeForwardedSub task.name task.subId } := by
  split
  · exact ⟨rfl, rfl, rfl, rfl, rfl⟩
  · exact ⟨rfl, rfl, rfl, rfl, rfl⟩

/-! ## What an acknowledgement does -/

theorem receiveAck_node (s : ForwardRun) (x : Half × ConnId) (b : Bool) (error : String) :
    (s.receiveAck task x b error).node = { s.node with peerSync :=
      (s.node.peerSync.resolveAck task.subId
        (if b then .ok () else .error (.RemoteSubscriptionAckError error))).2 } := by
  have hn : ∀ ct, (s.node.handleNewMessage x.2 ct (buildSubscriptionAck task.subId b error)).node =
      { s.node with peerSync := (s.node.peerSync.resolveAck task.subId
        (if b then .ok () else .error (.RemoteSubscriptionAckError error))).2 } := fun ct =>
    congrArg (·.node) (s.node.handleNewMessage_subscriptionAck x.2 ct ⟨task.subId, b, error⟩)
  unfold receiveAck
  dsimp only
  split
  · exact hn _
  · exact hn _

theorem sameLinks_receiveAck (s : ForwardRun) (x : Half × ConnId) (b : Bool) (error : String) :
    s.node.SameLinks (s.receiveAck task x b error).node := by
  rw [receiveAck_node]
  obtain ⟨acks, ha⟩ := Node.resolveAck_node s.node.peerSync task.subId
    (if b then .ok () else .error (.RemoteSubscriptionAckError error))
  rw [ha]
  exact ⟨rfl, rfl, rfl, rfl, rfl⟩

/-- Everything but the wait that is registered stays, apart from the note of the acknowledgement. -/
theorem receiveAck_cases (task : ForwardTask) (s : ForwardRun) (x : Half × ConnId) (b : Bool)
    (error : String) :
    let s' := s.receiveAck task x b error
    s'.peers = s.peers ∧ s'.conn = s.conn ∧ s'.upstream = s.upstream ∧
      s'.toAck = s.toAck.erase x ∧
      s'.connAck = (if x.1 = Half.conn then some b else s.connAck) ∧
      ((s'.owner = s.owner ∧ s'.rx = s.rx) ∨
        ∃ h r, s.owner = some h ∧ s'.owner = none ∧
          s'.rx = Function.update s.rx h (.resolved r)) := by
  unfold receiveAck
  dsimp only
  split
  · rename_i r h _ ho
    exact ⟨rfl, rfl, rfl, rfl, rfl, .inr ⟨h, r, ho, rfl, rfl⟩⟩
  · exact ⟨rfl, rfl, rfl, rfl, rfl, .inl ⟨rfl, rfl⟩⟩

/-- A wait for one acknowledgement ends with the first. -/
theorem resolveAck_one {p : PeerSync} {id : SubId} (hp : p.pendingAcks.lookup id = some ⟨1, []⟩)
    (b : Bool) (error : String) :
    ∃ r, (p.resolveAck id (if b then .ok () else .error (.RemoteSubscriptionAckError error))).1 =
      some r ∧ r.isOk = b := by
  unfold PeerSync.resolveAck
  rw [hp]
  cases b with
  | true => exact ⟨.ok (), rfl, rfl⟩
  | false => exact ⟨_, rfl, rfl⟩

theorem receiveAck_own (hp : s.node.peerSync.pendingAcks.lookup task.subId = some ⟨1, []⟩)
    {h : Half} (ho : s.owner = some h) (x : Half × ConnId) (b : Bool) (error : String) :
    ∃ r, r.isOk = b ∧ (s.receiveAck task x b error).owner = none ∧
      (s.receiveAck task x b error).rx = Function.update s.rx h (.resolved r) := by
  obtain ⟨r, hr, hb⟩ := resolveAck_one hp b error
  refine ⟨r, hb, ?_⟩
  unfold receiveAck
  simp only [hr, ho]
  exact ⟨trivial, trivial⟩

/-! ## Without a forward connection -/

structure NoConn (s : ForwardRun) : Prop where
  conn : s.conn = .start ∨ s.conn = .done (.ok ())
  rxConn : s.rx .conn = .idle
  rxPeers : s.rx .peers ≠ .dropped
  owner : s.owner ≠ some .conn
  unregistered : s.peers = .start ∨ (∃ cs k, s.peers = .sending cs k) → s.owner = none
  toAck : ∀ x ∈ s.toAck, x.1 = .peers
  connAck : s.connAck = none

theorem noConn_init (n : Node) : NoConn (init n) where
  conn := .inl rfl
  rxConn := rfl
  rxPeers := Wait.noConfusion
  owner := (by simp [init])
  unregistered := fun _ => rfl
  toAck := (by simp [init])
  connAck := rfl

section
variable (h : NoConn s)
include h

theorem NoConn.ackRight : s.AckRight where
  upstream := fun u b _ hb => by simp [h.connAck] at hb
  own := fun r hr => by simp [h.rxConn] at hr
  kept := fun half => by
    cases half with
    | peers => exact h.rxPeers
    | conn => simp [h.rxConn]

theorem NoConn.stepPeers : NoConn (s.stepPeers task) := by
  unfold ForwardRun.stepPeers
  split
  · rename_i hpc
    have ho := h.unregistered (.inl hpc)
    split
    · exact { h with unregistered := fun _ => ho }
    · dsimp only
      split
      · exact { h with unregistered := fun _ => ho }
      · exact { h with unregistered := fun _ => ho }
  · rename_i c todo sent hpc
    have ho := h.unregistered (.inr ⟨_, _, hpc⟩)
    split
    · refine { h with unregistered := fun _ => ho, toAck := fun x hx => ?_ }
      rcases List.mem_append.mp hx with hx | hx
      · exact h.toAck x hx
      · rw [List.mem_singleton.mp hx]
    · exact { h with unregistered := fun _ => ho }
  · rename_i sent hpc
    have ho := h.unregistered (.inr ⟨_, _, hpc⟩)
    split
    · exact { h with unregistered := fun _ => ho }
    · have hrx : s.cancelled = s.rx := by simp only [cancelled, ho]
      exact { h with
        rxConn := by simpa [registerAck, hrx] using h.rxConn
        rxPeers := by simp [registerAck]
        owner := by simp [registerAck]
        unregistered := by simp }
  · split
    · exact { h with unregistered := by simp }
    · exact { h with unregistered := by simp }
    · exact h
  · exact h

theorem NoConn.stepConn (hf : task.targets.forwardConn = none) : NoConn (s.stepConn task) := by
  unfold ForwardRun.stepConn
  cases h.conn with
  | inl hc =>
    simp only [hc, hf]
    exact { h with conn := .inr rfl }
  | inr hc =>
    simp only [hc]
    exact h

theorem NoConn.receiveAck {x : Half × ConnId} (hx : x ∈ s.toAck) (b : Bool)
    (error : String) : NoConn (s.receiveAck task x b error) := by
  obtain ⟨hpc, hc, -, ht, ha, hrx⟩ := receiveAck_cases task s x b error
  have hxp : x.1 ≠ Half.conn := by simp [h.toAck x hx]
  have hkept : (s.receiveAck task x b error).rx .conn = .idle ∧
      (s.receiveAck task x b error).rx .peers ≠ .dropped ∧
      ((s.receiveAck task x b error).owner = s.owner ∨
        (s.receiveAck task x b error).owner = none) := by
    rcases hrx with ⟨ho, hr⟩ | ⟨half, r, ho, ho', hr⟩
    · rw [hr]
      exact ⟨h.rxConn, h.rxPeers, .inl ho⟩
    · -- the wait that is completed is the peers'
      have hp : half = .peers := by
        cases half with
        | peers => rfl
        | conn => exact absurd ho h.owner
      subst hp
      rw [hr]
      exact ⟨by simpa using h.rxConn, by simp, .inr ho'⟩
  exact {
    conn := by rw [hc]; exact h.conn
    rxConn := hkept.1
    rxPeers := hkept.2.1
    owner := by
      rcases hkept.2.2 with ho | ho
      · rw [ho]
        exact h.owner
      · simp [ho]
    unregistered := by
      rw [hpc]
      intro hu
      rcases hkept.2.2 with ho | ho
      · rw [ho]
        exact h.unregistered hu
      · exact ho
    toAck := by
      rw [ht]
      exact fun y hy => h.toAck y (List.mem_of_mem_erase hy)
    connAck := by rw [ha, if_neg hxp]; exact h.connAck }

theorem NoConn.step (hf : task.targets.forwardConn = none) (a : Action) :
    NoConn (s.step task a) := by
  cases a with
  | peers => exact h.stepPeers
  | conn => exact h.stepConn hf
  | ack x b error =>
    unfold ForwardRun.step
    dsimp only
    split
    · exact h.receiveAck ‹_› b error
    · exact h
  | finish =>
    unfold ForwardRun.step
    dsimp only
    split
    · split
      · exact { h with }
      · exact h
    · exact h

end

/-! ## Without a peer to reach -/

/-- The forward connection's half, while the other one registers nothing. -/
inductive ConnInv (task : ForwardTask) (s : ForwardRun) : Prop
  | start (hc : s.conn = .start) (ho : s.owner = none) (hr : s.rx .conn = .idle)
      (ht : s.toAck = []) (ha : s.connAck = none) (hu : s.upstream = none)
  | registered (out : ConnId) (hc : s.conn = .registered out) (ho : s.owner = some .conn)
      (hr : s.rx .conn = .waiting)
      (hp : s.node.peerSync.pendingAcks.lookup task.subId = some ⟨1, []⟩)
      (ht : s.toAck = []) (ha : s.connAck = none) (hu : s.upstream = none)
  | waiting (out : ConnId) (hc : s.conn = .waiting) (ho : s.owner = some .conn)
      (hr : s.rx .conn = .waiting)
      (hp : s.node.peerSync.pendingAcks.lookup task.subId = some ⟨1, []⟩)
      (ht : s.toAck = [(.conn, out)]) (ha : s.connAck = none) (hu : s.upstream = none)
  | resolved (r : Except DataPathError Unit) (hc : s.conn = .waiting) (ho : s.owner = none)
      (hr : s.rx .conn = .resolved r) (ht : s.toAck = []) (ha : s.connAck = some r.isOk)
      (hu : s.upstream = none)
  | done (r : Except DataPathError Unit) (hc : s.conn = .done r) (ho : s.owner = none)
      (hr : s.rx .conn = .idle ∧ s.connAck = none ∨
        s.rx .conn = .resolved r ∧ s.connAck = some r.isOk)
      (ht : s.toAck = []) (hu : ∀ u, s.upstream = some u → u = r.isOk)

structure NoPeers (n : Node) (task : ForwardTask) (s : ForwardRun) : Prop where
  links : n.SameLinks s.node
  peers : s.peers = .start ∨ s.peers = .done ∨ ∃ cs, s.peers = .sending cs 0 ∧
    ∀ c ∈ cs, (n.sendMsg task.peerMessage c).isOk = false
  rxPeers : s.rx .peers = .idle
  conn : ConnInv task s

/-- The other half's steps are nothing to this one. -/
theorem ConnInv.congr (h : ConnInv task s) {node : Node} (peers : PeersPc)
    (hp : node.peerSync.pendingAcks = s.node.peerSync.pendingAcks) :
    ConnInv task { s with node := node, peers := peers } := by
  cases h with
  | start hc ho hr ht ha hu => exact .start hc ho hr ht ha hu
  | registered out hc ho hr hpend ht ha hu =>
    exact .registered out hc ho hr (by rw [hp]; exact hpend) ht ha hu
  | waiting out hc ho hr hpend ht ha hu =>
    exact .waiting out hc ho hr (by rw [hp]; exact hpend) ht ha hu
  | resolved r hc ho hr ht ha hu => exact .resolved r hc ho hr ht ha hu
  | done r hc ho hr ht hu => exact .done r hc ho hr ht hu

theorem noPeers_init (n : Node) (task : ForwardTask) : NoPeers n task (init n) where
  links := Node.SameLinks.refl n
  peers := .inl rfl
  rxPeers := rfl
  conn := .start rfl rfl rfl rfl rfl rfl

section
variable (h : NoPeers n task s)
include h

theorem NoPeers.ackRight : s.AckRight := by
  have hp := h.rxPeers
  cases h.conn with
  | start hc ho hr ht ha hu =>
    exact ⟨by simp [hu], by simp [hr], fun half => by cases half <;> simp [hp, hr]⟩
  | registered out hc ho hr _ ht ha hu =>
    exact ⟨by simp [hu], by simp [hr], fun half => by cases half <;> simp [hp, hr]⟩
  | waiting out hc ho hr _ ht ha hu =>
    exact ⟨by simp [hu], by simp [hr], fun half => by cases half <;> simp [hp, hr]⟩
  | resolved r hc ho hr ht ha hu =>
    exact ⟨by simp [hu], by simp [hr, ha], fun half => by cases half <;> simp [hp, hr]⟩
  | done r hc ho hr ht hu =>
    rcases hr with ⟨hr, ha⟩ | ⟨hr, ha⟩
    · exact ⟨by simp [ha], by simp [hr], fun half => by cases half <;> simp [hp, hr]⟩
    · refine ⟨fun u b hup hb => ?_, by simp [hr, ha], fun half => by cases half <;> simp [hp, hr]⟩
      rw [ha, Option.some.injEq] at hb
      rw [hu u hup, hb]

theorem NoPeers.stepPeers
    (hno : ∀ target ∈ task.targets.peers, ∀ c ∈ n.targetConns target,
      (n.sendMsg task.peerMessage c).isOk = false) : NoPeers n task (s.stepPeers task) := by
  unfold ForwardRun.stepPeers
  rcases h.peers with hpc | hpc | ⟨cs, hpc, hcs⟩
  · simp only [hpc]
    split
    · exact ⟨h.links, .inr (.inl rfl), h.rxPeers, h.conn.congr _ rfl⟩
    · rename_i target htgt
      split
      · exact ⟨h.links, .inr (.inl rfl), h.rxPeers, h.conn.congr _ rfl⟩
      · refine ⟨h.links.trans (sameLinks_noted s.node task), .inr (.inr ⟨_, rfl, ?_⟩), h.rxPeers,
          h.conn.congr _ (pendingAcks_noted _ task)⟩
        rw [h.links.targetConns]
        exact hno target htgt
  · simp only [hpc]
    exact h
  · cases cs with
    | nil =>
      simp only [hpc]
      exact ⟨h.links, .inr (.inl rfl), h.rxPeers, h.conn.congr _ rfl⟩
    | cons c todo =>
      have hc := hcs c (List.mem_cons_self)
      rw [← h.links.sendMsg] at hc
      simp only [hpc]
      cases hs : s.node.sendMsg task.peerMessage c with
      | ok e =>
        rw [hs] at hc
        cases hc
      | error e =>
        exact ⟨h.links, .inr (.inr ⟨todo, rfl, fun c hc => hcs c (List.mem_cons_of_mem _ hc)⟩),
          h.rxPeers, h.conn.congr _ rfl⟩

/-! The forward connection's half. -/

theorem NoPeers.stepConn : NoPeers n task (s.stepConn task) := by
  unfold ForwardRun.stepConn
  cases h.conn with
  | start hc ho hr ht ha hu =>
    simp only [hc]
    split
    · exact ⟨h.links, h.peers, h.rxPeers, .done (.ok ()) rfl ho (.inl ⟨hr, ha⟩) ht (by simp [hu])⟩
    · rename_i out _
      have hrx : s.cancelled = s.rx := by simp only [cancelled, ho]
      exact ⟨⟨h.links.1, h.links.2, h.links.3, h.links.4, h.links.5⟩, h.peers,
        by simpa [registerAck, hrx] using h.rxPeers, .registered out rfl rfl (by simp [registerAck])
          (by simp [registerAck, PeerSync.registerAck]) ht ha hu⟩
  | registered out hc ho hr hp ht ha hu =>
    simp only [hc]
    split
    · exact ⟨h.links.trans (sameLinks_track task s.node out), h.peers, h.rxPeers,
        .waiting out rfl ho hr (by simpa using hp) (by simp [ht]) ha hu⟩
    · rename_i e _
      exact ⟨⟨h.links.1, h.links.2, h.links.3, h.links.4, h.links.5⟩, h.peers,
        by simpa [removeAck, cancelled, ho] using h.rxPeers,
        .done (.error e) rfl rfl (.inl ⟨by simp, ha⟩) ht (by simp [removeAck, hu])⟩
  | waiting out hc ho hr hp ht ha hu =>
    simp only [hc, hr]
    exact h
  | resolved r hc ho hr ht ha hu =>
    have hrx : s.cancelled = s.rx := by simp only [cancelled, ho]
    simp only [hc, hr]
    exact ⟨⟨h.links.1, h.links.2, h.links.3, h.links.4, h.links.5⟩, h.peers,
      by simpa [removeAck, hrx] using h.rxPeers,
      .done r rfl rfl (.inr ⟨by simpa [removeAck, hrx] using hr, ha⟩) ht
        (by simp [removeAck, hu])⟩
  | done r hc ho hr ht hu =>
    simp only [hc]
    exact h

theorem NoPeers.receiveAck {x : Half × ConnId} (hx : x ∈ s.toAck) (b : Bool)
    (error : String) : NoPeers n task (s.receiveAck task x b error) := by
  cases h.conn with
  | start hc ho hr ht ha hu => simp [ht] at hx
  | registered out hc ho hr hp ht ha hu => simp [ht] at hx
  | resolved r hc ho hr ht ha hu => simp [ht] at hx
  | done r hc ho hr ht hu => simp [ht] at hx
  | waiting out hc ho hr hp ht ha hu =>
    rw [ht, List.mem_singleton] at hx
    subst hx
    obtain ⟨hpc, hc', hu', ht', ha', -⟩ := receiveAck_cases task s (.conn, out) b error
    obtain ⟨r, hb, ho', hr'⟩ := receiveAck_own hp ho (.conn, out) b error
    refine ⟨h.links.trans (sameLinks_receiveAck s _ b error), by rw [hpc]; exact h.peers, ?_, ?_⟩
    · rw [hr']
      simpa using h.rxPeers
    · refine .resolved r (hc'.trans hc) ho' (by simp [hr']) ?_ ?_ (hu'.trans hu)
      · rw [ht', ht]
        simp
      · rw [ha', hb]
        rfl

theorem NoPeers.step
    (hno : ∀ target ∈ task.targets.peers, ∀ c ∈ n.targetConns target,
      (n.sendMsg task.peerMessage c).isOk = false) (a : Action) :
    NoPeers n task (s.step task a) := by
  cases a with
  | peers => exact h.stepPeers hno
  | conn => exact h.stepConn
  | ack x b error =>
    unfold ForwardRun.step
    dsimp only
    split
    · exact h.receiveAck ‹_› b error
    · exact h
  | finish =>
    unfold ForwardRun.step
    dsimp only
    split
    · rename_i r _ hd
      split
      · refine ⟨h.links, h.peers, h.rxPeers, ?_⟩
        cases h.conn with
        | done r' hc ho hr ht hu =>
          rw [hc] at hd
          cases hd
          exact .done r hc ho hr ht (by simp)
        | start hc | registered _ hc | waiting _ hc | resolved _ hc => simp [hc] at hd
      · exact h
    · exact h

end

/-! ## With both -/

theorem sends (task : ForwardTask) : ∀ (cs : List ConnId) (s : ForwardRun) (k : Nat),
    s.peers = .sending cs k →
    ∃ toAck, (List.replicate cs.length Action.peers).foldl (step task) s = { s with
      peers := .sending [] (k + cs.countP fun c => (s.node.sendMsg task.peerMessage c).isOk)
      toAck := toAck }
  | [], s, k, hpc => ⟨s.toAck, by rw [List.countP_nil, Nat.add_zero, ← hpc]; rfl⟩
  | c :: cs, s, k, hpc => by
    rw [List.length_cons, List.replicate_succ, List.foldl_cons, List.countP_cons]
    simp only [step, stepPeers, hpc]
    cases hs : s.node.sendMsg task.peerMessage c with
    | ok e =>
      obtain ⟨toAck, h⟩ := sends task cs
        { s with peers := .sending cs (k + 1), toAck := s.toAck ++ [(.peers, c)] } (k + 1) rfl
      refine ⟨toAck, h.trans ?_⟩
      simp only [Except.isOk, Except.toBool, if_true, Nat.add_assoc, Nat.add_comm 1]
    | error e =>
      obtain ⟨toAck, h⟩ := sends task cs { s with peers := .sending cs k } k rfl
      exact ⟨toAck, h⟩

/-- The peers' half registers over the forward connection's wait. -/
theorem drops_conn {out : ConnId} {target : PeerTarget} {c : ConnId}
    (hf : task.targets.forwardConn = some out) (ht : task.targets.peers = some target)
    (hc : c ∈ n.targetConns target) (hok : (n.sendMsg task.peerMessage c).isOk = true) :
    ∃ as : List Action, (as.foldl (step task) (init n)).rx .conn = .dropped := by
  have hne : (n.targetConns target).isEmpty = false := by
    cases h : n.targetConns target with
    | nil => simp [h] at hc
    | cons a l => rfl
  -- the forward connection's half registers, the other one starts
  let n₁ : Node := { n with peerSync := n.peerSync.registerAck task.subId 1 }
  have hl₁ : n.SameLinks n₁ := ⟨rfl, rfl, rfl, rfl, rfl⟩
  let s : ForwardRun := { ((init n).registerAck task .conn 1) with
    node := { n₁ with peerSync :=
      if task.add then n₁.peerSync.registerForwardedSub task.name task.subId
      else n₁.peerSync.removeForwardedSub task.name task.subId }
    conn := .registered out
    peers := .sending (n.targetConns target) 0 }
  have hs : [Action.conn, .peers].foldl (step task) (init n) = s := by
    have hne₁ : (n₁.targetConns target).isEmpty = false := by rw [hl₁.targetConns, hne]
    simp only [List.foldl_cons, step, stepConn, init, hf,
      registerAck, stepPeers, ht]
    rw [if_neg (by simp [n₁] at hne₁; simp [hne₁])]
    rfl
  have hpc : s.peers = .sending (n.targetConns target) 0 := rfl
  have hl : n.SameLinks s.node := hl₁.trans (sameLinks_noted n₁ task)
  have ho : s.owner = some .conn := rfl
  obtain ⟨toAck, hsent⟩ := sends task _ s 0 hpc
  have hpos : (n.targetConns target).countP (fun c => (s.node.sendMsg task.peerMessage c).isOk) ≠
      0 := by
    have : 0 < (n.targetConns target).countP fun c => (s.node.sendMsg task.peerMessage c).isOk := by
      rw [List.countP_pos_iff]
      exact ⟨c, hc, by rw [hl.sendMsg]; exact hok⟩
    omega
  refine ⟨[.conn, .peers] ++ List.replicate (n.targetConns target).length .peers ++ [.peers], ?_⟩
  rw [List.foldl_append, List.foldl_append, hs, hsent]
  simp only [List.foldl_cons, step, stepPeers, Nat.zero_add,
    if_neg hpos, registerAck, cancelled, ho]
  simp

theorem ackRight_iff (n : Node) (task : ForwardTask) :
    (∀ as : List Action, (as.foldl (step task) (init n)).AckRight) ↔ Alone n task := by
  constructor
  · intro h
    by_contra hno
    unfold Alone at hno
    push Not at hno
    obtain ⟨hf, target, ht, c, hc, hok⟩ := hno
    obtain ⟨out, hf⟩ := Option.ne_none_iff_exists'.mp hf
    obtain ⟨as, hd⟩ := drops_conn hf ht hc (by simpa using hok)
    exact (h as).kept .conn hd
  · intro h as
    cases h with
    | inl hf =>
      have hi : NoConn (as.foldl (step task) (init n)) :=
        Run.invariant (fun s a hi => hi.step hf a) (noConn_init n) as
      exact hi.ackRight
    | inr hno =>
      have hi : NoPeers n task (as.foldl (step task) (init n)) :=
        Run.invariant (fun s a hi => hi.step hno a) (noPeers_init n task) as
      exact hi.ackRight

/-- A client on connection 1, a peer on 2, and the forward connection 3. -/
def mixedNode : Node where
  forwarder :=
    { connectionTable := ((AList.insert 1 { connectionType := .Local } ∅).insert 2
        { connectionType := .Peer }).insert 3 { connectionType := .Remote } }
  peerSync := { peerConns := [2], subscriptionTtl := 4 }

def mixedTask : ForwardTask :=
  let name : ProtoName := { name := some ⟨1, 2, 3, some ⟨0, 5⟩⟩, strName := some ⟨"a", "b", "c"⟩ }
  { msg := buildSubscribeMsg name 7 1
    name := name
    subId := 7
    add := true
    targets := ⟨some .All, some 3⟩
    inConnection := 1
    upstreamSubscriptionId := some 7
    peerTtl := 4 }

/-- The forward connection registers last: the peer's success completes its wait, and its own
refusal comes too late. -/
theorem peer_completes : ¬ ∀ (n : Node) (task : ForwardTask) (as : List Action) (u b : Bool),
    (as.foldl (step task) (init n)).upstream = some u →
    (as.foldl (step task) (init n)).connAck = some b → u = b := by
  intro h
  have := h mixedNode mixedTask [.peers, .peers, .peers, .conn, .conn, .ack (.peers, 2) true "",
    .conn, .peers, .finish, .ack (.conn, 3) false "refused"] true false
    (by decide +kernel) (by decide +kernel)
  cases this

end Slim.ForwardRun
