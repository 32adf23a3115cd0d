import Slim.Lib.Run
import Slim.PinnedGateway
import Slim.Tables.Proof.Pool

/-!
# Which connection a pinned gateway is

The pin is an id. As long as the slot of the pinned connection is not handed out again, an explicit
gateway is the connection that was pinned (`pin_holds`); the free list gives it out first, though,
and then the pin is another connection's (`pin_passes_on`).
-/

namespace Slim

open DefaultGateway Forwarder

namespace Forwarder

variable {f : Forwarder} {id : ConnId}

theorem mem_table_of_edge (h : id ∈ f.edgeConnIds) : id ∈ f.connectionTable := by
  obtain ⟨e, he, rfl⟩ := List.mem_map.mp h
  exact AList.mem_keys.mpr (List.mem_map_of_mem (List.mem_filter.mp he).1)

theorem resolve_pinned (h : f.defaultGateway.explicit = some id) :
    f.resolveDefaultGateway = (if id ∈ f.edgeConnIds then .Some id .Explicit else .Empty, f) := by
  unfold resolveDefaultGateway DefaultGateway.resolve
  simp [h]

theorem resolve_connectionTable (f : Forwarder) :
    f.resolveDefaultGateway.2.connectionTable = f.connectionTable := rfl

/-- Without a pin the gateway and what is cached of it are automatic. -/
theorem resolve_unpinned (h : f.defaultGateway.explicit = none)
    (hc : ∀ c, f.defaultGateway.cache ≠ .Some c .Explicit) (c : ConnId) :
    f.resolveDefaultGateway.1 ≠ .Some c .Explicit ∧
      f.resolveDefaultGateway.2.defaultGateway.cache ≠ .Some c .Explicit ∧
      f.resolveDefaultGateway.2.defaultGateway.explicit = none := by
  unfold resolveDefaultGateway DefaultGateway.resolve
  rw [h]
  dsimp only
  split
  · exact ⟨by simp, hc c, h⟩
  · split
    · exact ⟨hc c, hc c, h⟩
    · split
      · exact ⟨by simp, by simp, rfl⟩
      · exact ⟨by simp, by simp, rfl⟩
      · exact ⟨by simp, by simp, rfl⟩

theorem setDefaultGateway_cases (f : Forwarder) (conn : ConnId) :
    (∃ e, f.setDefaultGateway conn = (.error e, f)) ∨
      conn ∈ f.connectionTable ∧ f.setDefaultGateway conn =
        (.ok (), { f with defaultGateway := { f.defaultGateway with explicit := some conn } }) := by
  unfold setDefaultGateway
  cases hc : f.getConnection conn with
  | none => exact .inl ⟨_, rfl⟩
  | some c =>
    dsimp only
    split
    · exact .inl ⟨_, rfl⟩
    · refine .inr ⟨AList.lookup_isSome.mp ?_, rfl⟩
      rw [show f.connectionTable.lookup conn = some c from hc]
      rfl

theorem setConnectionType_spec (f : Forwarder) (conn : ConnId) (ct : ConnType) :
    (∀ id, id ∈ (f.setConnectionType conn ct).connectionTable ↔ id ∈ f.connectionTable) ∧
      (f.setConnectionType conn ct).defaultGateway = f.defaultGateway.invalidate := by
  unfold setConnectionType
  split
  · exact ⟨fun _ => Iff.rfl, rfl⟩
  · rename_i c hc
    refine ⟨fun id => ?_, rfl⟩
    rw [AList.mem_insert, or_iff_right_iff_imp]
    intro heq
    rw [heq]
    exact AList.lookup_isSome.mp (by rw [hc]; rfl)

end Forwarder

namespace PinnedGateway

variable {calculateHash : String → UInt64} {s : PinnedGateway}

structure Inv (s : PinnedGateway) : Prop where
  /-- The connection table is the pool. -/
  stored : ∀ id, id ∈ s.forwarder.connectionTable ↔ (s.pool.get id).isSome
  cache : ∀ c, s.forwarder.defaultGateway.cache ≠ .Some c .Explicit
  pin : s.forwarder.defaultGateway.explicit = s.pinned.map Prod.fst
  slot : ∀ id n, s.pinned = some (id, n) → id.toNat < s.pool.pool.length
  same : ∀ id n, s.pinned = some (id, n) → ∀ m, s.pool.get id = some m → m = n

theorem inv_init : Inv {} where
  stored := fun id => by simp
  cache := fun c => by simp
  pin := rfl
  slot := fun id n h => by cases h
  same := fun id n h => by cases h

section
variable (h : Inv s)
include h

theorem Inv.pinHolds : s.PinHolds := by
  have hpin := h.pin
  constructor
  · intro id hr
    cases hp : s.pinned with
    | none =>
      rw [hp] at hpin
      exact absurd hr (resolve_unpinned hpin h.cache id).1
    | some x =>
      obtain ⟨id', n⟩ := x
      rw [hp] at hpin
      rw [resolve_pinned hpin] at hr
      split at hr
      · rename_i hedge
        cases hr
        obtain ⟨m, hm⟩ := Option.isSome_iff_exists.mp
          ((h.stored _).mp (mem_table_of_edge hedge))
        exact ⟨n, rfl, by rw [hm, h.same _ _ hp m hm]⟩
      · cases hr
  · intro id n hp hne
    rw [hp] at hpin
    rw [resolve_pinned hpin]
    refine if_neg fun hedge => hne ?_
    obtain ⟨m, hm⟩ :=
      Option.isSome_iff_exists.mp ((h.stored _).mp (mem_table_of_edge hedge))
    rw [hm, h.same id n hp m hm]

theorem Inv.forwarder {f : Forwarder}
    (htable : ∀ id, id ∈ f.connectionTable ↔ id ∈ s.forwarder.connectionTable)
    (hcache : ∀ c, f.defaultGateway.cache ≠ .Some c .Explicit)
    (hpin : f.defaultGateway.explicit = s.forwarder.defaultGateway.explicit) :
    Inv { s with forwarder := f } :=
  ⟨fun id => (htable id).trans (h.stored id), hcache, hpin.trans h.pin, h.slot, h.same⟩

theorem Inv.establish (connection : Connection) {id : ConnId} {pool : Pool Nat}
    (hins : s.pool.insert s.next = some (id, pool))
    (ha : ∀ id ∈ s.forwarder.defaultGateway.explicit, s.pool.nextFree ≠ some id) :
    Inv { s with
      forwarder := s.forwarder.onConnectionEstablished connection id, pool,
      next := s.next + 1 } := by
  obtain ⟨-, hget⟩ := Pool.insert_spec hins
  obtain ⟨hid, hlen⟩ := Pool.insert_id hins
  -- the slot is not the pinned one
  have hne : ∀ id' n, s.pinned = some (id', n) → id' ≠ id := by
    intro id' n hp heq
    have hslot := h.slot id' n hp
    have hpin := h.pin
    rw [hp] at hpin
    rcases hid with hfree | hnew
    · exact ha id' hpin (heq ▸ hfree)
    · rw [heq] at hslot
      omega
  refine ⟨fun id' => ?_, fun c => by simp [onConnectionEstablished, invalidate],
    h.pin, fun id' n hp => lt_of_lt_of_le (h.slot id' n hp) hlen, fun id' n hp m hm => ?_⟩
  · simp only [onConnectionEstablished, AList.mem_insert, hget, h.stored]
    by_cases heq : id' = id
    · simp [heq]
    · simp [heq]
  · rw [hget, if_neg (hne id' n hp)] at hm
    exact h.same id' n hp m hm

theorem Inv.drop (conn : ConnId) (category : ConnType) :
    Inv { s with
      forwarder := (s.forwarder.onConnectionDrop calculateHash conn category).2
      pool := (s.pool.remove conn).2 } := by
  refine ⟨fun id => ?_, fun c => by simp [onConnectionDrop, invalidate],
    h.pin, fun id n hp => by rw [Pool.length_remove]; exact h.slot id n hp, fun id n hp m hm => ?_⟩
  · simp only [onConnectionDrop, AList.mem_erase, Pool.get_remove, h.stored]
    by_cases heq : id = conn
    · simp [heq]
    · simp [heq]
  · rw [Pool.get_remove] at hm
    split at hm
    · cases hm
    · exact h.same id n hp m hm

theorem Inv.set (conn : ConnId) : Inv (s.step calculateHash (.set conn)) := by
  rcases s.forwarder.setDefaultGateway_cases conn with ⟨e, he⟩ | ⟨hmem, hok⟩
  · simp only [step, he]
    exact h
  · obtain ⟨n, hn⟩ := Option.isSome_iff_exists.mp ((h.stored conn).mp hmem)
    simp only [step, hok, hn]
    refine ⟨h.stored, h.cache, rfl, fun id m hp => ?_, fun id m hp k hk => ?_⟩
    · cases hp
      exact Pool.lt_of_get hn
    · cases hp
      rw [hn] at hk
      exact (Option.some.inj hk).symm

theorem Inv.step {a : Action} (ha : s.NotReused a) : Inv (s.step calculateHash a) := by
  cases a with
  | establish connection =>
    unfold PinnedGateway.step
    dsimp only
    split
    · exact h
    · exact h.establish connection ‹_› ha
  | drop conn category => exact h.drop conn category
  | set conn => exact h.set conn
  | clear =>
    exact ⟨h.stored, fun c => by simp [PinnedGateway.step, clearDefaultGateway,
      invalidate], rfl, (fun id n hp => by cases hp), fun id n hp => by cases hp⟩
  | setEnabled enabled => exact h.forwarder (fun _ => Iff.rfl) h.cache rfl
  | changeType conn ct =>
    obtain ⟨htable, hgate⟩ := s.forwarder.setConnectionType_spec conn ct
    exact h.forwarder htable (fun c => by rw [hgate]; simp [invalidate])
      (by rw [hgate]; rfl)
  | resolve =>
    have htable := s.forwarder.resolve_connectionTable
    cases hp : s.forwarder.defaultGateway.explicit with
    | none =>
      have hr := resolve_unpinned hp h.cache
      exact h.forwarder (fun id => by rw [htable]) (fun c => (hr c).2.1) ((hr 0).2.2.trans hp.symm)
    | some id =>
      have hs := resolve_pinned hp
      exact h.forwarder (fun id => by rw [htable]) (by rw [hs]; exact h.cache) (by rw [hs])

end

theorem pin_holds (calculateHash : String → UInt64) (as : List Action)
    (h : Run.Meets (step calculateHash) NotReused {} as) :
    (as.foldl (step calculateHash) {}).PinHolds :=
  (h.invariant (fun _ _ hi ha => hi.step ha) inv_init).pinHolds

def edge : Action := .establish { connectionType := .Edge }

/-- The pinned connection drops, and only later one is established in another slot. -/
theorem pin_holds_gone :
    Run.Meets (step fun _ => 0) NotReused {}
        [edge, edge, edge, .set 0, .drop 0 .Edge, .drop 2 .Edge, edge] ∧
      ([edge, edge, edge, .set 0, .drop 0 .Edge, .drop 2 .Edge, edge].foldl (step fun _ => 0)
        {}).PinHolds := by
  have h : Run.Meets (step fun _ => 0) NotReused {} [edge, edge, edge, .set 0, .drop 0 .Edge,
    .drop 2 .Edge, edge] := by decide +kernel
  exact ⟨h, pin_holds (fun _ => 0) _ h⟩

/-- The next connection gets the id of the pinned one that dropped, and with it the pin. -/
theorem pin_passes_on : ¬ ∀ (calculateHash : String → UInt64) (as : List Action),
    (as.foldl (step calculateHash) {}).PinHolds := by
  intro h
  obtain ⟨n, hp, hg⟩ := (h (fun _ => 0) [edge, .set 0, .drop 0 .Edge, edge]).explicit 0
    (by decide +kernel)
  have hn : n = 0 := by
    have : (0, n) = ((0 : ConnId), 0) := Option.some.inj (hp.symm.trans (by decide +kernel))
    exact congrArg Prod.snd this
  rw [hn] at hg
  revert hg
  decide +kernel

end PinnedGateway

end Slim
