import Slim.DropRace
import Slim.Lib.Run
import Slim.Tables.Proof.Pool

/-!
# A reused connection id

If the new connection subscribes only before or after the drop of the connection whose id it got, it
keeps its subscriptions and inherits none (`kept_notBetween`). In between, the drop takes the new
connection's subscriptions for those of the old one (`subscribed_between`).
-/

namespace Slim.DropRace

open Function

variable {calculateHash : String → UInt64} {old : ConnId} {category : ConnType} {s : DropRace}

/-- The id of the new connection is not one that is half dropped. -/
def Settled (old : ConnId) (s : DropRace) (id : ConnId) : Prop := id = old → s.phase = .done

structure Inv (old : ConnId) (category : ConnType) (s : DropRace) : Prop where
  types : ∃ ty, s.table.Inv ty ∧ (s.phase ≠ .done → ty old = category) ∧
    ∀ id ct, s.new = some (id, ct) → s.Settled old id → ty id = ct
  held : ∀ k, s.table.Holds k →
    (s.conns.get k.connId).isSome ∨ k.connId = old ∧ s.phase = .removed
  conn : ∀ id ct, s.new = some (id, ct) → s.conns.get id = some ct
  present : s.phase = .present → (s.conns.get old).isSome ∧ ∀ ct, s.new ≠ some (old, ct)
  acked : ∀ x ∈ s.acked, ∃ id ct, s.new = some (id, ct) ∧ s.Settled old id ∧
    s.table.Holds ⟨id, x.2, x.1⟩ ∧ s.table.routing.Lists x.1.route ct id
  clean : s.phase = .done → ∀ q ct, s.table.routing.Lists q ct old →
    (∃ ct', s.new = some (old, ct')) ∧ ∃ x ∈ s.acked, x.1.route = q

section
variable (h : Inv old category s) {ct : ConnType} {id : ConnId}

include h

theorem Inv.removeConnection (hp : s.phase = .present) :
    Inv old category { s with conns := (s.conns.remove old).2, phase := .removed } := by
  obtain ⟨-, hnew⟩ := h.present hp
  have hne : ∀ id ct, s.new = some (id, ct) → id ≠ old := fun id ct hn heq => hnew ct (heq ▸ hn)
  refine ⟨?_, fun k hk => ?_, fun id ct hn => ?_, (fun hph => by cases hph), fun x hx => ?_,
    (fun hph => by cases hph)⟩
  · obtain ⟨ty, hi, hold, hty⟩ := h.types
    exact ⟨ty, hi, fun _ => hold (by rw [hp]; decide),
      fun id ct hn _ => hty id ct hn fun heq => absurd heq (hne id ct hn)⟩
  · by_cases hc : k.connId = old
    · exact .inr ⟨hc, rfl⟩
    · rcases h.held k hk with hk | ⟨hc', -⟩
      · exact .inl (by rw [Pool.get_remove, if_neg hc]; exact hk)
      · exact absurd hc' hc
  · rw [Pool.get_remove, if_neg (hne id ct hn)]
    exact h.conn id ct hn
  · obtain ⟨id, ct, hn, -, hx⟩ := h.acked x hx
    exact ⟨id, ct, hn, fun heq => absurd heq (hne id ct hn), hx⟩

theorem Inv.dropped (calculateHash : String → UInt64) (hp : s.phase = .removed) :
    ∃ ty, (s.table.removeConnection calculateHash old category).2.Inv ty ∧
      (∀ id ct, s.new = some (id, ct) → id ≠ old → ty id = ct) ∧
      (∀ k, (s.table.removeConnection calculateHash old category).2.Holds k ↔
        s.table.Holds k ∧ k.connId ≠ old) ∧
      (∀ q ct c, c ≠ old → s.table.routing.Lists q ct c →
        (s.table.removeConnection calculateHash old category).2.routing.Lists q ct c) ∧
      ∀ q ct, ¬ (s.table.removeConnection calculateHash old category).2.routing.Lists q ct old := by
  obtain ⟨ty, hi, hold, hty⟩ := h.types
  have hold : ty old = category := hold (by rw [hp]; decide)
  have hty : ∀ id ct, s.new = some (id, ct) → id ≠ old → ty id = ct := fun id ct hn hne =>
    hty id ct hn fun heq => absurd heq hne
  rcases hr : s.table.removeConnection calculateHash old category with ⟨res, t⟩
  rcases hi.removeConnection hr with ⟨-, rfl, hno⟩ | ⟨lost, -, hd⟩
  · refine ⟨ty, hi, hty, fun k => ⟨fun hk => ⟨hk, hno k hk⟩, And.left⟩, fun q ct c _ hc => hc,
      fun q ct hc => ?_⟩
    obtain ⟨k, hk, hkc, -⟩ := hi.held hc
    exact hno k hk hkc
  · rw [← hold] at hd
    exact ⟨ty, hd.inv hi, hty, hd.holds,
      fun q ct c hne hc => (hd.lists q ct c).mpr ⟨hc, fun hx => hne hx.2⟩, hd.not_lists hi⟩

theorem Inv.removeSubscriptions (hp : s.phase = .removed) :
    Inv old category { s with
      table := (s.table.removeConnection calculateHash old category).2, phase := .done } := by
  obtain ⟨ty, hi, hty, hholds, hlists, hgone⟩ := h.dropped calculateHash hp
  have hne : ∀ k, (s.table.removeConnection calculateHash old category).2.Holds k →
      k.connId ≠ old := fun k hk => ((hholds k).mp hk).2
  refine ⟨?_, fun k hk => ?_, h.conn, (fun hph => by cases hph), fun x hx => ?_,
    fun _ q ct hc => absurd hc (hgone q ct)⟩
  · -- the id is free for the type of the new connection
    cases hn : s.new with
    | none => exact ⟨ty, hi, fun hph => absurd rfl hph, fun id ct hn' => by cases hn'⟩
    | some x =>
      obtain ⟨id, ct⟩ := x
      by_cases hid : id = old
      · refine ⟨update ty old ct, hi.congr fun k hk => ?_, fun hph => absurd rfl hph, ?_⟩
        · exact update_of_ne (hne k hk) _ _
        · intro id' ct' hn' _
          cases hn'
          rw [hid, update_self]
      · refine ⟨ty, hi, fun hph => absurd rfl hph, fun id' ct' hn' _ => ?_⟩
        cases hn'
        exact hty id ct hn hid
  · rcases h.held k ((hholds k).mp hk).1 with hk' | ⟨hc, -⟩
    · exact .inl hk'
    · exact absurd hc (hne k hk)
  · obtain ⟨id, ct, hn, hset, hx, hl⟩ := h.acked x hx
    have hid : id ≠ old := fun heq => by
      have := hset heq
      rw [hp] at this
      cases this
    exact ⟨id, ct, hn, fun heq => absurd heq hid, (hholds _).mpr ⟨hx, hid⟩, hlists _ _ _ hid hl⟩

theorem Inv.establish (hnone : s.new = none) {conns : Pool ConnType}
    (hins : s.conns.insert ct = some (id, conns)) :
    Inv old category { s with conns, new := some (id, ct) } := by
  obtain ⟨hfree, hget⟩ := Pool.insert_spec hins
  have hold : (s.conns.get old).isSome → id ≠ old := fun ho heq => by
    rw [← heq, hfree] at ho
    cases ho
  have hempty : s.acked = [] := List.eq_nil_iff_forall_not_mem.mpr fun x hx => by
    obtain ⟨id, ct, hn, -⟩ := h.acked x hx
    rw [hnone] at hn
    cases hn
  refine ⟨?_, fun k hk => ?_, fun id' ct' hn => ?_, fun hp => ?_, fun x hx => ?_,
    fun hp q ct' hc => ?_⟩
  · obtain ⟨ty, hi, ho, -⟩ := h.types
    by_cases hset : s.Settled old id
    · refine ⟨update ty id ct, hi.congr fun k hk => ?_, fun hp => ?_, fun id' ct' hn _ => ?_⟩
      · -- nobody holds records under an id that was free
        refine update_of_ne (fun heq => ?_) _ _
        rcases h.held k hk with hk' | ⟨hc, hph⟩
        · rw [heq, hfree] at hk'
          cases hk'
        · have := hset (heq.symm.trans hc)
          rw [hph] at this
          cases this
      · rw [update_of_ne fun heq => hp (hset heq.symm)]
        exact ho hp
      · cases hn
        exact update_self ..
    · refine ⟨ty, hi, ho, fun id' ct' hn hset' => ?_⟩
      cases hn
      exact absurd hset' hset
  · rw [hget]
    split
    · exact .inl rfl
    · exact h.held k hk
  · cases hn
    rw [hget, if_pos rfl]
  · obtain ⟨ho, -⟩ := h.present hp
    refine ⟨by rw [hget, if_neg (hold ho).symm]; exact ho, fun ct' hn => ?_⟩
    cases hn
    exact hold ho rfl
  · rw [hempty] at hx
    cases hx
  · obtain ⟨⟨ct', hn⟩, -⟩ := h.clean hp q ct' hc
    rw [hnone] at hn
    cases hn

theorem Inv.subscribe (hn : s.new = some (id, ct)) (hset : s.Settled old id) (name : ProtoName)
    (subId : SubId) :
    Inv old category (s.step calculateHash old category (.subscribe name subId)) := by
  obtain ⟨ty, hi, ho, hty⟩ := h.types
  have hct := hty id ct hn hset
  rcases hr : s.table.addSubscription name id ct subId with ⟨res, t⟩
  rcases hi.add (hct ▸ hr) with ⟨msg, rfl, rfl, -⟩ | ⟨e, first, he, rfl, ha⟩
  · have hstep : s.step calculateHash old category (.subscribe name subId) = s := by
      unfold DropRace.step
      simp only [hn, hr]
      rw [← hn]
    rw [hstep]
    exact h
  · have hstep : s.step calculateHash old category (.subscribe name subId) =
        { s with table := t, acked := s.acked ++ [(e, subId)] } := by
      unfold DropRace.step
      simp [hn, hr, he]
    rw [hstep]
    refine ⟨⟨ty, ha.inv, ho, hty⟩, fun k hk => ?_, h.conn, h.present, fun x hx => ?_,
      fun hp q ct' hc => ?_⟩
    · rcases (ha.holds k).mp hk with hk | rfl
      · exact h.held k hk
      · exact .inl (by rw [h.conn id ct hn]; rfl)
    · rcases List.mem_append.mp hx with hx | hx
      · obtain ⟨id', ct', hn', hset', hx, hl⟩ := h.acked x hx
        exact ⟨id', ct', hn', hset', (ha.holds _).mpr (.inl hx), (ha.lists _ _ _).mpr (.inl hl)⟩
      · rw [List.mem_singleton.mp hx]
        exact ⟨id, ct, hn, hset, (ha.holds _).mpr (.inr rfl),
          (ha.lists _ _ _).mpr (.inr ⟨rfl, hct.symm, rfl⟩)⟩
    · rcases (ha.lists q ct' old).mp hc with hc | ⟨rfl, -, rfl⟩
      · obtain ⟨hnew, x, hx, hq⟩ := h.clean hp q ct' hc
        exact ⟨hnew, x, List.mem_append_left _ hx, hq⟩
      · exact ⟨⟨ct, hn⟩, (e, subId), by simp, rfl⟩

theorem Inv.step {a : Action} (ha : s.NotBetween old a) :
    Inv old category (s.step calculateHash old category a) := by
  cases a with
  | removeConnection =>
    unfold DropRace.step
    dsimp only
    split
    · exact h.removeConnection ‹_›
    · exact h
  | removeSubscriptions =>
    unfold DropRace.step
    dsimp only
    split
    · exact h.removeSubscriptions ‹_›
    · exact h
  | establish ct =>
    unfold DropRace.step
    dsimp only
    split
    · exact h.establish ‹_› ‹_›
    · exact h
  | subscribe name subId =>
    cases hn : s.new with
    | none =>
      unfold DropRace.step
      simp only [hn]
      exact h
    | some x => exact h.subscribe hn (fun heq => ha x hn heq) name subId

end

theorem inv_init {conns : Pool ConnType} {table : SubscriptionTable}
    (h : Start old category conns table) : Inv old category { conns, table } where
  types := ⟨_, h.inv, fun _ => by rw [h.old]; rfl, fun id ct hn => by cases hn⟩
  held := fun k hk => .inl (h.held k hk)
  conn := fun id ct hn => by cases hn
  present := fun _ => ⟨by rw [h.old]; rfl, fun ct hn => by cases hn⟩
  acked := fun x hx => by cases hx
  clean := fun hp => by cases hp

theorem Inv.kept (h : Inv old category s) (hp : s.phase = .done) : s.Kept old where
  acked := fun id ct hn x hx => by
    obtain ⟨id', ct', hn', -, hx⟩ := h.acked x hx
    rw [hn] at hn'
    cases hn'
    exact hx
  matched := fun e incoming filter hc => by
    obtain ⟨ty, hi, -⟩ := h.types
    obtain ⟨-, -, q, hq, hl⟩ := hi.mem_candidates.mp hc
    obtain ⟨hn, x, hx, rfl⟩ := h.clean hp q _ hl
    exact ⟨hn, x, hx, hq⟩

/-- **A reused id**: nothing is lost and nothing inherited, if the new connection does not subscribe
in the middle of the drop. -/
theorem kept_notBetween (calculateHash : String → UInt64) (old : ConnId) (category : ConnType)
    (conns : Pool ConnType) (table : SubscriptionTable) (hs : Start old category conns table)
    (as : List Action)
    (h : Run.Meets (step calculateHash old category) (NotBetween old) { conns, table } as)
    (hdone : (as.foldl (step calculateHash old category) { conns, table }).phase = .done) :
    (as.foldl (step calculateHash old category) { conns, table }).Kept old :=
  (h.invariant (fun _ _ hi ha => hi.step ha) (inv_init hs)).kept hdone

/-! ## One connection -/

def sampleConns : Pool ConnType where
  pool := [some ⟨.Remote, 0⟩]
  activeIndexes := [0]

theorem sample_start : Start 0 .Remote sampleConns .empty where
  old := by decide
  inv := SubscriptionTable.inv_empty _
  held := fun k hk => absurd hk (SubscriptionTable.not_holds_empty k)

theorem kept_notBetween_after :
    let as := [.removeConnection, .establish .Remote, .removeSubscriptions, .subscribe sampleName 9]
    (as.foldl (step (fun _ => 0) 0 .Remote) { conns := sampleConns, table := .empty }).acked ≠ [] ∧
      (as.foldl (step (fun _ => 0) 0 .Remote) { conns := sampleConns, table := .empty }).Kept
        0 := by
  intro as
  exact ⟨by decide +kernel,
    kept_notBetween (fun _ => 0) 0 .Remote sampleConns .empty sample_start as
    (by decide +kernel) (by decide +kernel)⟩

/-- The new connection subscribes while its id is half dropped: the second half of the drop removes
the subscription it was acknowledged. -/
theorem subscribed_between : ¬ ∀ (calculateHash : String → UInt64) (old : ConnId)
    (category : ConnType) (conns : Pool ConnType) (table : SubscriptionTable),
    Start old category conns table → ∀ as : List Action,
      (as.foldl (step calculateHash old category) { conns, table }).phase = .done →
      (as.foldl (step calculateHash old category) { conns, table }).Kept old := by
  intro h
  have hk := (h (fun _ => 0) 0 .Remote sampleConns .empty sample_start
    [.removeConnection, .establish .Remote, .subscribe sampleName 9, .removeSubscriptions]
    (by decide +kernel)).acked 0 .Remote (by decide +kernel) (⟨1, 2, 3, some ⟨0, 5⟩⟩, 9)
    (by decide +kernel)
  revert hk
  decide +kernel

end Slim.DropRace
