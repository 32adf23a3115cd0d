import Slim.ChannelManager.Nonce
import Slim.Lib.Text

/-!
# A statement is spent once

A nonce is dropped when its statement has expired by the reading of the call that drops it. A call
that has read the clock before that, and takes the lock after it, does not find the nonce any more
and is accepted a second time (`not_spent_once`). In every run in which the calls take the lock in
the order of their readings this does not happen, across restarts too (`spent_once`).

The invariant `Inv` says where the nonce of an accepted statement is: in memory and in the store, or
its statement has expired by a reading that was used before. The second is what the order of the
readings rules out for a statement whose call is about to be accepted.
-/

namespace Slim.ChannelManager

open Table

/-! ## Keys -/

/-- The name of a channel without a NUL character. -/
def Plain (st : Statement) : Prop := '\x00' ∉ st.1.toList

instance (st : Statement) : Decidable (Plain st) := inferInstanceAs (Decidable (_ ∉ _))

theorem ConsumedNonce.nonceKey_inj {st st' : Statement} (h : Plain st) (h' : Plain st')
    (heq : nonceKey st = nonceKey st') : st = st' := by
  have hlist : st.1.toList ++ '\x00' :: st.2.toList = st'.1.toList ++ '\x00' :: st'.2.toList := by
    simpa [nonceKey] using congrArg String.toList heq
  have hchannel : st.1.toList = st'.1.toList := by
    rw [← Text.takeWhile_append_sep h st.2.toList, hlist, Text.takeWhile_append_sep h']
  have hnonce : '\x00' :: st.2.toList = '\x00' :: st'.2.toList := by
    rw [← Text.dropWhile_append_sep h st.2.toList, hlist, Text.dropWhile_append_sep h']
  exact Prod.ext (String.toList_injective hchannel)
    (String.toList_injective (List.cons_injective hnonce))

namespace SpendSystem

variable {notAfter : Statement → Nat} {s : SpendSystem} {i : Nat} {c : SpendCall} {st : Statement}

/-- A row of the nonces: the record of a statement with a plain channel name. -/
def IsRecord (notAfter : Statement → Nat) (e : ConsumedNonce) : Prop :=
  e = record notAfter e.id ∧ Plain e.id

theorem IsRecord.of_plain (h : Plain st) : IsRecord notAfter (record notAfter st) := ⟨rfl, h⟩

theorem IsRecord.eq_of_storeKey {e : ConsumedNonce} (he : IsRecord notAfter e) (h : Plain st)
    (hkey : (record notAfter st).storeKey = e.storeKey) : e = record notAfter st := by
  have hid : st = e.id := ConsumedNonce.nonceKey_inj h he.2 hkey
  rw [he.1, ← hid]

/-! ## Memory and store -/

/-- Where the nonces of these statements are, if `latest` is the latest reading that was used. -/
structure Kept (notAfter : Statement → Nat) (n : NonceStore) (latest : Nat) (sts : List Statement) :
    Prop where
  plain : ∀ st ∈ sts, Plain st
  memory : ∀ st ∈ sts, record notAfter st ∈ n.consumed ∨ notAfter st < latest
  disk : ∀ store, n.store = some store →
    ∀ st ∈ sts, record notAfter st ∈ store ∨ notAfter st < latest
  memoryRows : ∀ e ∈ n.consumed, IsRecord notAfter e
  diskRows : ∀ store, n.store = some store → ∀ e ∈ store, IsRecord notAfter e

variable {n : NonceStore} {latest : Nat} {sts : List Statement}

theorem le_dropped {now : Nat} {rows : List ConsumedNonce} : latest ≤ dropped latest now rows := by
  unfold dropped
  split <;> omega

theorem dropped_le {now bound : Nat} {rows : List ConsumedNonce} (h : latest ≤ bound)
    (hnow : now ≤ bound) : dropped latest now rows ≤ bound := by
  unfold dropped
  split <;> omega

theorem lt_dropped {now : Nat} {rows : List ConsumedNonce} {e : ConsumedNonce} (he : e ∈ rows)
    (hexp : e.notAfter < now) : e.notAfter < dropped latest now rows := by
  rw [dropped, if_pos (List.any_eq_true.mpr ⟨e, he, decide_eq_true hexp⟩)]
  omega

theorem mem_deleteNonces {expired : List ConsumedNonce} {store : Table ConsumedNonce.storeKey}
    {e : ConsumedNonce} : e ∈ NonceStore.deleteNonces expired store ↔
      e ∈ store ∧ ∀ x ∈ expired, e.storeKey ≠ x.storeKey :=
  mem_foldl_erase

section
variable (h : Kept notAfter n latest sts)
include h

theorem Kept.prune (now : Nat) (deleted : ConsumedNonce → Bool) :
    Kept notAfter (n.prune now deleted) (dropped latest now n.consumed.rows) sts := by
  refine ⟨h.plain, fun st hst => ?_, fun store hstore st hst => ?_, fun e he => ?_,
    fun store hstore e he => ?_⟩
  · rcases h.memory st hst with hmem | hold
    · by_cases hnow : now ≤ notAfter st
      · exact .inl (mem_filter.mpr ⟨hmem, decide_eq_true hnow⟩)
      · exact .inr (lt_dropped hmem (Nat.lt_of_not_le hnow))
    · exact .inr (hold.trans_le le_dropped)
  · obtain ⟨old, hold, rfl⟩ := Option.map_eq_some_iff.mp hstore
    rcases h.disk old hold st hst with hmem | hlt
    · by_cases hgone : ∃ x ∈ n.consumed.rows.filter fun e => e.notAfter < now && deleted e,
          (record notAfter st).storeKey = x.storeKey
      · -- a record that was deleted is one of a statement that has expired
        obtain ⟨x, hx, hkey⟩ := hgone
        obtain ⟨hx, hexp⟩ := List.mem_filter.mp hx
        obtain rfl := (h.memoryRows x hx).eq_of_storeKey (h.plain st hst) hkey
        exact .inr (lt_dropped hx (of_decide_eq_true (Bool.and_eq_true_iff.mp hexp).1))
      · exact .inl (mem_deleteNonces.mpr ⟨hmem, fun x hx hkey => hgone ⟨x, hx, hkey⟩⟩)
    · exact .inr (hlt.trans_le le_dropped)
  · exact h.memoryRows e (mem_filter.mp he).1
  · obtain ⟨old, hold, rfl⟩ := Option.map_eq_some_iff.mp hstore
    exact h.diskRows old hold e (mem_deleteNonces.mp he).1

theorem Kept.putNonce (hst : Plain st) {ok : Bool} {n' : NonceStore}
    (hput : n.putNonce (record notAfter st) ok = some n') :
    Kept notAfter n' latest sts ∧ ∀ store, n'.store = some store → record notAfter st ∈ store := by
  unfold NonceStore.putNonce at hput
  split at hput
  · next hnone =>
    cases hput
    exact ⟨h, fun store hstore => by rw [hnone] at hstore; cases hstore⟩
  · next old hold =>
    split at hput
    · cases hput
      refine ⟨⟨h.plain, h.memory, fun store hstore st' hst' => ?_, h.memoryRows,
        fun store hstore e he => ?_⟩, fun store hstore => ?_⟩
      · cases hstore
        refine (h.disk old hold st' hst').imp_left fun hmem => mem_put.mpr ?_
        by_cases hkey : (record notAfter st').storeKey = (record notAfter st).storeKey
        · exact .inl ((IsRecord.of_plain (h.plain st' hst')).eq_of_storeKey hst hkey.symm)
        · exact .inr ⟨hmem, hkey⟩
      · cases hstore
        rcases mem_put.mp he with rfl | ⟨hmem, -⟩
        · exact .of_plain hst
        · exact h.diskRows old hold e hmem
      · cases hstore
        exact mem_put.mpr (.inl rfl)
    · cases hput

theorem Kept.insert (hst : Plain st)
    (hdisk : ∀ store, n.store = some store → record notAfter st ∈ store) :
    Kept notAfter (n.insert (record notAfter st)) latest (sts ++ [st]) := by
  have hmemory : ∀ st' ∈ sts, record notAfter st' ∈ n.consumed.put (record notAfter st) ∨
      notAfter st' < latest := by
    intro st' hst'
    refine (h.memory st' hst').imp_left fun hmem => mem_put.mpr ?_
    by_cases heq : st' = st
    · exact .inl (heq ▸ rfl)
    · exact .inr ⟨hmem, heq⟩
  refine ⟨fun st' hst' => ?_, fun st' hst' => ?_, fun store hstore st' hst' => ?_, fun e he => ?_,
    h.diskRows⟩
  · rcases List.mem_append.mp hst' with hst' | hst'
    · exact h.plain st' hst'
    · rw [List.mem_singleton.mp hst']
      exact hst
  · rcases List.mem_append.mp hst' with hst' | hst'
    · exact hmemory st' hst'
    · rw [List.mem_singleton.mp hst']
      exact .inl (mem_put.mpr (.inl rfl))
  · rcases List.mem_append.mp hst' with hst' | hst'
    · exact h.disk store hstore st' hst'
    · rw [List.mem_singleton.mp hst']
      exact .inl (hdisk store hstore)
  · rcases mem_put.mp he with rfl | ⟨hmem, -⟩
    · exact .of_plain hst
    · exact h.memoryRows e hmem

theorem Kept.load {store : Table ConsumedNonce.storeKey}
    (hstore : n.store = some store) (now : Nat) :
    Kept notAfter (.load store now) (dropped latest now store.rows) sts := by
  have hids : ((store.rows.filter fun e => now ≤ e.notAfter).map ConsumedNonce.id).Nodup := by
    refine List.Nodup.of_map ConsumedNonce.nonceKey ?_
    rw [List.map_map]
    exact (List.filter_sublist.map _).nodup store.nodup
  have hrow : ∀ {e}, e ∈ (NonceStore.load store now).consumed ↔ e ∈ store ∧ now ≤ e.notAfter := by
    intro e
    show e ∈ List.foldl put ∅ _ ↔ _
    rw [mem_foldl_put hids]
    simp [mem_def]
  refine ⟨h.plain, fun st hst => ?_, fun store' hstore' st hst => ?_, fun e he => ?_,
    fun store' hstore' e he => ?_⟩
  · rcases h.disk store hstore st hst with hmem | hold
    · by_cases hnow : now ≤ notAfter st
      · exact .inl (hrow.mpr ⟨hmem, hnow⟩)
      · exact .inr (lt_dropped hmem (Nat.lt_of_not_le hnow))
    · exact .inr (hold.trans_le le_dropped)
  · cases hstore'
    rcases h.disk store hstore st hst with hmem | hold
    · by_cases hnow : notAfter st < now
      · exact .inr (lt_dropped hmem hnow)
      · refine .inl (mem_deleteNonces.mpr ⟨hmem, fun x hx hkey => ?_⟩)
        obtain ⟨hx, hexp⟩ := List.mem_filter.mp hx
        obtain rfl := (h.diskRows store hstore x hx).eq_of_storeKey (h.plain st hst) hkey
        exact hnow (of_decide_eq_true hexp)
    · exact .inr (hold.trans_le le_dropped)
  · exact h.diskRows store hstore e (hrow.mp he).1
  · cases hstore'
    exact h.diskRows store hstore e (mem_deleteNonces.mp he).1

end

theorem kept_init (clock : Nat) (persistent : Bool) :
    Kept notAfter (init clock persistent).nonces 0 [] := by
  refine ⟨nofun, nofun, nofun, fun e he => ?_, fun store hstore e he => ?_⟩
  · cases persistent <;> exact absurd he (not_mem_empty e)
  · cases persistent with
    | false => cases hstore
    | true =>
      cases hstore
      exact absurd he (not_mem_empty e)

/-! ## The invariant -/

/-- What is known of a call; `ordered` stands for a run in which the calls take the lock in
order. -/
def CallOk (ordered : Prop) (notAfter : Statement → Nat) (s : SpendSystem) (i : Nat)
    (c : SpendCall) : Prop :=
  Plain c.statement ∧
    match c.phase with
    | .read now => now ≤ notAfter c.statement
    | .pruned _ => s.holder = some i ∧ (ordered → s.latest ≤ notAfter c.statement)
    | .stored => s.holder = some i ∧ (ordered → c.statement ∉ s.accepted) ∧
        ∀ store, s.nonces.store = some store → record notAfter c.statement ∈ store
    | _ => True

structure Inv (ordered : Prop) (notAfter : Statement → Nat) (s : SpendSystem) : Prop where
  nodup : ordered → s.accepted.Nodup
  kept : Kept notAfter s.nonces s.latest s.accepted
  calls : ∀ i c, s.calls[i]? = some c → CallOk ordered notAfter s i c

variable {ordered : Prop}

theorem inv_init (clock : Nat) (persistent : Bool) : Inv ordered notAfter (init clock persistent) :=
  ⟨fun _ => .nil, kept_init clock persistent, nofun⟩

theorem getElem?_setPhase {phase : Phase} {j : Nat} {d : SpendCall}
    (h : (s.setPhase i c phase).calls[j]? = some d) :
    (j = i ∧ d = { c with phase }) ∨ (j ≠ i ∧ s.calls[j]? = some d) := by
  have hset : (s.calls.set i { c with phase })[j]? = some d := h
  rw [List.getElem?_set] at hset
  split at hset
  · next hij =>
    split at hset
    · exact .inl ⟨hij.symm, (Option.some.inj hset).symm⟩
    · cases hset
  · next hij => exact .inr ⟨fun h => hij h.symm, hset⟩

section
variable (h : Inv ordered notAfter s)
include h

/-- The other calls, if the lock is free or with the call that moves. -/
theorem Inv.others (hholder : s.holder = none ∨ s.holder = some i) {j : Nat}
    {d : SpendCall} (hj : j ≠ i) (hd : s.calls[j]? = some d) (s' : SpendSystem) :
    CallOk ordered notAfter s' j d := by
  have hok := h.calls j d hd
  have hfree : s.holder ≠ some j := by
    rcases hholder with hnone | hsome
    · rw [hnone]
      nofun
    · rw [hsome]
      exact fun he => hj (Option.some.inj he).symm
  refine ⟨hok.1, ?_⟩
  have hphase := hok.2
  cases hp : d.phase with
  | read now =>
    rw [hp] at hphase
    exact hphase
  | pruned now =>
    rw [hp] at hphase
    exact absurd hphase.1 hfree
  | stored =>
    rw [hp] at hphase
    exact absurd hphase.1 hfree
  | _ => trivial

theorem Inv.moved (hholder : s.holder = none ∨ s.holder = some i) {phase : Phase} {s' : SpendSystem}
    (hcalls : s'.calls = (s.setPhase i c phase).calls)
    (hok : CallOk ordered notAfter s' i { c with phase })
    (j : Nat) (d : SpendCall) (hd : s'.calls[j]? = some d) : CallOk ordered notAfter s' j d := by
  rw [hcalls] at hd
  rcases getElem?_setPhase hd with ⟨rfl, rfl⟩ | ⟨hj, hd⟩
  · exact hok
  · exact h.others hholder hj hd _

theorem Inv.tick (clock : Nat) : Inv ordered notAfter { s with clock } := { h with }

theorem Inv.call (hst : Plain st) :
    Inv ordered notAfter { s with calls := s.calls ++ [⟨st, .started⟩] } := by
  refine ⟨h.nodup, h.kept, fun i c hc => ?_⟩
  by_cases hi : i < s.calls.length
  · rw [List.getElem?_append_left hi] at hc
    exact h.calls i c hc
  · rw [List.getElem?_append_right (by omega)] at hc
    rw [List.mem_singleton.mp (List.mem_of_getElem? hc)]
    exact ⟨hst, trivial⟩

theorem Inv.readClock (hc : s.calls[i]? = some c) :
    Inv ordered notAfter (s.readClock notAfter i c) := by
  have hst := (h.calls i c hc).1
  unfold SpendSystem.readClock
  split
  · refine ⟨h.nodup, h.kept, fun j d hd => ?_⟩
    rcases getElem?_setPhase hd with ⟨rfl, rfl⟩ | ⟨-, hd⟩
    · exact ⟨hst, trivial⟩
    · exact h.calls j d hd
  · next hnow =>
    refine ⟨h.nodup, h.kept, fun j d hd => ?_⟩
    rcases getElem?_setPhase hd with ⟨rfl, rfl⟩ | ⟨-, hd⟩
    · exact ⟨hst, Nat.le_of_not_lt hnow⟩
    · exact h.calls j d hd

theorem Inv.lock (hc : s.calls[i]? = some c) (hfree : s.holder = none)
    {now : Nat} (hread : c.phase = .read now) (horder : ordered → s.latest ≤ now)
    (deleted : ConsumedNonce → Bool) : Inv ordered notAfter (s.lock i c now deleted) := by
  obtain ⟨hst, hnow⟩ := h.calls i c hc
  rw [hread] at hnow
  exact ⟨h.nodup, h.kept.prune now deleted,
    h.moved (.inl hfree) rfl ⟨hst, rfl, fun ho => dropped_le ((horder ho).trans hnow) hnow⟩⟩

theorem Inv.not_mem_accepted (hlatest : s.latest ≤ notAfter st)
    (hnew : s.nonces.contains st = false) : st ∉ s.accepted := by
  intro hst
  rcases h.kept.memory st hst with hmem | hold
  · have hget : s.nonces.consumed.get? st = some (record notAfter st) :=
      Table.get?_of_mem hmem
    rw [NonceStore.contains, hget] at hnew
    cases hnew
  · omega

theorem Inv.store (hc : s.calls[i]? = some c) {now : Nat}
    (hpruned : c.phase = .pruned now) (ok : Bool) :
    Inv ordered notAfter (s.store notAfter i c ok) := by
  obtain ⟨hst, hphase⟩ := h.calls i c hc
  rw [hpruned] at hphase
  obtain ⟨hholder, hlatest⟩ := hphase
  unfold SpendSystem.store
  split
  · exact ⟨h.nodup, h.kept, h.moved (.inr hholder) rfl ⟨hst, trivial⟩⟩
  · next hnew =>
    split
    · exact ⟨h.nodup, h.kept, h.moved (.inr hholder) rfl ⟨hst, trivial⟩⟩
    · next nonces hput =>
      obtain ⟨hkept, hdisk⟩ := h.kept.putNonce hst hput
      have hnot : ordered → c.statement ∉ s.accepted := fun ho =>
        h.not_mem_accepted (hlatest ho) (by simpa using hnew)
      exact ⟨h.nodup, hkept, h.moved (.inr hholder) rfl ⟨hst, hholder, hnot, hdisk⟩⟩

theorem Inv.insert (hc : s.calls[i]? = some c) (hstored : c.phase = .stored) :
    Inv ordered notAfter (s.insert notAfter i c) := by
  obtain ⟨hst, hphase⟩ := h.calls i c hc
  rw [hstored] at hphase
  obtain ⟨hholder, hnew, hdisk⟩ := hphase
  refine ⟨fun ho => (h.nodup ho).append (List.nodup_singleton _) ?_, h.kept.insert hst hdisk,
    h.moved (.inr hholder) rfl ⟨hst, trivial⟩⟩
  rw [List.disjoint_singleton]
  exact hnew ho

theorem Inv.restart (hstore : s.nonces.store.isSome) : Inv ordered notAfter s.restart := by
  obtain ⟨store, hstore⟩ := Option.isSome_iff_exists.mp hstore
  refine ⟨h.nodup, ?_, nofun⟩
  have hload := h.kept.load hstore s.clock
  unfold SpendSystem.restart
  simp only [hstore, Option.map_some, Option.getD_some]
  exact hload

end

/-! ## Runs -/

/-- The reading of a call that waits for the lock. -/
def SpendCall.reading (c : SpendCall) : Option Nat :=
  match c.phase with
  | .read now => some now
  | _ => none

/-- Channel names have no NUL character, and a process that starts again has a store. -/
def Regular (s : SpendSystem) : SpendAction → Prop
  | .call st => Plain st
  | .restart => s.nonces.store.isSome
  | _ => True

/-- Besides, a call takes the lock only if no nonce was dropped by a later reading of the clock than
its own. -/
def InOrder (s : SpendSystem) : SpendAction → Prop
  | .lock i _ => ((s.calls[i]?.bind SpendCall.reading).all fun now => s.latest ≤ now) = true
  | a => Regular s a

instance (s : SpendSystem) : (a : SpendAction) → Decidable (Regular s a)
  | .call st => inferInstanceAs (Decidable (Plain st))
  | .restart => inferInstanceAs (Decidable (_ = true))
  | .tick _ | .readClock _ | .lock _ _ | .record _ _ | .insert _ => .isTrue trivial

instance (s : SpendSystem) : (a : SpendAction) → Decidable (InOrder s a)
  | .lock _ _ => inferInstanceAs (Decidable (_ = true))
  | .call st => inferInstanceAs (Decidable (Regular s (.call st)))
  | .restart => inferInstanceAs (Decidable (Regular s .restart))
  | .tick _ | .readClock _ | .record _ _ | .insert _ => .isTrue trivial

theorem InOrder.regular {a : SpendAction} (h : InOrder s a) : Regular s a := by
  cases a with
  | lock i deleted => trivial
  | _ => exact h

theorem Inv.step (h : Inv ordered notAfter s) {a : SpendAction} (ha : Regular s a)
    (horder : ordered → InOrder s a) : Inv ordered notAfter (s.step notAfter a) := by
  cases a with
  | tick seconds => exact h.tick _
  | call st => exact h.call ha
  | readClock i =>
    simp only [SpendSystem.step]
    split
    · next c hc =>
      split
      · exact h.readClock hc
      · exact h
    · exact h
  | lock i deleted =>
    simp only [SpendSystem.step]
    split
    · next c hc hfree =>
      split
      · next now hread =>
        have hlatest : ordered → s.latest ≤ now := fun ho => by
          simpa [InOrder, hc, SpendCall.reading, hread] using horder ho
        exact h.lock hc hfree hread hlatest deleted
      · exact h
    · exact h
  | record i ok =>
    simp only [SpendSystem.step]
    split
    · next c hc =>
      split
      · next now hpruned => exact h.store hc hpruned ok
      · exact h
    · exact h
  | insert i =>
    simp only [SpendSystem.step]
    split
    · next c hc =>
      split
      · next hstored => exact h.insert hc hstored
      · exact h
    · exact h
  | restart => exact h.restart ha

/-- In every run in which the calls take the lock in the order of their clock readings, each
statement is accepted at most once. -/
theorem spent_once (notAfter : Statement → Nat) (clock : Nat) (persistent : Bool)
    (actions : List SpendAction)
    (h : Run.Meets (step notAfter) InOrder (init clock persistent) actions) :
    (actions.foldl (step notAfter) (init clock persistent)).accepted.Nodup :=
  (h.invariant (I := Inv True notAfter) (fun _ _ hinv ha => hinv.step ha.regular fun _ => ha)
    (inv_init clock persistent)).nodup trivial

/-- What was accepted and could still be sent is in memory, and in the store if there is one,
whatever the order of the calls. -/
theorem spent_recorded (notAfter : Statement → Nat) (clock : Nat) (persistent : Bool)
    (actions : List SpendAction)
    (h : Run.Meets (step notAfter) Regular (init clock persistent) actions) :
    let s := actions.foldl (step notAfter) (init clock persistent)
    ∀ st ∈ s.accepted, s.latest ≤ notAfter st → record notAfter st ∈ s.nonces.consumed ∧
      ∀ store, s.nonces.store = some store → record notAfter st ∈ store := by
  intro s st hst hvalid
  have hkept := (h.invariant (I := Inv False notAfter) (fun _ _ hinv ha => hinv.step ha False.elim)
    (inv_init clock persistent)).kept
  exact ⟨(hkept.memory st hst).resolve_right hvalid.not_gt,
    fun store hstore => (hkept.disk store hstore st hst).resolve_right hvalid.not_gt⟩

/-- Two calls with one grant that is valid until 10, and one with another grant: the first call is
accepted, and the nonce is dropped by the third. -/
def sampleCalls : List SpendAction :=
  [.call ("a/b/c", "n"), .call ("a/b/c", "n"), .call ("a/b/c", "m"), .readClock 0, .readClock 1,
    .lock 0 fun _ => true, .record 0 true, .insert 0, .tick 1, .readClock 2]

def thirdCall : List SpendAction := [.lock 2 fun _ => true, .record 2 true, .insert 2]

def secondCall : List SpendAction := [.lock 1 fun _ => true, .record 1 true, .insert 1]

def sampleNotAfter (st : Statement) : Nat := if st.2 = "n" then 10 else 20

/-- The second call takes the lock before the third, and the process starts again in between. -/
theorem spent_once_sample :
    ((sampleCalls ++ secondCall ++ thirdCall ++ [SpendAction.restart]).foldl (step sampleNotAfter)
      (init 10 true)).accepted.Nodup :=
  spent_once sampleNotAfter 10 true _ (by decide +kernel)

theorem spent_recorded_sample : record sampleNotAfter ("a/b/c", "n") ∈
    ((sampleCalls ++ secondCall).foldl (step sampleNotAfter) (init 10 true)).nonces.consumed :=
  (spent_recorded sampleNotAfter 10 true _ (by decide +kernel) _ (by decide +kernel)
    (by decide +kernel)).1

/-- The second call takes the lock after the third. -/
theorem not_spent_once :
    ¬ ∀ (notAfter : Statement → Nat) (clock : Nat) (persistent : Bool) (actions : List SpendAction),
        Run.Meets (step notAfter) Regular (init clock persistent) actions →
        (actions.foldl (step notAfter) (init clock persistent)).accepted.Nodup := by
  intro h
  exact absurd
    (h sampleNotAfter 10 true (sampleCalls ++ thirdCall ++ secondCall) (by decide +kernel))
    (by decide +kernel)

end SpendSystem

end Slim.ChannelManager
