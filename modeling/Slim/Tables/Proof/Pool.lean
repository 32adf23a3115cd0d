import Mathlib.Data.List.Rotate
import Slim.Lib.Run
import Slim.Tables.Pool

/-!
# The pool as a finite map

What each operation does to `get`. An insertion takes an id that was free (`insert_spec`). The live
slots are enumerated exactly, after every sequence of operations (`run_isMap`).
-/

namespace Slim.Pool

variable {α : Type} {p : Pool α} {id : ConnId} {i : Nat} {v : α} {p' : Pool α}

theorem get_eq_none_iff : p.get id = none ↔ ∀ e, p.pool[id.toNat]? ≠ some (some e) := by
  unfold get
  cases h : p.pool[id.toNat]? with
  | none => simp
  | some o => cases o <;> simp

theorem popFree_some {pool : List (Option (PoolEntry α))} {free rest : List Nat}
    (h : popFree pool free = (some i, rest)) : pool[i]? = some none := by
  induction free with
  | nil => cases h
  | cons j free ih =>
    unfold popFree at h
    split at h
    · cases h
      assumption
    · exact ih h

theorem toNat_slot (h : i < 2 ^ 64) : (UInt64.ofNat i).toNat = i := by
  exact Nat.mod_eq_of_lt h

/-- An insertion takes slot `i`, which was not live: the next free one, or a new one. -/
structure Inserts (p p' : Pool α) (v : α) (i : Nat) : Prop where
  slot : (popFree p.pool p.freeSlots).1 = some i ∨ i = p.pool.length
  lt : i < 2 ^ 64
  dead : p.pool[i]?.join = none
  active : p'.activeIndexes = p.activeIndexes ++ [i]
  free : p'.freeSlots = (popFree p.pool p.freeSlots).2
  length : p.pool.length ≤ p'.pool.length
  pool : ∀ j : Nat, p'.pool[j]?.join =
    if j = i then some (PoolEntry.mk v p.activeIndexes.length) else p.pool[j]?.join

theorem inserts_of_insert (h : p.insert v = some (id, p')) :
    ∃ i, id = UInt64.ofNat i ∧ Inserts p p' v i := by
  unfold insert at h
  rcases hpop : popFree p.pool p.freeSlots with ⟨slot, free⟩
  simp only [hpop] at h
  cases slot with
  | some i =>
    cases h
    have hfree := popFree_some hpop
    have hlt : i < p.pool.length := (List.getElem?_eq_some_iff.mp hfree).1
    refine ⟨i, rfl, .inl (by rw [hpop]), Nat.lt_of_lt_of_le hlt p.size_le, by rw [hfree]; rfl, rfl,
      by rw [hpop], by simp, fun j => ?_⟩
    rw [List.getElem?_set]
    split <;> rename_i hj
    · simp [← hj]
    · rw [if_neg fun heq => hj heq.symm]
  | none =>
    by_cases hlt : p.pool.length < 2 ^ 64
    · simp only [dif_pos hlt] at h
      cases h
      refine ⟨_, rfl, .inr rfl, hlt, by simp, rfl, by rw [hpop], by simp, fun j => ?_⟩
      rw [List.getElem?_append]
      split <;> rename_i hj
      · rw [if_neg (by omega)]
      · split <;> rename_i heq
        · simp [heq]
        · rw [List.getElem?_eq_none (by simp; omega), List.getElem?_eq_none (by omega)]
    · simp only [dif_neg hlt] at h
      cases h

/-- **Insertion**: at an id that was free. -/
theorem insert_spec (h : p.insert v = some (id, p')) :
    p.get id = none ∧ ∀ id', p'.get id' = if id' = id then some v else p.get id' := by
  obtain ⟨i, rfl, hi⟩ := inserts_of_insert h
  unfold get
  refine ⟨by rw [toNat_slot hi.lt, hi.dead]; rfl, fun id' => ?_⟩
  rw [hi.pool]
  split <;> rename_i heq
  · rw [← heq, UInt64.ofNat_toNat, if_pos rfl]
    rfl
  · rw [if_neg]
    rintro rfl
    exact heq (toNat_slot hi.lt)

/-- An insertion takes the next free slot, or a new one. -/
theorem insert_id (h : p.insert v = some (id, p')) :
    (p.nextFree = some id ∨ id.toNat = p.pool.length) ∧ p.pool.length ≤ p'.pool.length := by
  obtain ⟨i, rfl, hi⟩ := inserts_of_insert h
  refine ⟨hi.slot.imp (fun hslot => ?_) fun hslot => ?_, hi.length⟩
  · rw [nextFree, hslot]
    rfl
  · rw [toNat_slot hi.lt, hslot]

theorem length_remove (id : ConnId) : (p.remove id).2.pool.length = p.pool.length := by
  unfold remove
  dsimp only
  split
  · rw [List.length_set]
    split
    · exact List.length_modify ..
    · rfl
  · rfl

theorem lt_of_get (h : p.get id = some v) : id.toNat < p.pool.length := by
  by_contra hge
  rw [get, List.getElem?_eq_none (by omega)] at h
  cases h

theorem getElem?_grow (pool : List (Option (PoolEntry α))) (n i : Nat) :
    (grow pool n)[i]?.join = pool[i]?.join := by
  unfold grow
  rcases Nat.lt_or_ge i pool.length with h | h
  · rw [List.getElem?_append_left h]
  · rw [List.getElem?_append_right h, List.getElem?_eq_none h, List.getElem?_replicate]
    split <;> rfl

theorem length_grow (pool : List (Option (PoolEntry α))) (i : Nat) :
    i < (grow pool (i + 1)).length ∧ pool.length ≤ (grow pool (i + 1)).length := by
  simp only [grow, List.length_append, List.length_replicate]
  omega

theorem get_insertAt (v : α) (id id' : ConnId) :
    (p.insertAt v id).get id' = if id' = id then some v else p.get id' := by
  have hlen := (length_grow p.pool id.toNat).1
  have hset : ∀ e : PoolEntry α, e.value = v →
      ((grow p.pool (id.toNat + 1)).set id.toNat (some e))[id'.toNat]?.join.map PoolEntry.value =
        if id' = id then some v else p.get id' := by
    intro e he
    split
    · rename_i heq
      rw [heq, List.getElem?_set_self hlen]
      exact congrArg some he
    · rename_i hne
      rw [List.getElem?_set_ne fun h => hne (UInt64.toNat.inj h.symm), getElem?_grow]
      rfl
  unfold insertAt
  dsimp only
  split
  · exact hset _ rfl
  · exact hset _ rfl

theorem get_remove (id id' : ConnId) :
    (p.remove id).2.get id' = if id' = id then none else p.get id' := by
  unfold remove
  dsimp only
  split
  · have hmod : ∀ pool : List (Option (PoolEntry α)),
        (∀ i : Nat, pool[i]?.join.map PoolEntry.value = p.pool[i]?.join.map PoolEntry.value) →
        (pool.set id.toNat none)[id'.toNat]?.join.map PoolEntry.value =
          if id' = id then none else p.get id' := by
      intro pool hpool
      split
      · rename_i heq
        rw [heq, List.getElem?_set]
        split <;> rename_i h
        · split <;> rfl
        · exact absurd rfl h
      · rename_i hne
        rw [List.getElem?_set_ne fun h => hne (UInt64.toNat.inj h.symm)]
        exact hpool _
    refine hmod _ fun i => ?_
    split
    · rw [List.getElem?_modify]
      split
      · cases p.pool[i]? with
        | none => rfl
        | some o => cases o <;> rfl
      · simp
    · rfl
  · rename_i hnone
    split
    · rename_i heq
      rw [heq]
      exact get_eq_none_iff.mpr hnone
    · rfl

theorem get_update (id id' : ConnId) (f : α → α) :
    (p.update id f).get id' = if id' = id then (p.get id).map f else p.get id' := by
  unfold update get
  rw [List.getElem?_modify]
  by_cases h : id' = id
  · subst h
    simp only [if_true]
    cases p.pool[id'.toNat]? with
    | none => rfl
    | some o => cases o <;> rfl
  · have hne : id.toNat ≠ id'.toNat := fun heq => h (UInt64.toNat.inj heq.symm)
    simp [h, hne]

@[simp] theorem get_empty (id : ConnId) : ({} : Pool α).get id = none := by simp [get]

/-! ## The list of live slots -/

/-- The place in `activeIndexes` that a live slot knows. -/
def place (p : Pool α) (i : Nat) : Option Nat := p.pool[i]?.join.map PoolEntry.activePos

/-- The live slots are listed once each, at the places they know. -/
structure Dense (p : Pool α) : Prop where
  active : ∀ pos i, p.activeIndexes[pos]? = some i ↔ p.place i = some pos
  free : ∀ i ∈ p.freeSlots, i < p.pool.length

theorem mem_of_popFree {pool : List (Option (PoolEntry α))} {free : List Nat}
    (h : i ∈ (popFree pool free).2) : i ∈ free := by
  induction free with
  | nil => exact h
  | cons j free ih =>
    unfold popFree at h
    split at h
    · exact List.mem_cons_of_mem _ h
    · exact List.mem_cons_of_mem _ (ih h)

/-- A slot that was not live joins at the end of the list. -/
theorem Dense.join (h : Dense p) (hact : p'.activeIndexes = p.activeIndexes ++ [i])
    (hold : p.place i = none)
    (hplace : ∀ j, p'.place j = if j = i then some p.activeIndexes.length else p.place j)
    (hfree : ∀ j ∈ p'.freeSlots, j < p'.pool.length) : Dense p' := by
  refine ⟨fun pos j => ?_, hfree⟩
  rw [hact, hplace, List.getElem?_append]
  have hat := h.active pos j
  rw [List.getElem?_singleton]
  grind

theorem place_set {pool : List (Option (PoolEntry α))} {e : Option (PoolEntry α)}
    (hi : i < pool.length) (hpool : p.pool = pool.set i e) (j : Nat) :
    p.place j =
      if j = i then e.map PoolEntry.activePos else pool[j]?.join.map PoolEntry.activePos := by
  rw [place, hpool, List.getElem?_set]
  split <;> rename_i h
  · simp [← h]
  · rw [if_neg fun hj => h hj.symm]

theorem Dense.insert (h : Dense p) (hins : p.insert v = some (id, p')) : Dense p' := by
  obtain ⟨i, -, hi⟩ := inserts_of_insert hins
  refine h.join hi.active (by rw [place, hi.dead]; rfl) (fun j => ?_) fun j hj => ?_
  · unfold place
    rw [hi.pool]
    split <;> rfl
  · rw [hi.free] at hj
    exact Nat.lt_of_lt_of_le (h.free j (mem_of_popFree hj)) hi.length

theorem Dense.insertAt (h : Dense p) (v : α) (id : ConnId) : Dense (p.insertAt v id) := by
  have hlen := length_grow p.pool id.toNat
  have hfree : ∀ j ∈ p.freeSlots, ∀ e : Option (PoolEntry α),
      j < ((grow p.pool (id.toNat + 1)).set id.toNat e).length := by
    intro j hj e
    rw [List.length_set]
    exact Nat.lt_of_lt_of_le (h.free j hj) hlen.2
  have hgrow := getElem?_grow p.pool (id.toNat + 1) id.toNat
  unfold Pool.insertAt
  dsimp only
  split
  · -- the slot was live and keeps its place
    rename_i entry hentry
    refine ⟨fun pos j => ?_, fun j hj => hfree j hj _⟩
    rw [place_set hlen.1 rfl, getElem?_grow]
    refine (h.active pos j).trans ?_
    split
    · rename_i heq
      rw [heq, place, ← hgrow, hentry]
      rfl
    · rfl
  · rename_i hdead
    refine h.join rfl ?_ (fun j => ?_) fun j hj => hfree j hj _
    · rw [place, ← hgrow]
      cases hslot : (grow p.pool (id.toNat + 1))[id.toNat]? with
      | none => rfl
      | some o =>
        cases o with
        | none => rfl
        | some e => exact absurd hslot (hdead e)
    · rw [place_set hlen.1 rfl, getElem?_grow]
      rfl

/-- The slot leaves the list, and the last one takes its place. -/
theorem Dense.leave (h : Dense p) {pos last : Nat} (hi : p.place i = some pos)
    (hlast : p.activeIndexes[p.activeIndexes.length - 1]? = some last)
    (hact : p'.activeIndexes = Vec.swapRemove p.activeIndexes pos)
    (hplace : ∀ j, p'.place j =
      if j = i then none
      else if j = last ∧ pos < p.activeIndexes.length - 1 then some pos else p.place j)
    (hfree : ∀ j ∈ p'.freeSlots, j < p'.pool.length) : Dense p' := by
  have hlt : pos < p.activeIndexes.length :=
    (List.getElem?_eq_some_iff.mp ((h.active _ _).mpr hi)).1
  refine ⟨fun q j => ?_, hfree⟩
  rw [hact, hplace, Vec.getElem?_swapRemove hlt]
  -- what the list says of the places that are involved: `q`, the free one and the last one
  have hl := (h.active _ _).mp hlast
  have hq := h.active q j
  have hqi := h.active q i
  have hql := h.active q last
  have hj := h.active pos j
  have hjl := h.active (p.activeIndexes.length - 1) j
  have hqlt (hj : p.activeIndexes[q]? = some j) := (List.getElem?_eq_some_iff.mp hj).1
  grind

theorem place_modify (p : Pool α) (i pos j : Nat) :
    (p.pool.modify i (Option.map fun e => { e with activePos := pos }))[j]?.join.map
        PoolEntry.activePos =
      if j = i then (p.place j).map fun _ => pos else p.place j := by
  unfold place
  rw [List.getElem?_modify]
  split <;> rename_i h
  · rw [if_pos h.symm]
    rcases p.pool[j]? with _ | _ | e <;> rfl
  · rw [if_neg fun hj => h hj.symm]
    rcases p.pool[j]? with _ | _ | e <;> rfl

theorem Dense.remove (h : Dense p) (id : ConnId) : Dense (p.remove id).2 := by
  unfold Pool.remove
  dsimp only
  split
  · rename_i entry hentry
    have hpos : p.place id.toNat = some entry.activePos := by rw [place, hentry]; rfl
    have hlt := (List.getElem?_eq_some_iff.mp ((h.active _ _).mpr hpos)).1
    have hlen := (List.getElem?_eq_some_iff.mp hentry).1
    have hlast := List.getElem?_eq_getElem (Nat.sub_one_lt_of_lt hlt)
    have hl := (h.active _ _).mp hlast
    refine h.leave hpos hlast rfl (fun j => ?_) fun j hj => ?_
    · rw [place_set (by split <;> simpa using hlen) rfl, Vec.getElem?_swapRemove hlt, if_pos rfl,
        hlast]
      split
      · rfl
      · by_cases hend : entry.activePos < p.activeIndexes.length - 1
        · simp only [hend, and_true, if_true]
          rw [place_modify]
          split
          · rename_i heq
            rw [heq, hl]
            rfl
          · rfl
        · simp only [hend, and_false, if_false]
          rfl
    · have hj : j < p.pool.length := by
        rcases List.mem_cons.mp hj with rfl | hj
        · exact hlen
        · exact h.free j hj
      dsimp only
      split <;> simpa using hj
  · exact h

/-! ## Runs -/

inductive Action (α : Type) where
  | insert (v : α)
  | insertAt (v : α) (id : ConnId) (hid : id.toNat < 2 ^ 64 - 1)
  | remove (id : ConnId)

/-- An operation, with the map of the values that were stored last. -/
def step (s : Pool α × (ConnId → Option α)) : Action α → Pool α × (ConnId → Option α)
  | .insert v =>
    match s.1.insert v with
    | some (id, p) => (p, Function.update s.2 id (some v))
    | none => s
  | .insertAt v id _ => (s.1.insertAt v id, Function.update s.2 id (some v))
  | .remove id => ((s.1.remove id).2, Function.update s.2 id none)

/-- What `k` calls of `nextId` return. -/
def nextIds (p : Pool α) : Nat → List (Option ConnId)
  | 0 => []
  | k + 1 => p.nextId.1 :: p.nextId.2.nextIds k

/-- The pool is the finite map `m`, and enumerates it. -/
structure IsMap (p : Pool α) (m : ConnId → Option α) : Prop where
  get_eq : ∀ id, p.get id = m id
  insert_some : ∀ v, p.pool.length < 2 ^ 64 → (p.insert v).isSome
  insert_free : ∀ v id p', p.insert v = some (id, p') → m id = none
  enumerates : ∃ l, p.iterWithIds = some l ∧ (l.map Prod.fst).Nodup ∧ l.length = p.len ∧
    ∀ id v, (id, v) ∈ l ↔ m id = some v
  /-- Every back-pointer is right. -/
  backPointer : ∀ i pos, p.place i = some pos → p.activeIndexes[pos]? = some i
  /-- No `expect` fails: a listed slot is live. -/
  live : ∀ i ∈ p.activeIndexes, (p.pool[i]?.join).isSome
  /-- `insert` looks at slots that exist. -/
  free : ∀ i ∈ p.freeSlots, i < p.pool.length
  /-- A round of `nextId`, from any place of the cursor. -/
  round : ∀ c, c + p.len ≤ 2 ^ 64 →
    ∃ ids : List ConnId, { p with cursor := c }.nextIds p.len = ids.map some ∧ ids.Nodup ∧
      ∀ id, id ∈ ids ↔ (m id).isSome

theorem insert_isSome (v : α) (h : p.pool.length < 2 ^ 64) : (p.insert v).isSome := by
  unfold Pool.insert
  rcases popFree p.pool p.freeSlots with ⟨_ | _, free⟩
  · exact (congrArg Option.isSome (dif_pos h)).trans rfl
  · rfl

/-- Calls of `nextId` walk through the list, rotated to the cursor. -/
theorem nextIds_eq {k : Nat} (hk : k ≤ p.len) (hc : p.cursor + k ≤ 2 ^ 64) :
    p.nextIds k = ((p.activeIndexes.rotate p.cursor).take k).map fun i =>
      some (UInt64.ofNat i) := by
  induction k generalizing p with
  | zero => rfl
  | succ k ih =>
    have hpos : 0 < p.activeIndexes.length := Nat.lt_of_lt_of_le (Nat.succ_pos k) hk
    obtain ⟨i, l, hl⟩ : ∃ i l, p.activeIndexes.rotate p.cursor = i :: l := by
      refine List.exists_cons_of_length_pos ?_
      rwa [List.length_rotate]
    have hlen : k ≤ l.length := by
      have := congrArg List.length hl
      simp only [List.length_rotate, List.length_cons] at this
      unfold len at hk
      omega
    have hhead : p.activeIndexes[p.cursor % p.activeIndexes.length]? = some i := by
      rw [← List.head?_rotate (Nat.mod_lt _ hpos), List.rotate_mod, hl]
      rfl
    have hnext : p.nextId =
        (some (UInt64.ofNat i), { p with cursor := (p.cursor + 1) % 2 ^ 64 }) := by
      rw [nextId, hhead]
      exact if_neg (Nat.ne_of_gt hpos)
    have hrot : p.activeIndexes.rotate (p.cursor + 1) = l ++ [i] := by
      rw [← List.rotate_rotate, hl, List.rotate_cons_succ, List.rotate_zero]
    rw [nextIds, hnext, hl, List.take_succ_cons, List.map_cons]
    cases k with
    | zero => rfl
    | succ k =>
      have hmod : (p.cursor + 1) % 2 ^ 64 = p.cursor + 1 := Nat.mod_eq_of_lt (by omega)
      have hrest := ih (p := { p with cursor := p.cursor + 1 }) (Nat.le_of_succ_le hk)
        (by dsimp only; omega)
      rw [hmod, hrest, hrot, List.take_append_of_le_length hlen]

theorem Dense.nodup (h : Dense p) : p.activeIndexes.Nodup := by
  rw [List.nodup_iff_getElem?_ne_getElem?]
  intro i j hij hj heq
  rw [List.getElem?_eq_getElem hj] at heq
  have hpos := ((h.active _ _).mp heq).symm.trans ((h.active j _).mp (List.getElem?_eq_getElem hj))
  exact Nat.ne_of_lt hij (Option.some.inj hpos)

theorem Dense.mem_active (h : Dense p) : i ∈ p.activeIndexes ↔ (p.pool[i]?.join).isSome := by
  rw [List.mem_iff_getElem?]
  simp only [h.active, place, Option.map_eq_some_iff, Option.isSome_iff_exists]
  exact ⟨fun ⟨_, e, he, _⟩ => ⟨e, he⟩, fun ⟨e, he⟩ => ⟨_, e, he, rfl⟩⟩

theorem Dense.lt_of_mem (h : Dense p) (hi : i ∈ p.activeIndexes) : i < 2 ^ 64 := by
  refine Nat.lt_of_lt_of_le ?_ p.size_le
  by_contra hge
  have hlive := h.mem_active.mp hi
  rw [List.getElem?_eq_none (by omega)] at hlive
  cases hlive

theorem Dense.mem_ids (h : Dense p) :
    id ∈ p.activeIndexes.map UInt64.ofNat ↔ (p.get id).isSome := by
  rw [List.mem_map, get, Option.isSome_map, ← h.mem_active]
  constructor
  · rintro ⟨i, hi, rfl⟩
    rwa [toNat_slot (h.lt_of_mem hi)]
  · exact fun hi => ⟨_, hi, UInt64.ofNat_toNat⟩

theorem Dense.nodup_ids (h : Dense p) : (p.activeIndexes.map UInt64.ofNat).Nodup := by
  refine List.Nodup.map_on (fun i hi j hj heq => ?_) h.nodup
  rw [← toNat_slot (h.lt_of_mem hi), heq, toNat_slot (h.lt_of_mem hj)]

/-- Part of the enumeration: the listed slots are live. -/
theorem Dense.mapM_slots (h : Dense p) {l : List Nat} (hl : ∀ i ∈ l, i ∈ p.activeIndexes) :
    ∃ r, (l.mapM fun i => p.pool[i]?.join.map fun e => (UInt64.ofNat i, e.value)) = some r ∧
      r.map Prod.fst = l.map UInt64.ofNat ∧ ∀ x ∈ r, p.get x.1 = some x.2 := by
  induction l with
  | nil => exact ⟨[], rfl, rfl, by simp⟩
  | cons i l ih =>
    obtain ⟨r, hr, hids, hget⟩ := ih fun j hj => hl j (List.mem_cons_of_mem _ hj)
    have hi := hl i List.mem_cons_self
    obtain ⟨e, he⟩ := Option.isSome_iff_exists.mp (h.mem_active.mp hi)
    refine ⟨(UInt64.ofNat i, e.value) :: r, ?_, by rw [List.map_cons, hids, List.map_cons], ?_⟩
    · rw [List.mapM_cons, he, hr]
      rfl
    · refine List.forall_mem_cons.mpr ⟨?_, hget⟩
      rw [get, toNat_slot (h.lt_of_mem hi), he]
      rfl

theorem Dense.isMap (h : Dense p) {m : ConnId → Option α} (hget : ∀ id, p.get id = m id) :
    IsMap p m where
  get_eq := hget
  insert_some v := insert_isSome v
  insert_free v id p' hins := (hget id).symm.trans (insert_spec hins).1
  enumerates := by
    obtain ⟨l, hl, hids, hval⟩ := h.mapM_slots fun i hi => hi
    have hlen : l.length = p.len := by simpa [len] using congrArg List.length hids
    refine ⟨l, hl, hids ▸ h.nodup_ids, hlen, fun id v => ?_⟩
    rw [← hget]
    refine ⟨fun hmem => hval _ hmem, fun hv => ?_⟩
    have hid : id ∈ l.map Prod.fst := hids ▸ h.mem_ids.mpr (by rw [hv]; rfl)
    obtain ⟨x, hx, rfl⟩ := List.mem_map.mp hid
    rw [← Option.some.inj ((hval x hx).symm.trans hv)]
    exact hx
  backPointer i pos := (h.active pos i).mpr
  live i := h.mem_active.mp
  free := h.free
  round := by
    intro c hc
    refine ⟨(p.activeIndexes.rotate c).map UInt64.ofNat, ?_, ?_, fun id => ?_⟩
    · have htake : (p.activeIndexes.rotate c).take p.len = p.activeIndexes.rotate c :=
        List.take_of_length_le (Nat.le_of_eq (List.length_rotate ..))
      rw [List.map_map]
      exact (nextIds_eq (p := { p with cursor := c }) (Nat.le_refl p.len) hc).trans
        (congrArg (List.map _) htake)
    · rw [List.map_rotate, List.nodup_rotate]
      exact h.nodup_ids
    · rw [List.map_rotate, List.mem_rotate, h.mem_ids, hget]

/-- What a run keeps: the list is dense, and `get` reads the map. -/
def Agrees (s : Pool α × (ConnId → Option α)) : Prop := Dense s.1 ∧ ∀ id, s.1.get id = s.2 id

theorem Agrees.step {s : Pool α × (ConnId → Option α)} (h : Agrees s) (a : Action α) :
    Agrees (step s a) := by
  obtain ⟨h, hget⟩ := h
  cases a with
  | insert v =>
    cases hins : s.1.insert v with
    | none => simpa only [Pool.step, hins] using ⟨h, hget⟩
    | some r =>
      simp only [Pool.step, hins]
      refine ⟨h.insert hins, fun id => ?_⟩
      simp only [(insert_spec hins).2, hget, Function.update_apply]
  | insertAt v id' =>
    refine ⟨h.insertAt v id', fun id => ?_⟩
    simp only [Pool.step, get_insertAt, hget, Function.update_apply]
  | remove id' =>
    refine ⟨h.remove id', fun id => ?_⟩
    simp only [Pool.step, get_remove, hget, Function.update_apply]

/-- **A finite map with dense enumeration**, after every sequence of operations. -/
theorem run_isMap (as : List (Action α)) :
    (as.foldl step ({}, fun _ => none)).1.IsMap (as.foldl step ({}, fun _ => none)).2 := by
  have hinit : Agrees (({} : Pool α), fun _ => none) := ⟨⟨by simp [place], by simp⟩, get_empty⟩
  have hrun := Run.invariant (I := Agrees) (fun _ a h => h.step a) hinit as
  exact hrun.1.isMap hrun.2

end Slim.Pool
