import Slim.Tables.PrefixEntry

/-!
# What the operations of a prefix entry do

`pe.Lists id ct c`: the list of type `ct` at the slot of `id` holds `c`. Every operation is read
as an operation on this relation:

* `insertConnForId_spec`, `removeConnForId_spec`: one triple is added, one is removed;
* `retainNonEmpty_spec`: nothing changes, though slots move and vanish.

`Wf`: ids are distinct and every aggregate is the duplicate-free union of its type's lists.
`Dense`: no slot is empty. The first is kept by every operation, the second is restored by
`retainNonEmpty`. `mem_getAll` and `mem_getAllAny` read the two matches off `Lists`.
-/

namespace Slim.PrefixEntry

open ConnList Vec

variable {pe : PrefixEntry} {id : BitVec 128} {id' : BitVec 128} {ct : ConnType} {ct' : ConnType}
  {c : ConnId} {skip : ConnId} {conn : ConnId} {filter : MatchFilter} {f : ConnList → ConnList}
  {ty : ConnId → ConnType} {agg : List ConnId} {acc : List ConnId} {i : Fin pe.ids.length}
  {pe' : PrefixEntry}

/-! ## The relation -/

def Lists (pe : PrefixEntry) (id : BitVec 128) (ct : ConnType) (c : ConnId) : Prop :=
  ∃ l, (id, l) ∈ pe.ids.zip (pe.slots ct) ∧ c ∈ l.conns

instance (pe : PrefixEntry) (id : BitVec 128) (ct : ConnType) (c : ConnId) :
    Decidable (pe.Lists id ct c) :=
  decidable_of_iff (∃ x ∈ pe.ids.zip (pe.slots ct), x.1 = id ∧ c ∈ x.2.conns)
    ⟨fun ⟨x, hx, hid, hc⟩ => ⟨x.2, by rw [← hid]; exact hx, hc⟩,
      fun ⟨l, hl, hc⟩ => ⟨(id, l), hl, rfl, hc⟩⟩

structure Wf (pe : PrefixEntry) : Prop where
  ids_nodup : pe.ids.Nodup
  agg_nodup : ∀ ct, (pe.aggregates ct).Nodup
  agg_iff : ∀ ct c, c ∈ pe.aggregates ct ↔ ∃ id, pe.Lists id ct c

/-- Every id has a connection. -/
def Dense (pe : PrefixEntry) : Prop := ∀ id ∈ pe.ids, ∃ ct c, pe.Lists id ct c

theorem Lists.mem_ids (h : pe.Lists id ct c) : id ∈ pe.ids := by
  obtain ⟨l, hl, -⟩ := h
  exact (List.of_mem_zip hl).1

theorem lists_iff :
    pe.Lists id ct c ↔
      ∃ (i : Nat) (l : ConnList), pe.ids[i]? = some id ∧
        (pe.slots ct)[i]? = some l ∧ c ∈ l.conns := by
  constructor
  · rintro ⟨l, hl, hc⟩
    obtain ⟨i, hi⟩ := List.mem_iff_getElem?.mp hl
    rw [List.getElem?_zip_eq_some] at hi
    exact ⟨i, l, hi.1, hi.2, hc⟩
  · rintro ⟨i, l, hi, hl, hc⟩
    refine ⟨l, List.mem_iff_getElem?.mpr ⟨i, ?_⟩, hc⟩
    rw [List.getElem?_zip_eq_some]
    exact ⟨hi, hl⟩

theorem exists_lists_iff : (∃ id, pe.Lists id ct c) ↔ ∃ l ∈ pe.slots ct, c ∈ l.conns := by
  constructor
  · rintro ⟨id, l, hl, hc⟩
    exact ⟨l, (List.of_mem_zip hl).2, hc⟩
  · rintro ⟨l, hl, hc⟩
    obtain ⟨i, hi⟩ := List.mem_iff_getElem?.mp hl
    have hlt : i < pe.ids.length := by
      rw [← pe.slots_length ct]; exact (List.getElem?_eq_some_iff.mp hi).1
    exact ⟨pe.ids[i], lists_iff.mpr ⟨i, l, List.getElem?_eq_getElem hlt, hi, hc⟩⟩

theorem slots_getElem? (pe : PrefixEntry) (ct : ConnType) (i : Fin pe.ids.length) :
    (pe.slots ct)[i.val]? = some (pe.slot ct i) :=
  List.getElem?_eq_getElem (by rw [pe.slots_length ct]; exact i.isLt)

theorem index_unique {l : List (BitVec 128)} (hn : l.Nodup) {i j : Nat} (hi : l[i]? = some id)
    (hj : l[j]? = some id) : i = j := by
  obtain ⟨_, hi⟩ := List.getElem?_eq_some_iff.mp hi
  obtain ⟨_, hj⟩ := List.getElem?_eq_some_iff.mp hj
  exact (List.Nodup.getElem_inj_iff hn).mp (hi.trans hj.symm)

theorem lists_at (pe : PrefixEntry) (hn : pe.ids.Nodup) {i : Fin pe.ids.length}
    (hi : pe.ids[i] = id) : pe.Lists id ct c ↔ c ∈ (pe.slot ct i).conns := by
  have hid : pe.ids[i.val]? = some id := (List.getElem?_eq_getElem i.isLt).trans (congrArg some hi)
  rw [lists_iff]
  constructor
  · rintro ⟨j, l, hj, hl, hc⟩
    obtain rfl := index_unique hn hj hid
    rw [slots_getElem?, Option.some.injEq] at hl
    rw [hl]
    exact hc
  · exact fun hc => ⟨i, _, hid, slots_getElem? pe ct i, hc⟩

theorem position_some (h : pe.position id = some i) : pe.ids[i] = id := by
  unfold position at h
  rw [List.finIdxOf?_eq_some_iff] at h
  exact h.1

theorem position_none : pe.position id = none ↔ id ∉ pe.ids :=
  List.finIdxOf?_eq_none_iff

theorem hasId_iff : pe.hasId id = true ↔ id ∈ pe.ids :=
  List.contains_iff_mem

theorem isEmpty_iff : pe.isEmpty = true ↔ pe.ids = [] := List.isEmpty_iff

theorem not_lists_new {s : StringName} : ¬ (new s).Lists id ct c := by
  rintro ⟨l, hl, -⟩
  simp [new] at hl

theorem wf_new (s : StringName) : (new s).Wf where
  ids_nodup := List.nodup_nil
  agg_nodup := fun _ => List.nodup_nil
  agg_iff := fun ct c => by
    refine ⟨fun h => ?_, fun ⟨_, h⟩ => absurd h not_lists_new⟩
    simp [new] at h

/-! ## Editing one list -/

theorem pushId_lists : (pe.pushId id).Lists id' ct c ↔ pe.Lists id' ct c := by
  unfold Lists pushId
  simp only [List.zip_append (pe.slots_length ct).symm, List.mem_append]
  constructor
  · rintro ⟨l, hl | hl, hc⟩
    · exact ⟨l, hl, hc⟩
    · simp only [List.zip_cons_cons, List.zip_nil_left, List.mem_singleton, Prod.mk.injEq] at hl
      rw [hl.2] at hc
      simp at hc
  · rintro ⟨l, hl, hc⟩
    exact ⟨l, .inl hl, hc⟩

theorem wf_pushId (h : pe.Wf) (hid : id ∉ pe.ids) :
    (pe.pushId id).Wf where
  ids_nodup := List.nodup_append.mpr ⟨h.ids_nodup, by simp, fun x hx y hy => by
    rw [List.mem_singleton] at hy; rintro rfl; exact hid (hy ▸ hx)⟩
  agg_nodup := h.agg_nodup
  agg_iff := fun ct c => by simp only [pushId_lists]; exact h.agg_iff ct c

theorem ensureId_spec (h : pe.Wf) {i : Fin pe'.ids.length} (he : pe.ensureId id = ⟨pe', i⟩) :
    pe'.Wf ∧ pe'.ids[i] = id ∧ (∀ id' ct c, pe'.Lists id' ct c ↔ pe.Lists id' ct c) ∧
      ∀ id', id' ∈ pe'.ids ↔ id' ∈ pe.ids ∨ id' = id := by
  unfold ensureId at he
  split at he
  · rename_i i' hp
    cases he
    have hi := position_some hp
    refine ⟨h, hi, fun _ _ _ => Iff.rfl, fun id' => ⟨.inl, ?_⟩⟩
    rintro (hm | rfl)
    · exact hm
    · rw [← hi]; exact List.getElem_mem _
  · rename_i hp
    cases he
    rw [position_none] at hp
    refine ⟨wf_pushId h hp, ?_, fun _ _ _ => pushId_lists, fun id' => ?_⟩
    · simp [pushId]
    · simp [pushId]

@[simp] theorem modifySlot_aggregates (pe : PrefixEntry) (ct : ConnType) (i : Nat)
    (f : ConnList → ConnList) : (pe.modifySlot ct i f).aggregates = pe.aggregates := rfl

@[simp] theorem setAggregate_aggregates (pe : PrefixEntry) (ct ct' : ConnType) (agg : List ConnId) :
    (pe.setAggregate ct agg).aggregates ct' = if ct' = ct then agg else pe.aggregates ct' := rfl

@[simp] theorem setAggregate_lists :
    (pe.setAggregate ct agg).Lists id ct' c ↔ pe.Lists id ct' c := Iff.rfl

/-- The relation after editing the list of type `ct` at the slot of `id`. -/
theorem modifySlot_lists (hn : pe.ids.Nodup) (hi : pe.ids[i] = id) :
    (pe.modifySlot ct i f).Lists id' ct' c ↔
      if ct' = ct ∧ id' = id then c ∈ (f (pe.slot ct i)).conns else pe.Lists id' ct' c := by
  have hid : pe.ids[i.val]? = some id := (List.getElem?_eq_getElem i.isLt).trans (congrArg some hi)
  by_cases hct : ct' = ct
  · subst hct
    simp only [true_and]
    rw [lists_iff]
    simp only [modifySlot, ↓reduceIte, List.getElem?_modify]
    by_cases he : id' = id
    · subst he
      rw [if_pos rfl]
      constructor
      · rintro ⟨j, l, hj, hl, hc⟩
        obtain rfl := index_unique hn hj hid
        simp only [slots_getElem?, ↓reduceIte, Option.map_eq_map, Option.map_some,
          Option.some.injEq] at hl
        rw [hl]
        exact hc
      · exact fun hc => ⟨i, _, hid, by simp [slots_getElem?], hc⟩
    · rw [if_neg he, lists_iff]
      -- the edited index holds another id, so the list at `id'` is the one there was
      have hne : ∀ j : Nat, pe.ids[j]? = some id' → i.val ≠ j := fun j hj hij => by
        rw [← hij, hid, Option.some.injEq] at hj
        exact he hj.symm
      constructor
      · rintro ⟨j, l, hj, hl, hc⟩
        simp only [hne j hj, ↓reduceIte, Option.map_eq_map, Option.map_id_fun'] at hl
        exact ⟨j, l, hj, hl, hc⟩
      · rintro ⟨j, l, hj, hl, hc⟩
        exact ⟨j, l, hj, by simp [hne j hj, hl], hc⟩
  · simp [Lists, modifySlot, hct]

/-- Editing the list of one slot and setting the aggregate of its type keeps the entry
well-formed when that aggregate is the union of the edited lists. -/
theorem wf_edit (h : pe.Wf) (hi : pe.ids[i] = id) (hnd : agg.Nodup)
    (hagg : ∀ c, c ∈ agg ↔ ∃ id', (pe.modifySlot ct i f).Lists id' ct c) :
    ((pe.modifySlot ct i f).setAggregate ct agg).Wf where
  ids_nodup := h.ids_nodup
  agg_nodup := fun ct' => by
    rw [setAggregate_aggregates]
    split
    · exact hnd
    · exact h.agg_nodup ct'
  agg_iff := fun ct' c => by
    simp only [setAggregate_lists, setAggregate_aggregates]
    split
    · rename_i hct
      rw [hct]
      exact hagg c
    · rename_i hct
      simp only [modifySlot_lists h.ids_nodup hi, hct, false_and, ↓reduceIte]
      exact h.agg_iff ct' c

/-! ## Insertion and removal -/

/-- **Insertion** adds one triple; the result says whether the list was empty. -/
theorem insertConnForId_spec (h : pe.Wf) {first : Bool}
    (hr : pe.insertConnForId id conn ct = (first, pe')) :
    pe'.Wf ∧
      (∀ id' ct' c, pe'.Lists id' ct' c ↔ pe.Lists id' ct' c ∨ id' = id ∧ ct' = ct ∧ c = conn) ∧
      (first = true ↔ ∀ c, ¬ pe.Lists id ct c) ∧
      (∀ id', id' ∈ pe'.ids ↔ id' ∈ pe.ids ∨ id' = id) := by
  unfold insertConnForId at hr
  rcases he : pe.ensureId id with ⟨pe1, i⟩
  obtain ⟨h1, hi, hl1, hids⟩ := ensureId_spec h he
  rw [he] at hr
  obtain ⟨rfl, rfl⟩ := hr
  have hat : ∀ c, pe.Lists id ct c ↔ c ∈ (pe1.slot ct i).conns := fun c => by
    rw [← hl1, lists_at _ h1.ids_nodup hi]
  have hl2 : ∀ id' ct' c, (pe1.modifySlot ct i (·.push conn)).Lists id' ct' c ↔
      pe.Lists id' ct' c ∨ id' = id ∧ ct' = ct ∧ c = conn := fun id' ct' c => by
    rw [modifySlot_lists h1.ids_nodup hi]
    split
    · rename_i hc
      obtain ⟨rfl, rfl⟩ := hc
      rw [hat]
      simp
    · rename_i hc
      rw [hl1]
      exact ⟨.inl, fun hd => hd.resolve_right fun ⟨e1, e2, _⟩ => hc ⟨e2, e1⟩⟩
  refine ⟨wf_edit h1 hi (nodup_pushNew _ (h1.agg_nodup ct)) fun c => ?_, ?_, ?_, hids⟩
  · rw [modifySlot_aggregates, mem_pushNew, h1.agg_iff]
    simp only [hl1, hl2, true_and]
    constructor
    · rintro (⟨id', hc⟩ | rfl)
      · exact ⟨id', .inl hc⟩
      · exact ⟨id, .inr ⟨rfl, rfl⟩⟩
    · rintro ⟨id', hc | ⟨-, rfl⟩⟩
      · exact .inl ⟨id', hc⟩
      · exact .inr rfl
  · exact hl2
  · rw [ConnList.isEmpty_iff]
    exact forall_congr' fun c => not_congr (hat c).symm

/-- **Removal** takes one triple away; the result says whether the list is now empty. -/
theorem removeConnForId_spec (h : pe.Wf) {last : Bool}
    (hr : pe.removeConnForId id conn ct = (last, pe')) :
    pe'.Wf ∧
      (∀ id' ct' c, pe'.Lists id' ct' c ↔
        pe.Lists id' ct' c ∧ ¬ (id' = id ∧ ct' = ct ∧ c = conn)) ∧
      (last = true ↔ id ∈ pe.ids ∧ ∀ c, ¬ pe'.Lists id ct c) ∧ pe'.ids = pe.ids := by
  unfold removeConnForId at hr
  split at hr
  · rename_i hp
    rw [position_none] at hp
    obtain ⟨rfl, rfl⟩ := hr
    refine ⟨h, fun id' ct' c => ⟨fun hl => ⟨hl, ?_⟩, fun hl => hl.1⟩, by simp [hp], rfl⟩
    rintro ⟨rfl, -, -⟩
    exact hp hl.mem_ids
  · rename_i i hp
    have hi := position_some hp
    obtain ⟨rfl, rfl⟩ := hr
    have hat : ∀ c, pe.Lists id ct c ↔ c ∈ (pe.slot ct i).conns := fun c =>
      lists_at _ h.ids_nodup hi
    have hl2 : ∀ id' ct' c, (pe.modifySlot ct i (·.remove conn)).Lists id' ct' c ↔
        pe.Lists id' ct' c ∧ ¬ (id' = id ∧ ct' = ct ∧ c = conn) := fun id' ct' c => by
      rw [modifySlot_lists h.ids_nodup hi]
      split
      · rename_i hc
        obtain ⟨rfl, rfl⟩ := hc
        rw [hat]
        simp
      · rename_i hc
        exact ⟨fun hl => ⟨hl, fun ⟨e1, e2, _⟩ => hc ⟨e2, e1⟩⟩, fun hl => hl.1⟩
    -- `any` over the edited lists decides whether another slot still lists `conn`
    have hany : ((pe.modifySlot ct i (·.remove conn)).slots ct).any (·.conns.contains conn) = true ↔
        ∃ id', (pe.modifySlot ct i (·.remove conn)).Lists id' ct conn := by
      rw [exists_lists_iff]
      simp
    refine ⟨wf_edit h hi ?_ fun c => ?_, hl2, ?_, rfl⟩
    · split
      · exact h.agg_nodup ct
      · exact nodup_removeFirst _ (h.agg_nodup ct)
    · have hsub : ∀ id', (pe.modifySlot ct i (·.remove conn)).Lists id' ct c → pe.Lists id' ct c :=
        fun id' hl => ((hl2 id' ct c).mp hl).1
      have hkeep : c ≠ conn → ∀ id', pe.Lists id' ct c →
          (pe.modifySlot ct i (·.remove conn)).Lists id' ct c :=
        fun hne id' hl => (hl2 id' ct c).mpr ⟨hl, fun he => hne he.2.2⟩
      split
      · rename_i ha
        rw [hany] at ha
        rw [modifySlot_aggregates, h.agg_iff]
        refine ⟨fun ⟨id', hl⟩ => ?_, fun ⟨id', hl⟩ => ⟨id', hsub id' hl⟩⟩
        by_cases hne : c = conn
        · rw [hne]; exact ha
        · exact ⟨id', hkeep hne id' hl⟩
      · rename_i ha
        rw [hany] at ha
        rw [modifySlot_aggregates, mem_removeFirst (h.agg_nodup ct), h.agg_iff]
        refine ⟨fun ⟨⟨id', hl⟩, hne⟩ => ⟨id', hkeep hne id' hl⟩, fun ⟨id', hl⟩ =>
          ⟨⟨id', hsub id' hl⟩, ?_⟩⟩
        rintro rfl
        exact ha ⟨id', hl⟩
    · have hid : id ∈ pe.ids := hi ▸ List.getElem_mem _
      rw [ConnList.isEmpty_iff]
      simp only [hid, true_and]
      exact forall_congr' fun c => not_congr
        (lists_at ((pe.modifySlot ct i (·.remove conn)).setAggregate ct _) h.ids_nodup hi).symm

/-! ## Compaction -/

theorem mem_foldl_pushAllNew {ls : List ConnList} :
    c ∈ ls.foldl (fun agg list => pushAllNew agg list.conns) acc ↔
      c ∈ acc ∨ ∃ l ∈ ls, c ∈ l.conns := by
  induction ls generalizing acc with
  | nil => simp
  | cons l ls ih => simp [ih, or_assoc]

theorem nodup_foldl_pushAllNew (ls : List ConnList) (h : acc.Nodup) :
    (ls.foldl (fun agg list => pushAllNew agg list.conns) acc).Nodup := by
  induction ls generalizing acc with
  | nil => exact h
  | cons l ls ih => exact ih (nodup_pushAllNew l.conns h)

/-- Whatever the aggregates were, rebuilding makes them the unions of the lists. -/
theorem wf_rebuildAggregates (h : pe.ids.Nodup) : pe.rebuildAggregates.Wf where
  ids_nodup := h
  agg_nodup := fun ct => nodup_foldl_pushAllNew (pe.slots ct) List.nodup_nil
  agg_iff := fun ct c => by
    refine Iff.trans ?_ exists_lists_iff.symm
    simp [rebuildAggregates, mem_foldl_pushAllNew]

def OccupiedAt (pe : PrefixEntry) (j : Nat) : Prop :=
  ∃ ct l c, (pe.slots ct)[j]? = some l ∧ c ∈ l.conns

theorem isSlotEmpty_iff : pe.isSlotEmpty i = true ↔ ∀ ct c, c ∉ (pe.slot ct i).conns := by
  simp [isSlotEmpty, ConnList.isEmpty_iff]

theorem occupiedAt_of_not_isSlotEmpty (h : ¬ pe.isSlotEmpty i = true) : pe.OccupiedAt i := by
  rw [isSlotEmpty_iff] at h
  push Not at h
  obtain ⟨ct, c, hc⟩ := h
  exact ⟨ct, pe.slot ct i, c, slots_getElem? pe ct i, hc⟩

theorem dense_of_occupiedAt (h : ∀ j < pe.ids.length, pe.OccupiedAt j) : pe.Dense := by
  intro id hid
  obtain ⟨j, hj⟩ := List.mem_iff_getElem?.mp hid
  obtain ⟨ct, l, c, hl, hc⟩ := h j (List.getElem?_eq_some_iff.mp hj).1
  exact ⟨ct, c, lists_iff.mpr ⟨j, l, hj, hl, hc⟩⟩

theorem removeSlot_lists (he : pe.isSlotEmpty i = true) :
    (pe.removeSlot i).Lists id ct c ↔ pe.Lists id ct c := by
  rw [isSlotEmpty_iff] at he
  have hlen : pe.ids.length = (pe.slots ct).length := (pe.slots_length ct).symm
  have hlt : i.val < (pe.ids.zip (pe.slots ct)).length := by
    rw [List.length_zip, ← hlen, Nat.min_self]; exact i.isLt
  have hperm := cons_swapRemove_perm hlt
  change (∃ l, (id, l) ∈ (swapRemove pe.ids i).zip (swapRemove (pe.slots ct) i) ∧ _) ↔ _
  rw [zip_swapRemove hlen]
  constructor
  · rintro ⟨l, hl, hc⟩
    exact ⟨l, mem_of_mem_swapRemove hl, hc⟩
  · rintro ⟨l, hl, hc⟩
    rw [← hperm.mem_iff, List.mem_cons] at hl
    rcases hl with hl | hl
    · rw [List.getElem_zip, Prod.mk.injEq] at hl
      rw [hl.2] at hc
      exact absurd hc (he ct c)
    · exact ⟨l, hl, hc⟩

theorem OccupiedAt.removeSlot {i j : Nat} (hj : j < i) (hi : i < pe.ids.length)
    (h : pe.OccupiedAt j) : (pe.removeSlot i).OccupiedAt j := by
  obtain ⟨ct, l, c, hl, hc⟩ := h
  refine ⟨ct, l, c, ?_, hc⟩
  change (swapRemove (pe.slots ct) i)[j]? = some l
  rw [Vec.getElem?_swapRemove_of_lt hj (by rwa [pe.slots_length ct]), hl]

/-- The loop of `retain_non_empty` keeps every membership, and no empty slot is left when the
slots before `i` are occupied. -/
theorem retainLoop_spec (k i : Nat) (pe : PrefixEntry) (h : pe.Wf) (hk : pe.ids.length ≤ i + k)
    (hocc : ∀ j < i, j < pe.ids.length → pe.OccupiedAt j) :
    (retainLoop k i pe).Wf ∧ (retainLoop k i pe).Dense ∧
      (∀ id ct c, (retainLoop k i pe).Lists id ct c ↔ pe.Lists id ct c) ∧
      (retainLoop k i pe).strings = pe.strings := by
  induction k generalizing i pe with
  | zero =>
    have hd : pe.Dense := dense_of_occupiedAt fun j hj => hocc j (by omega) hj
    exact ⟨h, hd, fun _ _ _ => Iff.rfl, rfl⟩
  | succ k ih =>
    unfold retainLoop
    by_cases hi : i < pe.ids.length
    · rw [dif_pos hi]
      by_cases he : pe.isSlotEmpty ⟨i, hi⟩ = true
      · rw [if_pos he]
        have hn : (swapRemove pe.ids i).Nodup := nodup_swapRemove hi h.ids_nodup
        have hlen : (pe.removeSlot i).ids.length = pe.ids.length - 1 := length_swapRemove _ _
        obtain ⟨hw, hd, hl, hs⟩ := ih i (pe.removeSlot i) (wf_rebuildAggregates hn) (by omega)
          fun j hj hlt => (hocc j hj (by omega)).removeSlot hj hi
        exact ⟨hw, hd, fun id ct c => (hl id ct c).trans (removeSlot_lists he), hs⟩
      · rw [if_neg he]
        refine ih (i + 1) pe h (by omega) fun j hj hlt => ?_
        rcases Nat.lt_succ_iff_lt_or_eq.mp hj with hj | rfl
        · exact hocc j hj hlt
        · exact occupiedAt_of_not_isSlotEmpty he
    · rw [dif_neg hi]
      exact ⟨h, dense_of_occupiedAt fun j hj => hocc j (by omega) hj, fun _ _ _ => Iff.rfl, rfl⟩

/-- **Compaction** keeps every membership and leaves no empty slot. -/
theorem retainNonEmpty_spec (h : pe.Wf) :
    pe.retainNonEmpty.Wf ∧ pe.retainNonEmpty.Dense ∧
      (∀ id ct c, pe.retainNonEmpty.Lists id ct c ↔ pe.Lists id ct c) ∧
      pe.retainNonEmpty.strings = pe.strings :=
  retainLoop_spec pe.ids.length 0 pe h (by omega) fun j hj => absurd hj (by omega)

/-- **Removal of a connection** from the whole entry. -/
theorem removeConn_spec (h : pe.Wf) (conn : ConnId) :
    (pe.removeConn conn).Wf ∧
      ∀ id ct c, (pe.removeConn conn).Lists id ct c ↔ pe.Lists id ct c ∧ c ≠ conn := by
  have hl : ∀ id ct c, (pe.removeConn conn).Lists id ct c ↔ pe.Lists id ct c ∧ c ≠ conn := by
    intro id ct c
    simp only [lists_iff, removeConn, List.getElem?_map, Option.map_eq_some_iff]
    constructor
    · rintro ⟨i, _, hi, ⟨l, hl, rfl⟩, hc⟩
      rw [mem_remove] at hc
      exact ⟨⟨i, l, hi, hl, hc.1⟩, hc.2⟩
    · rintro ⟨⟨i, l, hi, hl, hc⟩, hne⟩
      exact ⟨i, _, hi, ⟨l, hl, rfl⟩, mem_remove.mpr ⟨hc, hne⟩⟩
  refine ⟨⟨h.ids_nodup, fun ct => (h.agg_nodup ct).filter _, fun ct c => ?_⟩, hl⟩
  simp only [hl]
  show c ∈ (pe.aggregates ct).filter (· ≠ conn) ↔ _
  rw [List.mem_filter, h.agg_iff, decide_eq_true_eq, exists_and_right]

/-! ## The matches -/

theorem mem_getAll (h : pe.Wf) :
    c ∈ (pe.getAll id skip filter).getD [] ↔
      c ≠ skip ∧ ∃ ct, filter.includes ct = true ∧ pe.Lists id ct c := by
  unfold getAll
  cases hp : pe.position id with
  | none =>
    rw [position_none] at hp
    simp only [Option.map_none, Option.getD_none, List.not_mem_nil, false_iff]
    rintro ⟨-, ct, -, hl⟩
    exact hp hl.mem_ids
  | some i =>
    have hi := position_some hp
    simp only [Option.map_some, Option.getD_some, filteredSlots, List.mem_flatMap, List.mem_map,
      List.mem_filter, ConnType.mem_ALL, true_and, decide_eq_true_eq, lists_at _ h.ids_nodup hi]
    constructor
    · rintro ⟨_, ⟨ct, hct, rfl⟩, hc, hne⟩
      exact ⟨hne, ct, hct, hc⟩
    · rintro ⟨hne, ct, hct, hc⟩
      exact ⟨_, ⟨ct, hct, rfl⟩, hc, hne⟩

theorem mem_getAllAny (h : pe.Wf) :
    c ∈ pe.getAllAny skip filter ↔
      c ≠ skip ∧ ∃ ct, filter.includes ct = true ∧ ∃ id, pe.Lists id ct c := by
  simp only [getAllAny, filteredAggregates, List.mem_flatMap, List.mem_map, List.mem_filter,
    ConnType.mem_ALL, true_and, decide_eq_true_eq, ← h.agg_iff]
  constructor
  · rintro ⟨_, ⟨ct, hct, rfl⟩, hc, hne⟩
    exact ⟨hne, ct, hct, hc⟩
  · rintro ⟨hne, ct, hct, hc⟩
    exact ⟨_, ⟨ct, hct, rfl⟩, hc, hne⟩

/-- Each connection is listed under one type only. -/
def TypedBy (pe : PrefixEntry) (ty : ConnId → ConnType) : Prop :=
  ∀ id ct c, pe.Lists id ct c → ct = ty c

/-- Lists of different types share no connection, so concatenating them repeats none. -/
theorem nodup_flatMap_types (ty : ConnId → ConnType) {f : ConnType → List ConnId}
    (hnd : ∀ ct, (f ct).Nodup) (hty : ∀ ct, ∀ c ∈ f ct, ct = ty c) (p : ConnType → Bool)
    (skip : ConnId) :
    ((ConnType.ALL.filter p).flatMap fun ct => (f ct).filter (· ≠ skip)).Nodup := by
  rw [List.nodup_flatMap]
  refine ⟨fun ct _ => (hnd ct).filter _, ?_⟩
  refine (ConnType.nodup_ALL.filter p).imp fun {ct ct'} hne => ?_
  intro c hc hc'
  exact hne ((hty ct c (List.mem_filter.mp hc).1).trans (hty ct' c (List.mem_filter.mp hc').1).symm)

theorem nodup_getAll (h : pe.Wf) (ht : pe.TypedBy ty) :
    ((pe.getAll id skip filter).getD []).Nodup := by
  unfold getAll
  cases hp : pe.position id with
  | none => exact List.nodup_nil
  | some i =>
    simp only [filteredSlots, List.flatMap_map]
    exact nodup_flatMap_types ty (fun ct => (pe.slot ct i).nodup)
      (fun ct c hc => ht id ct c ((lists_at _ h.ids_nodup (position_some hp)).mpr hc)) _ _

theorem nodup_getAllAny (h : pe.Wf) (ht : pe.TypedBy ty) : (pe.getAllAny skip filter).Nodup := by
  simp only [getAllAny, filteredAggregates, List.flatMap_map]
  refine nodup_flatMap_types ty h.agg_nodup (fun ct c hc => ?_) _ _
  obtain ⟨id, hl⟩ := (h.agg_iff ct c).mp hc
  exact ht id ct c hl

/-! ## Round-robin matches -/

section
variable {conns : List ConnId} {hpos : 0 < conns.length} {k : Nat} {cursor : UInt64}

theorem nextLoop_mem (hr : (nextLoop conns hpos skip k cursor).1 = some c) :
    c ∈ conns ∧ c ≠ skip := by
  induction k generalizing cursor with
  | zero => cases hr
  | succ k ih =>
    unfold nextLoop at hr
    dsimp only at hr
    split at hr
    · rename_i hne
      cases hr
      exact ⟨List.get_mem _ _, hne⟩
    · exact ih hr

theorem nextLoop_none (hr : (nextLoop conns hpos skip k cursor).1 = none) :
    ∀ j < k, conns[(cursor + UInt64.ofNat j).toNat % conns.length]? = some skip := by
  induction k generalizing cursor with
  | zero => exact fun j hj => absurd hj j.not_lt_zero
  | succ k ih =>
    unfold nextLoop at hr
    dsimp only at hr
    split at hr
    · cases hr
    · rename_i hne
      intro j hj
      cases j with
      | zero =>
        rw [show cursor + UInt64.ofNat 0 = cursor from UInt64.add_zero cursor,
          List.getElem?_eq_getElem (Nat.mod_lt _ hpos)]
        exact congrArg some (not_not.mp hne)
      | succ j =>
        have hj' : cursor + UInt64.ofNat (j + 1) = cursor + 1 + UInt64.ofNat j := by
          rw [UInt64.ofNat_add, UInt64.add_assoc, UInt64.add_comm 1]
          rfl
        rw [hj']
        exact ih hr j (by omega)

end

/-- A cursor read as often as the list is long does not stay on one position, although the counter
may wrap on the way: the step that wraps is followed by one that does not, unless there are only two
positions, and two divides the counter's range. -/
theorem exists_probe_ne {n : Nat} (hn : 2 ≤ n) (cursor : UInt64) :
    ∃ i < n, ∃ j < n,
      (cursor + UInt64.ofNat i).toNat % n ≠ (cursor + UInt64.ofNat j).toNat % n := by
  have hsucc : ∀ a : Nat, a % n ≠ (a + 1) % n := by
    intro a he
    have := (Nat.modEq_iff_dvd' (Nat.le_add_right a 1)).mp he
    rw [Nat.add_sub_cancel_left, Nat.dvd_one] at this
    omega
  have hc := cursor.toNat_lt
  have hat : ∀ j : Nat, j ≤ 2 → (cursor + UInt64.ofNat j).toNat = (cursor.toNat + j) % 2 ^ 64 := by
    intro j hj
    rw [UInt64.toNat_add, UInt64.toNat_ofNat_of_lt' (by simp [UInt64.size]; omega)]
  by_cases hwrap : cursor.toNat + 1 < 2 ^ 64
  · refine ⟨0, by omega, 1, by omega, ?_⟩
    rw [hat 0 (by omega), hat 1 (by omega), Nat.mod_eq_of_lt hwrap, Nat.add_zero,
      Nat.mod_eq_of_lt hc]
    exact hsucc _
  · have hmax : cursor.toNat = 2 ^ 64 - 1 := by omega
    rcases Nat.lt_or_ge n 3 with h3 | h3
    · obtain rfl : n = 2 := by omega
      refine ⟨0, by omega, 1, by omega, ?_⟩
      rw [hat 0 (by omega), hat 1 (by omega), hmax]
      decide
    · refine ⟨1, by omega, 2, by omega, ?_⟩
      rw [hat 1 (by omega), hat 2 (by omega), hmax]
      exact hsucc 0

theorem not_all_probes_skip {l : ConnList} (hn : 2 ≤ l.conns.length) (skip : ConnId)
    (cursor : UInt64) :
    ¬ ∀ j < l.conns.length,
      l.conns[(cursor + UInt64.ofNat j).toNat % l.conns.length]? = some skip := by
  intro hall
  obtain ⟨i, hi, j, hj, hne⟩ := exists_probe_ne hn cursor
  exact hne ((List.getElem?_inj (Nat.mod_lt _ (by omega)) l.nodup).mp
    ((hall i hi).trans (hall j hj).symm))

/-- Reading through a cursor keeps the list, and yields a connection of it unless there is none to
yield. -/
theorem next_spec (l : ConnList) (skip : ConnId) :
    (l.next skip).2.conns = l.conns ∧
      (∀ c, (l.next skip).1 = some c → c ∈ l.conns ∧ c ≠ skip) ∧
      ((l.next skip).1 = none → ∀ c ∈ l.conns, c = skip) := by
  unfold next
  split
  · split
    · rename_i hone
      obtain ⟨conns, cursor, hnodup⟩ := l
      obtain ⟨c, rfl⟩ := List.length_eq_one_iff.mp hone
      by_cases hc : c = skip <;> simp [hc]
    · refine ⟨rfl, fun c hc => nextLoop_mem hc, fun hr => ?_⟩
      exact absurd (nextLoop_none hr) (not_all_probes_skip (by omega) skip l.cursor)
  · rename_i hnil
    refine ⟨rfl, fun c hc => (by cases hc), fun _ c hc => ?_⟩
    exact absurd (List.length_pos_of_mem hc) hnil

theorem getOneLoop_spec (pe : PrefixEntry) (i : Fin pe.ids.length) (skip : ConnId)
    (cts : List ConnType) :
    (∀ ct l, (pe.getOneLoop i skip cts).2 ct = some l → l.conns = (pe.slot ct i).conns) ∧
      FirstOffer (fun ct c => c ≠ skip ∧ c ∈ (pe.slot ct i).conns) cts
        (pe.getOneLoop i skip cts).1 := by
  induction cts with
  | nil => exact ⟨fun ct l hl => (by cases hl), .nil⟩
  | cons ct cts ih =>
    obtain ⟨hkeep, hsome, hnone⟩ := next_spec (pe.slot ct i) skip
    unfold getOneLoop
    rcases hn : (pe.slot ct i).next skip with ⟨found, list⟩
    rw [hn] at hkeep hsome hnone
    cases found with
    | some c =>
      refine ⟨fun ct' l hl => ?_, .here (hsome c rfl).symm⟩
      dsimp only at hl
      split at hl
      · rename_i hct
        cases hl
        rw [hct]
        exact hkeep
      · cases hl
    | none =>
      refine ⟨fun ct' l hl => ?_, .later (fun c hc => hc.1 (hnone rfl c hc.2)) ih.2⟩
      dsimp only at hl
      split at hl
      · rename_i hct
        cases hl
        rw [hct]
        exact hkeep
      · exact ih.1 ct' l hl

structure OnlyCursors (pe pe' : PrefixEntry) : Prop where
  ids : pe'.ids = pe.ids
  slots : ∀ ct, (pe'.slots ct).map (·.conns) = (pe.slots ct).map (·.conns)
  aggregates : pe'.aggregates = pe.aggregates
  strings : pe'.strings = pe.strings

theorem OnlyCursors.refl (pe : PrefixEntry) : OnlyCursors pe pe :=
  ⟨rfl, fun _ => rfl, rfl, rfl⟩

theorem OnlyCursors.symm (h : OnlyCursors pe pe') : OnlyCursors pe' pe :=
  ⟨h.ids.symm, fun ct => (h.slots ct).symm, h.aggregates.symm, h.strings.symm⟩

theorem setLists_onlyCursors {lists : ConnType → Option ConnList}
    (hk : ∀ ct l, lists ct = some l → l.conns = (pe.slot ct i).conns) :
    OnlyCursors pe (pe.setLists i lists) := by
  refine ⟨rfl, fun ct => List.ext_getElem? fun j => ?_, rfl, rfl⟩
  simp only [setLists, List.getElem?_map, List.getElem?_modify, Option.map_eq_map]
  split
  · rename_i hij
    subst hij
    rw [slots_getElem?]
    cases hlist : lists ct with
    | none => rfl
    | some l => exact congrArg some (hk ct l hlist)
  · rw [Option.map_id']

theorem OnlyCursors.lists_of_lists (h : OnlyCursors pe pe') (hc : pe.Lists id ct c) :
    pe'.Lists id ct c := by
  obtain ⟨j, l, hj, hl, hc⟩ := lists_iff.mp hc
  have hl' : ((pe'.slots ct).map (·.conns))[j]? = some l.conns := by
    rw [h.slots, List.getElem?_map, hl]
    rfl
  obtain ⟨l', hl', he⟩ := Option.map_eq_some_iff.mp (List.getElem?_map ▸ hl')
  exact lists_iff.mpr ⟨j, l', h.ids ▸ hj, hl', he ▸ hc⟩

/-- An entry whose cursors moved. -/
structure SameLists (pe pe' : PrefixEntry) : Prop where
  ids : pe'.ids = pe.ids
  aggregates : pe'.aggregates = pe.aggregates
  lists : ∀ id ct c, pe'.Lists id ct c ↔ pe.Lists id ct c

theorem OnlyCursors.sameLists (h : OnlyCursors pe pe') : SameLists pe pe' :=
  ⟨h.ids, h.aggregates, fun _ _ _ => ⟨h.symm.lists_of_lists, h.lists_of_lists⟩⟩

theorem SameLists.wf (hs : SameLists pe pe') (h : pe.Wf) : pe'.Wf where
  ids_nodup := hs.ids ▸ h.ids_nodup
  agg_nodup := fun ct => hs.aggregates ▸ h.agg_nodup ct
  agg_iff := fun ct c => by simp only [hs.aggregates, hs.lists, h.agg_iff]

theorem SameLists.dense (hs : SameLists pe pe') (h : pe.Dense) : pe'.Dense := by
  intro id hid
  rw [hs.ids] at hid
  obtain ⟨ct, c, hc⟩ := h id hid
  exact ⟨ct, c, (hs.lists id ct c).mpr hc⟩

theorem getOne_spec (h : pe.Wf) (id : BitVec 128) (skip : ConnId) (filter : MatchFilter) :
    OnlyCursors pe (pe.getOne id skip filter).2 ∧
      FirstOffer (fun ct c => c ≠ skip ∧ pe.Lists id ct c) (ConnType.ALL.filter filter.includes)
        (pe.getOne id skip filter).1 := by
  unfold getOne
  cases hp : pe.position id with
  | none =>
    refine ⟨.refl pe, .of_forall_not (fun ct c hc => ?_) _⟩
    exact position_none.mp hp hc.2.mem_ids
  | some i =>
    obtain ⟨hkeep, hfirst⟩ := getOneLoop_spec pe i skip (ConnType.ALL.filter filter.includes)
    refine ⟨setLists_onlyCursors hkeep, hfirst.congr fun ct c => and_congr Iff.rfl ?_⟩
    exact (lists_at pe h.ids_nodup (position_some hp)).symm

theorem pickLoop_first (skip : ConnId) (aggs : List (List ConnId)) (cursor : UInt64) :
    FirstOffer (fun conns c => c ≠ skip ∧ c ∈ conns) aggs (pickLoop skip aggs cursor).1 := by
  induction aggs generalizing cursor with
  | nil => exact .nil
  | cons conns aggs ih =>
    -- the scan that wraps around once visits the whole list
    have hscan : ∀ start c, c ∈ conns.drop start ++ conns.take start ↔ c ∈ conns := by
      intro start c
      rw [List.mem_append, or_comm, ← List.mem_append, List.take_append_drop]
    unfold pickLoop
    split
    · dsimp only
      split
      · rename_i c hc
        have hne := List.find?_some hc
        exact .here ⟨of_decide_eq_true hne, (hscan _ c).mp (List.mem_of_find?_eq_some hc)⟩
      · rename_i hnone
        refine .later (fun c hc => ?_) (ih _)
        exact List.find?_eq_none.mp hnone c ((hscan _ c).mpr hc.2) (decide_eq_true hc.1)
    · rename_i hnil
      exact .later (fun c hc => hnil (List.length_pos_of_mem hc.2)) (ih _)

theorem pickOneAny_spec (h : pe.Wf) (skip : ConnId) (filter : MatchFilter) :
    OnlyCursors pe (pe.pickOneAny skip filter).2 ∧
      FirstOffer (fun ct c => c ≠ skip ∧ ∃ id, pe.Lists id ct c)
        (ConnType.ALL.filter filter.includes) (pe.pickOneAny skip filter).1 :=
  ⟨⟨rfl, fun _ => rfl, rfl, rfl⟩, (pickLoop_first skip _ pe.slotCursor).of_map.congr
    fun ct c => and_congr Iff.rfl (h.agg_iff ct c)⟩

end Slim.PrefixEntry
