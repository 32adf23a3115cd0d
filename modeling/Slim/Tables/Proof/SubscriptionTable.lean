import Slim.Lib.Lookup
import Slim.Tables.SubscriptionTable
import Slim.Tables.Proof.PrefixEntry

/-!
# What the writes of the subscription table do

Two relations describe a table: `t.Holds k`, a record is there, and `Routing.Lists`, a slot of the
routing snapshot lists a connection. `Inv ty t` relates them for connections of types `ty`: keys
and per-connection sets agree, entries are well-formed, and every listed connection has a record
for the slot's prefix and id. Every write keeps it (`Inv.add`, `Inv.remove`,
`Inv.removeConnection`); the spec lemmas of the three writes say what happens to the two relations.

The converse of the last part, that every record is routed (`Complete`), is kept by additions and
drops but not by every removal: see `Complete.remove`.
-/

namespace Slim

open AList PrefixEntry

/-! ## The routing snapshot -/

namespace Routing
variable {r : Routing} {pe : PrefixEntry} {q : Prefix × BitVec 128} {p p' : Prefix} {ct : ConnType}
  {c : ConnId} {id : BitVec 128}

def Lists (r : Routing) (q : Prefix × BitVec 128) (ct : ConnType) (c : ConnId) : Prop :=
  ∃ pe, r.lookup q.1 = some pe ∧ pe.Lists q.2 ct c

instance (r : Routing) (q : Prefix × BitVec 128) (ct : ConnType) (c : ConnId) :
    Decidable (r.Lists q ct c) :=
  decidable_of_iff (∃ pe ∈ r.lookup q.1, pe.Lists q.2 ct c) Iff.rfl

structure Wf (r : Routing) : Prop where
  entry : ∀ {p pe}, r.lookup p = some pe → pe.Wf
  dense : ∀ {p pe}, r.lookup p = some pe → pe.Dense
  nonempty : ∀ {p pe}, r.lookup p = some pe → pe.ids ≠ []

theorem wf_empty : Wf ∅ where
  entry := by simp
  dense := by simp
  nonempty := by simp

theorem not_lists_empty : ¬ Lists ∅ q ct c := by
  rintro ⟨pe, h, -⟩
  simp at h

theorem lookup_insert_eq : (r.insert p pe).lookup p' = if p' = p then some pe else r.lookup p' := by
  split
  · rename_i h
    rw [h, AList.lookup_insert]
  · rename_i h
    exact AList.lookup_insert_ne h

theorem lists_insert :
    Lists (r.insert p pe) q ct c ↔ if q.1 = p then pe.Lists q.2 ct c else r.Lists q ct c := by
  unfold Lists
  rw [lookup_insert_eq]
  split <;> simp

theorem lists_erase : Lists (r.erase p) q ct c ↔ q.1 ≠ p ∧ r.Lists q ct c := by
  simp only [Lists, lookup_erase_iff]
  tauto

theorem lists_entry (hl : r.lookup p = some pe) : r.Lists (p, id) ct c ↔ pe.Lists id ct c := by
  refine ⟨fun ⟨pe', hpe', hc⟩ => ?_, fun hc => ⟨pe, hl, hc⟩⟩
  rw [hl, Option.some.injEq] at hpe'
  exact hpe' ▸ hc

theorem not_lists_of_lookup (hl : r.lookup q.1 = none) : ¬ r.Lists q ct c := by
  rintro ⟨pe, hpe, -⟩
  rw [hl] at hpe
  cases hpe

theorem Wf.insert (h : r.Wf) (hw : pe.Wf) (hd : pe.Dense) (hne : pe.ids ≠ []) :
    Wf (r.insert p pe) := by
  refine ⟨fun hl => ?_, fun hl => ?_, fun hl => ?_⟩
  · obtain ⟨-, rfl⟩ | ⟨-, hl⟩ := lookup_insert_iff.mp hl
    exacts [hw, h.entry hl]
  · obtain ⟨-, rfl⟩ | ⟨-, hl⟩ := lookup_insert_iff.mp hl
    exacts [hd, h.dense hl]
  · obtain ⟨-, rfl⟩ | ⟨-, hl⟩ := lookup_insert_iff.mp hl
    exacts [hne, h.nonempty hl]

theorem Wf.erase (h : r.Wf) (p : Prefix) : Wf (r.erase p) := by
  have hsub {p' pe'} (hl : (r.erase p).lookup p' = some pe') := (lookup_erase_iff.mp hl).2
  exact ⟨fun hl => h.entry (hsub hl), fun hl => h.dense (hsub hl), fun hl => h.nonempty (hsub hl)⟩

theorem Wf.mem_ids_iff (h : r.Wf) (hl : r.lookup p = some pe) :
    id ∈ pe.ids ↔ ∃ ct c, r.Lists (p, id) ct c := by
  constructor
  · intro hid
    obtain ⟨ct, c, hc⟩ := h.dense hl id hid
    exact ⟨ct, c, pe, hl, hc⟩
  · rintro ⟨ct, c, pe', hl', hc⟩
    rw [hl, Option.some.injEq] at hl'
    exact hl' ▸ hc.mem_ids

/-- Putting back an entry that keeps well-formed and compacted, or dropping it when nothing is
left, changes the slots of its prefix only. -/
theorem putBack_spec (h : r.Wf) (p : Prefix) (hw : pe.Wf) (hd : pe.Dense) {r' : Routing}
    (hr : r' = if pe.isEmpty then r.erase p else r.insert p pe) :
    r'.Wf ∧ ∀ q ct c, r'.Lists q ct c ↔ if q.1 = p then pe.Lists q.2 ct c else r.Lists q ct c := by
  subst hr
  by_cases he : pe.isEmpty = true
  · rw [if_pos he]
    rw [PrefixEntry.isEmpty_iff] at he
    refine ⟨h.erase p, fun q ct c => ?_⟩
    rw [lists_erase]
    split
    · rename_i hq
      refine ⟨fun hc => absurd hq hc.1, fun hc => ?_⟩
      have hm := hc.mem_ids
      rw [he] at hm
      exact absurd hm List.not_mem_nil
    · rename_i hq
      exact ⟨fun hc => hc.2, fun hc => ⟨hq, hc⟩⟩
  · rw [if_neg he]
    rw [PrefixEntry.isEmpty_iff] at he
    exact ⟨h.insert hw hd he, fun q ct c => lists_insert⟩

end Routing

namespace SubscriptionTable

variable {r : Routing} {e : EncodedName} {conn : ConnId} {ct : ConnType} {name : ProtoName}

/-- `removeRoute` takes one connection out of one slot; the result says whether the slot had a
connection and has none of that type any more. -/
theorem removeRoute_spec {r' : Routing} (h : r.Wf) {last : Bool}
    (hr : removeRoute r e conn ct = (last, r')) :
    r'.Wf ∧
      (∀ q ct' c, r'.Lists q ct' c ↔ r.Lists q ct' c ∧ ¬ (q = e.route ∧ ct' = ct ∧ c = conn)) ∧
      (last = true ↔ (∃ ct' c, r.Lists e.route ct' c) ∧ ∀ c, ¬ r'.Lists e.route ct c) := by
  unfold removeRoute at hr
  split at hr
  · rename_i hl
    obtain ⟨rfl, rfl⟩ := hr
    have hno (ct' c) : ¬ r.Lists e.route ct' c := Routing.not_lists_of_lookup hl
    refine ⟨h, fun q ct' c => ⟨fun hc => ⟨hc, fun hq => ?_⟩, fun hc => hc.1⟩, ?_⟩
    · exact hno ct' c (hq.1 ▸ hc)
    · simp [hno]
  · rename_i entry hl
    rcases hrem : entry.removeConnForId e.id conn ct with ⟨last', pe⟩
    rw [hrem] at hr
    simp only [Prod.mk.injEq] at hr
    obtain ⟨rfl, hr⟩ := hr
    obtain ⟨hw, hlists, hlast, -⟩ := removeConnForId_spec (h.entry hl) hrem
    obtain ⟨hw', hd', hlists', -⟩ := retainNonEmpty_spec hw
    obtain ⟨hwf, hr'⟩ := Routing.putBack_spec h e.prefix3 hw' hd' hr.symm
    have hl2 : ∀ q ct' c, r'.Lists q ct' c ↔
        r.Lists q ct' c ∧ ¬ (q = e.route ∧ ct' = ct ∧ c = conn) := by
      rintro ⟨p, id⟩ ct' c
      rw [hr']
      split
      · rename_i hp
        subst hp
        rw [hlists', hlists]
        rw [Routing.lists_entry hl]
        simp [EncodedName.route]
      · rename_i hp
        exact ⟨fun hc => ⟨hc, fun hq => hp (congrArg Prod.fst hq.1)⟩, fun hc => hc.1⟩
    refine ⟨hwf, hl2, ?_⟩
    rw [hlast, h.mem_ids_iff hl]
    refine and_congr Iff.rfl (forall_congr' fun c => not_congr ?_)
    rw [hr' e.route, if_pos (show e.route.1 = e.prefix3 from rfl), hlists']
    rfl

theorem entryOrNew_spec (h : r.Wf) {p : Prefix} {pe : PrefixEntry}
    (he : entryOrNew r p name = .ok pe) :
    pe.Wf ∧ pe.Dense ∧ ∀ id ct c, pe.Lists id ct c ↔ r.Lists (p, id) ct c := by
  unfold entryOrNew at he
  split at he
  · rename_i entry hl
    cases he
    exact ⟨h.entry hl, h.dense hl, fun id ct c => (Routing.lists_entry hl).symm⟩
  · rename_i hl
    split at he
    · cases he
      refine ⟨wf_new _, fun id hid => by simp [PrefixEntry.new] at hid, ?_⟩
      exact fun id ct c => iff_of_false not_lists_new (Routing.not_lists_of_lookup hl)
    · cases he

/-- Adding a connection to the entry of its prefix adds it to one slot. -/
theorem insertRoute_spec (h : r.Wf) {pe pe' : PrefixEntry} {first : Bool}
    (he : entryOrNew r e.prefix3 name = .ok pe)
    (hi : pe.insertConnForId e.id conn ct = (first, pe')) :
    Routing.Wf (r.insert e.prefix3 pe') ∧
      (∀ q ct' c, Routing.Lists (r.insert e.prefix3 pe') q ct' c ↔
        r.Lists q ct' c ∨ q = e.route ∧ ct' = ct ∧ c = conn) ∧
      (first = true ↔ ∀ c, ¬ r.Lists e.route ct c) := by
  obtain ⟨hw, hd, hent⟩ := entryOrNew_spec h he
  obtain ⟨hw', hlists, hfirst, hids⟩ := insertConnForId_spec hw hi
  have hd' : pe'.Dense := fun id hid => by
    rcases (hids id).mp hid with hid | rfl
    · obtain ⟨ct', c, hc⟩ := hd id hid
      exact ⟨ct', c, (hlists id ct' c).mpr (.inl hc)⟩
    · exact ⟨ct, conn, (hlists _ ct conn).mpr (.inr ⟨rfl, rfl, rfl⟩)⟩
  have hne : pe'.ids ≠ [] := List.ne_nil_of_mem ((hids e.id).mpr (.inr rfl))
  refine ⟨h.insert hw' hd' hne, fun ⟨p, id⟩ ct' c => ?_, ?_⟩
  · rw [Routing.lists_insert]
    split
    · rename_i hp
      subst hp
      rw [hlists, hent]
      simp [EncodedName.route]
    · rename_i hp
      exact ⟨.inl, fun hc => hc.resolve_right fun hq => hp (congrArg Prod.fst hq.1)⟩
  · rw [hfirst]
    exact forall_congr' fun c => not_congr (hent e.id ct c)

end SubscriptionTable

/-! ## The subscription state -/

namespace SubscriptionState

variable {ss : SubscriptionState}

/-- Records agree with their keys, and the per-connection sets list exactly the keys. -/
structure Wf (ss : SubscriptionState) : Prop where
  record : ∀ {k r}, ss.subscriptions.lookup k = some r →
    r.encoded = k.encoded ∧ r.connId = k.connId
  mem_iff : ∀ k, k ∈ ss.subscriptions ↔ ∃ ks, ss.connSubs.lookup k.connId = some ks ∧ k ∈ ks
  conn : ∀ {c ks}, ss.connSubs.lookup c = some ks → ks ≠ [] ∧ ∀ k ∈ ks, k.connId = c

theorem wf_empty : empty.Wf where
  record := by simp [empty]
  mem_iff := by simp [empty]
  conn := by simp [empty]

theorem Wf.connStillSubscribed_iff (h : ss.Wf) {conn : ConnId} {e : EncodedName} :
    ss.connStillSubscribed conn e = true ↔
      ∃ k, k ∈ ss.subscriptions ∧ k.connId = conn ∧ k.encoded = e := by
  unfold connStillSubscribed
  split
  · rename_i hl
    simp only [Bool.false_eq_true, false_iff, not_exists]
    rintro k ⟨hk, rfl, -⟩
    obtain ⟨ks, hks, -⟩ := (h.mem_iff k).mp hk
    rw [hl] at hks
    cases hks
  · rename_i ks hl
    simp only [List.any_eq_true, beq_iff_eq]
    constructor
    · rintro ⟨k, hk, he⟩
      have hc := (h.conn hl).2 k hk
      exact ⟨k, (h.mem_iff k).mpr ⟨ks, hc ▸ hl, hk⟩, hc, he⟩
    · rintro ⟨k, hk, rfl, he⟩
      obtain ⟨ks', hks', hk'⟩ := (h.mem_iff k).mp hk
      rw [hl, Option.some.injEq] at hks'
      exact ⟨k, hks' ▸ hk', he⟩

theorem Wf.add (h : ss.Wf) (sid : SubId) (record : SubRecord) : (ss.add sid record).Wf := by
  have hset : ∀ k, k.connId = record.connId →
      (k ∈ (ss.connSubs.lookup record.connId).getD [] ↔ k ∈ ss.subscriptions) := fun k hk => by
    rw [h.mem_iff, hk]
    cases ss.connSubs.lookup record.connId <;> simp
  refine ⟨fun {k r} hl => ?_, fun k => ?_, fun {c ks} hl => ?_⟩
  · obtain ⟨rfl, rfl⟩ | ⟨-, hl⟩ := lookup_insert_iff.mp hl
    · exact ⟨rfl, rfl⟩
    · exact h.record hl
  · simp only [SubscriptionState.add, AList.mem_insert]
    by_cases hc : k.connId = record.connId
    · rw [hc, AList.lookup_insert]
      simp only [Option.some.injEq, exists_eq_left', Vec.mem_pushNew, hset k hc]
      exact or_comm
    · rw [AList.lookup_insert_ne hc, ← h.mem_iff]
      exact ⟨fun hk => hk.resolve_left fun e => hc (e ▸ rfl), .inr⟩
  · by_cases hc : c = record.connId
    · subst hc
      simp only [SubscriptionState.add, AList.lookup_insert, Option.some.injEq] at hl
      subst hl
      refine ⟨List.ne_nil_of_mem (Vec.mem_pushNew.mpr (.inr rfl)), fun k hk => ?_⟩
      rcases Vec.mem_pushNew.mp hk with hk | rfl
      · cases hlk : ss.connSubs.lookup record.connId with
        | none => simp [hlk] at hk
        | some ks => rw [hlk] at hk; exact (h.conn hlk).2 k hk
      · rfl
    · simp only [SubscriptionState.add, AList.lookup_insert_ne hc] at hl
      exact h.conn hl

/-- Removing a record: nothing happens when it is absent, else exactly its key goes. -/
theorem Wf.remove {ss' : SubscriptionState} (h : ss.Wf) {key : SubKey} {r : Option SubRecord}
    (hr : ss.remove key = (r, ss')) :
    (r = none ∧ key ∉ ss.subscriptions ∧ ss' = ss) ∨
      (r.isSome ∧ key ∈ ss.subscriptions ∧ ss'.Wf ∧
        (∀ k, k ∈ ss'.subscriptions ↔ k ∈ ss.subscriptions ∧ k ≠ key) ∧
        ∀ k, k ≠ key → ss'.subscriptions.lookup k = ss.subscriptions.lookup k) := by
  unfold SubscriptionState.remove at hr
  split at hr
  · rename_i hl
    simp only [Prod.mk.injEq] at hr
    exact .inl ⟨hr.1.symm, AList.lookup_eq_none.mp hl, hr.2.symm⟩
  · rename_i record hl
    have hmem : key ∈ ss.subscriptions := AList.lookup_isSome.mp (by rw [hl]; rfl)
    obtain ⟨ks, hks, hk⟩ := (h.mem_iff key).mp hmem
    simp only [hks] at hr
    obtain ⟨rfl, rfl⟩ := hr
    have herase : ∀ k, k ∈ ss.subscriptions.erase key ↔ k ∈ ss.subscriptions ∧ k ≠ key :=
      fun k => by rw [AList.mem_erase, and_comm]
    refine .inr ⟨rfl, hmem, ⟨fun {k r} hlk => ?_, fun k => ?_, fun {c ks'} hlc => ?_⟩, herase,
      fun k hne => AList.lookup_erase_ne hne⟩
    · exact h.record (lookup_erase_iff.mp hlk).2
    · rw [herase, h.mem_iff]
      by_cases hc : k.connId = key.connId
      · rw [hc, hks]
        split
        · rename_i hemp
          simp only [List.isEmpty_iff, List.filter_eq_nil_iff, decide_not, Bool.not_eq_true',
            decide_eq_false_iff_not, not_not] at hemp
          simp only [Option.some.injEq, exists_eq_left', AList.lookup_erase, reduceCtorEq,
            false_and, exists_false, iff_false, not_and, not_not]
          exact hemp k
        · simp
      · have hne : k ≠ key := fun e => hc (e ▸ rfl)
        split
        · rw [AList.lookup_erase_ne hc]
          exact ⟨fun hkk => hkk.1, fun hkk => ⟨hkk, hne⟩⟩
        · rw [AList.lookup_insert_ne hc]
          exact ⟨fun hkk => hkk.1, fun hkk => ⟨hkk, hne⟩⟩
    · split at hlc
      · exact h.conn (lookup_erase_iff.mp hlc).2
      · rename_i hemp
        obtain ⟨rfl, rfl⟩ | ⟨-, hlc⟩ := lookup_insert_iff.mp hlc
        · exact ⟨by simpa using hemp, fun k hk => (h.conn hks).2 k (List.mem_filter.mp hk).1⟩
        · exact h.conn hlc

end SubscriptionState

/-! ## The table -/

namespace SubscriptionTable
variable {conn : ConnId} {e : EncodedName} {sid : SubId} {name : ProtoName} {filter : MatchFilter}
  {incoming c : ConnId} {res : Except (Fault DataPathError) Bool} {first last : Bool}
  {ct : ConnType} {k : SubKey} {r : Routing} {ty' : ConnId → ConnType}

def Holds (t : SubscriptionTable) (k : SubKey) : Prop := k ∈ t.state.subscriptions

instance (t : SubscriptionTable) (k : SubKey) : Decidable (t.Holds k) :=
  inferInstanceAs (Decidable (k ∈ t.state.subscriptions.keys))

instance (t : SubscriptionTable) (p : SubKey → Prop) [DecidablePred p] :
    Decidable (∀ k, t.Holds k → p k) :=
  inferInstanceAs (Decidable (∀ k ∈ t.state.subscriptions.keys, p k))

instance (t : SubscriptionTable) (p : SubKey → Prop) [DecidablePred p] :
    Decidable (∃ k, t.Holds k ∧ p k) :=
  inferInstanceAs (Decidable (∃ k ∈ t.state.subscriptions.keys, p k))

/-- The invariant for connections of types `ty`. -/
structure Inv (ty : ConnId → ConnType) (t : SubscriptionTable) : Prop where
  routing : t.routing.Wf
  state : t.state.Wf
  category : ∀ {k r}, t.state.subscriptions.lookup k = some r → r.category = ty k.connId
  type : ∀ {q ct c}, t.routing.Lists q ct c → ct = ty c
  held : ∀ {q ct c}, t.routing.Lists q ct c →
    ∃ k, t.Holds k ∧ k.connId = c ∧ k.encoded.route = q

/-- Every record is routed. -/
def Complete (ty : ConnId → ConnType) (t : SubscriptionTable) : Prop :=
  ∀ k, t.Holds k → t.routing.Lists k.encoded.route (ty k.connId) k.connId

theorem not_holds_empty (k : SubKey) : ¬ empty.Holds k := AList.notMem_empty k

theorem inv_empty (ty : ConnId → ConnType) : empty.Inv ty where
  routing := Routing.wf_empty
  state := SubscriptionState.wf_empty
  category := by simp [empty, SubscriptionState.empty]
  type := fun h => absurd h Routing.not_lists_empty
  held := fun h => absurd h Routing.not_lists_empty

theorem complete_empty (ty : ConnId → ConnType) : empty.Complete ty :=
  fun k hk => absurd hk (not_holds_empty k)

variable {ty : ConnId → ConnType} {t t' : SubscriptionTable}

/-- Only the types of connections that hold records matter. -/
theorem Inv.congr (h : t.Inv ty) (hty : ∀ k, t.Holds k → ty' k.connId = ty k.connId) :
    t.Inv ty' where
  routing := h.routing
  state := h.state
  category := fun {k r} hl => by
    rw [h.category hl, hty k (AList.lookup_isSome.mp (by rw [hl]; rfl))]
  type := fun {q ct c} hl => by
    obtain ⟨k, hk, rfl, -⟩ := h.held hl
    rw [h.type hl, hty k hk]
  held := h.held

theorem Complete.congr (h : t.Complete ty) (hty : ∀ k, t.Holds k → ty' k.connId = ty k.connId) :
    t.Complete ty' := fun k hk => by
  rw [hty k hk]
  exact h k hk

/-! ### Frames

What the writes do to the records of any table. -/

theorem lookup_add (t : SubscriptionTable) (name : ProtoName) (conn : ConnId) (ct : ConnType)
    (sid : SubId) (hk : ∀ e, name.name = some e → k ≠ ⟨conn, sid, e⟩) :
    (t.addSubscription name conn ct sid).2.state.subscriptions.lookup k =
      t.state.subscriptions.lookup k := by
  unfold addSubscription
  split
  · rfl
  · rename_i e he
    split
    · rfl
    · exact AList.lookup_insert_ne (hk e he)

theorem lookup_remove (t : SubscriptionTable) (name : ProtoName) (conn : ConnId) (ct : ConnType)
    (sid : SubId) (hk : ∀ e, name.name = some e → k ≠ ⟨conn, sid, e⟩) :
    (t.removeSubscription name conn ct sid).2.state.subscriptions.lookup k =
      t.state.subscriptions.lookup k := by
  have hrem : ∀ key, k ≠ key →
      (t.state.remove key).2.subscriptions.lookup k = t.state.subscriptions.lookup k := by
    intro key hne
    unfold SubscriptionState.remove
    split
    · rfl
    · exact AList.lookup_erase_ne hne
  unfold removeSubscription
  split
  · rfl
  · rename_i e he
    have hst := hrem _ (hk e he)
    split
    · rfl
    · split
      · rfl
      · rcases hr : t.state.remove ⟨conn, sid, e⟩ with ⟨r, ss⟩
        rw [hr] at hst
        cases r with
        | none => exact hst
        | some rec =>
          dsimp only
          split <;> exact hst

theorem held_of_remove {b : Bool} (hr : (t.removeSubscription name conn ct sid).1 = .ok b) :
    ∃ e, name.name = some e ∧ t.Holds ⟨conn, sid, e⟩ := by
  unfold removeSubscription at hr
  split at hr
  · cases hr
  · rename_i e he
    refine ⟨e, he, ?_⟩
    split at hr
    · cases hr
    · split at hr
      · cases hr
      · by_contra hno
        have hl : t.state.subscriptions.lookup ⟨conn, sid, e⟩ = none := AList.lookup_eq_none.mpr hno
        simp only [SubscriptionState.remove, hl] at hr
        cases hr

/-! ### Addition -/

/-- What an accepted addition does. -/
structure Added (ty : ConnId → ConnType) (t t' : SubscriptionTable) (e : EncodedName)
    (conn : ConnId) (sid : SubId) (first : Bool) : Prop where
  inv : t'.Inv ty
  holds : ∀ k, t'.Holds k ↔ t.Holds k ∨ k = ⟨conn, sid, e⟩
  lists : ∀ q ct c, t'.routing.Lists q ct c ↔
    t.routing.Lists q ct c ∨ q = e.route ∧ ct = ty conn ∧ c = conn
  first_iff : first = true ↔ ∀ c, ¬ t.routing.Lists e.route (ty conn) c

/-- **An addition** is accepted, or panics on a name without the part it needs and changes
nothing. -/
theorem Inv.add (h : t.Inv ty) (hr : t.addSubscription name conn (ty conn) sid = (res, t')) :
    (∃ msg, res = .error (.panic msg) ∧ t' = t ∧ ∀ e, name.name = some e →
      name.strName = none ∧ t.routing.lookup e.prefix3 = none) ∨
      ∃ e first, name.name = some e ∧ res = .ok first ∧ Added ty t t' e conn sid first := by
  unfold addSubscription at hr
  split at hr
  · rename_i hn
    simp only [Prod.mk.injEq] at hr
    exact .inl ⟨_, hr.1.symm, hr.2.symm, fun e he => by rw [hn] at he; cases he⟩
  · rename_i e hn
    split at hr
    · rename_i f he
      obtain ⟨rfl, rfl⟩ := hr
      unfold entryOrNew at he
      split at he
      · cases he
      · rename_i hl
        split at he
        · cases he
        · rename_i hs
          cases he
          refine .inl ⟨_, rfl, rfl, fun e' he' => ⟨hs, ?_⟩⟩
          rw [hn, Option.some.injEq] at he'
          rw [← he', hl]
    · rename_i pe he
      rcases hi : pe.insertConnForId e.id conn (ty conn) with ⟨first, pe'⟩
      obtain ⟨hw, hlists, hfirst⟩ := insertRoute_spec h.routing he hi
      simp only [hi] at hr
      obtain ⟨rfl, rfl⟩ := hr
      have hholds : ∀ k, k ∈ (t.state.add sid ⟨e, conn, ty conn⟩).subscriptions ↔
          t.Holds k ∨ k = ⟨conn, sid, e⟩ := fun k => by
        simp only [SubscriptionState.add, AList.mem_insert]
        exact or_comm
      refine .inr ⟨e, first, hn, rfl, ⟨hw, h.state.add _ _, fun {k r} hl => ?_,
        fun {q ct c} hc => ?_, fun {q ct c} hc => ?_⟩, hholds, hlists, hfirst⟩
      · obtain ⟨rfl, rfl⟩ | ⟨-, hl⟩ := lookup_insert_iff.mp hl
        · rfl
        · exact h.category hl
      · rcases (hlists q ct c).mp hc with hc | ⟨-, rfl, rfl⟩
        · exact h.type hc
        · rfl
      · rcases (hlists q ct c).mp hc with hc | ⟨rfl, -, rfl⟩
        · obtain ⟨k, hk, hkc, hkq⟩ := h.held hc
          exact ⟨k, (hholds k).mpr (.inl hk), hkc, hkq⟩
        · exact ⟨⟨_, sid, e⟩, (hholds _).mpr (.inr rfl), rfl, rfl⟩

theorem Added.complete (h : Added ty t t' e conn sid first) (hc : t.Complete ty) :
    t'.Complete ty := fun k hk => by
  rw [h.lists]
  rcases (h.holds k).mp hk with hk | rfl
  · exact .inl (hc k hk)
  · exact .inr ⟨rfl, rfl, rfl⟩

/-! ### Removal -/

/-- `conn` has a record with the encoding `e`. -/
def StillSubscribed (t : SubscriptionTable) (conn : ConnId) (e : EncodedName) : Prop :=
  ∃ k, t.Holds k ∧ k.connId = conn ∧ k.encoded = e

/-- What an accepted removal does. -/
structure Removed (ty : ConnId → ConnType) (t t' : SubscriptionTable) (e : EncodedName)
    (conn : ConnId) (sid : SubId) (last : Bool) : Prop where
  inv : t'.Inv ty
  held : t.Holds ⟨conn, sid, e⟩
  routed : ∃ ct c, t.routing.Lists e.route ct c
  holds : ∀ k, t'.Holds k ↔ t.Holds k ∧ k ≠ ⟨conn, sid, e⟩
  lists : ∀ q ct c, t'.routing.Lists q ct c ↔ t.routing.Lists q ct c ∧
    ¬ (q = e.route ∧ ct = ty conn ∧ c = conn ∧ ¬ t'.StillSubscribed conn e)
  last_iff : last = true ↔
    ¬ t'.StillSubscribed conn e ∧ ∀ c, ¬ t'.routing.Lists e.route (ty conn) c

/-- **A removal** is accepted, or changes nothing. It is refused only for a name without an
encoding, a name without routes or an absent record. -/
theorem Inv.remove (h : t.Inv ty) (hr : t.removeSubscription name conn (ty conn) sid = (res, t')) :
    (∃ f, res = .error f ∧ t' = t ∧ ∀ e, name.name = some e → t.Holds ⟨conn, sid, e⟩ →
      ∀ ct c, ¬ t.routing.Lists e.route ct c) ∨
      ∃ e last, name.name = some e ∧ res = .ok last ∧ Removed ty t t' e conn sid last := by
  unfold removeSubscription at hr
  split at hr
  · rename_i hn
    simp only [Prod.mk.injEq] at hr
    exact .inl ⟨_, hr.1.symm, hr.2.symm, fun e he => by rw [hn] at he; cases he⟩
  · rename_i e hn
    have hname {e'} (he : name.name = some e') : e = e' := Option.some.inj (hn.symm.trans he)
    split at hr
    · rename_i hl
      simp only [Prod.mk.injEq] at hr
      refine .inl ⟨_, hr.1.symm, hr.2.symm, fun e' he _ ct c => ?_⟩
      obtain rfl := hname he
      exact Routing.not_lists_of_lookup hl
    · rename_i entry hl
      split at hr
      · rename_i hid
        simp only [Prod.mk.injEq] at hr
        refine .inl ⟨_, hr.1.symm, hr.2.symm, fun e' he _ ct c hc => ?_⟩
        obtain rfl := hname he
        exact hid (hasId_iff.mpr ((h.routing.mem_ids_iff hl).mpr ⟨ct, c, hc⟩))
      · rename_i hid
        rw [not_not, hasId_iff, h.routing.mem_ids_iff hl] at hid
        rcases hrem : t.state.remove ⟨conn, sid, e⟩ with ⟨r, ss⟩
        rw [hrem] at hr
        rcases h.state.remove hrem with ⟨rfl, hk, rfl⟩ | ⟨hsome, hk, hwf, hmem, hlook⟩
        · simp only [Prod.mk.injEq] at hr
          refine .inl ⟨_, hr.1.symm, hr.2.symm, fun e' he hk' => ?_⟩
          obtain rfl := hname he
          exact absurd hk' hk
        · obtain ⟨record, rfl⟩ := Option.isSome_iff_exists.mp hsome
          refine .inr ⟨e, ?_⟩
          have hcat : ∀ {k r}, ss.subscriptions.lookup k = some r → r.category = ty k.connId :=
            fun {k r} hlk => h.category (by
              rwa [← hlook k ((hmem k).mp (AList.lookup_isSome.mp (by rw [hlk]; rfl))).2])
          have hstill : ss.connStillSubscribed conn e = true ↔
              ∃ k, k ∈ ss.subscriptions ∧ k.connId = conn ∧ k.encoded = e :=
            hwf.connStillSubscribed_iff
          -- a listed connection other than the one that left keeps the record it had
          have hheld : ∀ {q ct c}, t.routing.Lists q ct c →
              ¬ (q = e.route ∧ c = conn ∧ ¬ ∃ k, k ∈ ss.subscriptions ∧ k.connId = conn ∧
                k.encoded = e) → ∃ k, k ∈ ss.subscriptions ∧ k.connId = c ∧ k.encoded.route = q :=
            fun {q ct c} hc hno => by
              obtain ⟨k, hk, rfl, rfl⟩ := h.held hc
              by_cases hke : k = ⟨conn, sid, e⟩
              · subst hke
                have := not_not.mp fun hs => hno ⟨rfl, rfl, hs⟩
                obtain ⟨k', hk', hc', he'⟩ := this
                exact ⟨k', hk', hc', by rw [he']⟩
              · exact ⟨k, (hmem k).mpr ⟨hk, hke⟩, rfl, rfl⟩
          by_cases hs : ss.connStillSubscribed conn e = true
          · simp only [hs] at hr
            obtain ⟨rfl, rfl⟩ := hr
            rw [hstill] at hs
            refine ⟨false, hn, rfl, ⟨h.routing, hwf, hcat, h.type, fun hc =>
              hheld hc fun hq => hq.2.2 hs⟩, hk, hid, hmem, fun q ct c => ?_, ?_⟩
            · exact ⟨fun hc => ⟨hc, fun hq => hq.2.2.2 hs⟩, fun hc => hc.1⟩
            · simp only [Bool.false_eq_true, false_iff, not_and]
              exact fun hs' => absurd hs hs'
          · rcases hrr : removeRoute t.routing e conn (ty conn) with ⟨last, routing⟩
            simp only [hs, hrr] at hr
            obtain ⟨rfl, rfl⟩ := hr
            rw [hstill] at hs
            obtain ⟨hw', hl', hlast⟩ := removeRoute_spec h.routing hrr
            refine ⟨last, hn, rfl, ⟨hw', hwf, hcat, fun hc => h.type ((hl' _ _ _).mp hc).1,
              fun {q ct c} hc => ?_⟩, hk, hid, hmem, fun q ct c => ?_, ?_⟩
            · obtain ⟨hc, hq⟩ := (hl' q ct c).mp hc
              refine hheld hc fun ⟨hq1, hq2, _⟩ => hq ⟨hq1, ?_, hq2⟩
              rw [h.type hc, hq2]
            · rw [hl']
              refine and_congr Iff.rfl (not_congr ⟨fun ⟨h1, h2, h3⟩ => ⟨h1, h2, h3, hs⟩, ?_⟩)
              exact fun ⟨h1, h2, h3, _⟩ => ⟨h1, h2, h3⟩
            · rw [hlast]
              exact ⟨fun hh => ⟨hs, hh.2⟩, fun hh => ⟨hid, hh.2⟩⟩

/-- Removing the record, if it is there, does not leave its connection with records of the same
prefix and id in other encodings only. -/
def KeepsEncoding (t : SubscriptionTable) (key : SubKey) : Prop :=
  t.Holds key →
  (∃ k, t.Holds k ∧ k ≠ key ∧ k.connId = key.connId ∧ k.encoded.route = key.encoded.route) →
    ∃ k, t.Holds k ∧ k ≠ key ∧ k.connId = key.connId ∧ k.encoded = key.encoded

instance (t : SubscriptionTable) (key : SubKey) : Decidable (t.KeepsEncoding key) :=
  inferInstanceAs (Decidable (_ → _ → _))

theorem Removed.complete (h : Removed ty t t' e conn sid last) (hc : t.Complete ty)
    (hk : t.KeepsEncoding ⟨conn, sid, e⟩) : t'.Complete ty := by
  intro k hk'
  obtain ⟨hh, hne⟩ := (h.holds k).mp hk'
  rw [h.lists]
  refine ⟨hc k hh, ?_⟩
  rintro ⟨hq, -, rfl, hs⟩
  obtain ⟨k', hk1, hk2, hk3, hk4⟩ := hk h.held ⟨k, hh, hne, rfl, hq⟩
  exact hs ⟨k', (h.holds k').mpr ⟨hk1, hk2⟩, hk3, hk4⟩

/-- With every record routed, a removal is refused exactly when the record is absent. -/
theorem Inv.remove_complete (h : t.Inv ty) (hc : t.Complete ty)
    (hr : t.removeSubscription name conn (ty conn) sid = (res, t')) :
    (∃ f, res = .error f ∧ t' = t ∧ ∀ e, name.name = some e → ¬ t.Holds ⟨conn, sid, e⟩) ∨
      ∃ e last, name.name = some e ∧ res = .ok last ∧ Removed ty t t' e conn sid last := by
  rcases h.remove hr with ⟨f, hf, ht, hno⟩ | hok
  · exact .inl ⟨f, hf, ht, fun e he hk => hno e he hk _ _ (hc _ hk)⟩
  · exact .inr hok

/-! ### Dropping a connection -/

section
variable {calculateHash : String → UInt64}

theorem dropKey_spec (calculateHash : String → UInt64) (r : Routing) (s : DropScan) (key : SubKey) :
    (∀ k, (dropKey calculateHash r s key).subscriptions.lookup k =
        if k = key then none else s.subscriptions.lookup k) ∧
      (∀ e, e ∈ (dropKey calculateHash r s key).encodedNames ↔ e ∈ s.encodedNames ∨
        ∃ rec, s.subscriptions.lookup key = some rec ∧ rec.encoded = e) ∧
      (∀ n, n ∈ (dropKey calculateHash r s key).result ↔ n ∈ s.result ∨
        ∃ rec, s.subscriptions.lookup key = some rec ∧ recordName calculateHash r rec = n) := by
  unfold dropKey
  cases hl : s.subscriptions.lookup key with
  | none =>
    refine ⟨fun k => ?_, by simp, by simp⟩
    by_cases hk : k = key
    · subst hk; simp [hl]
    · simp [hk]
  | some rec =>
    refine ⟨fun k => ?_, fun e => ?_, fun n => ?_⟩
    · by_cases hk : k = key
      · subst hk; simp
      · simp [hk]
    · simp [eq_comm]
    · simp only [AList.mem_insert, Option.some.injEq, exists_eq_left']
      rw [or_comm, eq_comm]

/-- Whether the first key is looked up before or after the others makes no difference. -/
theorem exists_lookup_cons {m : AList fun _ : SubKey => SubRecord} {key : SubKey}
    {keys : List SubKey} {p : SubRecord → Prop} :
    ((∃ rec, m.lookup key = some rec ∧ p rec) ∨
      ∃ k ∈ keys, ∃ rec, (if k = key then none else m.lookup k) = some rec ∧ p rec) ↔
      ∃ k ∈ key :: keys, ∃ rec, m.lookup k = some rec ∧ p rec := by
  constructor
  · rintro (⟨rec, hl, hp⟩ | ⟨k, hk, rec, hl, hp⟩)
    · exact ⟨key, List.mem_cons_self, rec, hl, hp⟩
    · split at hl
      · cases hl
      · exact ⟨k, List.mem_cons_of_mem _ hk, rec, hl, hp⟩
  · rintro ⟨k, hk, rec, hl, hp⟩
    by_cases hkk : k = key
    · exact .inl ⟨rec, hkk ▸ hl, hp⟩
    · refine .inr ⟨k, (List.mem_cons.mp hk).resolve_left hkk, rec, ?_, hp⟩
      rw [if_neg hkk, hl]

/-- What the first pass of `remove_connection` has collected after some keys. -/
theorem dropScan_spec (calculateHash : String → UInt64) (r : Routing) (keys : List SubKey)
    (s : DropScan) :
    (∀ k, (keys.foldl (dropKey calculateHash r) s).subscriptions.lookup k =
        if k ∈ keys then none else s.subscriptions.lookup k) ∧
      (∀ e, e ∈ (keys.foldl (dropKey calculateHash r) s).encodedNames ↔ e ∈ s.encodedNames ∨
        ∃ k ∈ keys, ∃ rec, s.subscriptions.lookup k = some rec ∧ rec.encoded = e) ∧
      (∀ n, n ∈ (keys.foldl (dropKey calculateHash r) s).result ↔ n ∈ s.result ∨
        ∃ k ∈ keys, ∃ rec, s.subscriptions.lookup k = some rec ∧
          recordName calculateHash r rec = n) := by
  induction keys generalizing s with
  | nil => simp
  | cons key keys ih =>
    simp only [List.foldl_cons]
    obtain ⟨h1, h2, h3⟩ := ih (dropKey calculateHash r s key)
    obtain ⟨e1, e2, e3⟩ := dropKey_spec calculateHash r s key
    refine ⟨fun k => ?_, fun e => ?_, fun n => ?_⟩
    · rw [h1, e1]
      by_cases hk : k = key <;> by_cases hk' : k ∈ keys <;> simp [hk']
    · simp only [h2, e2, e1, or_assoc, exists_lookup_cons]
    · simp only [h3, e3, e1, or_assoc, exists_lookup_cons]

/-- The second pass takes `conn` out of the slots of the collected encodings. -/
theorem foldl_removeRoute_spec (conn : ConnId) (ct : ConnType) (es : List EncodedName) (h : r.Wf) :
    Routing.Wf (es.foldl (fun rs e => (removeRoute rs e conn ct).2) r) ∧
      ∀ q ct' c, Routing.Lists (es.foldl (fun rs e => (removeRoute rs e conn ct).2) r) q ct' c ↔
        r.Lists q ct' c ∧ ¬ ((∃ e ∈ es, e.route = q) ∧ ct' = ct ∧ c = conn) := by
  induction es generalizing r with
  | nil => simpa using h
  | cons e es ih =>
    obtain ⟨hw, hl, -⟩ := removeRoute_spec h (Prod.eta (removeRoute r e conn ct)).symm
    obtain ⟨hw', hl'⟩ := ih hw
    refine ⟨hw', fun q ct' c => ?_⟩
    simp only [List.foldl_cons, List.mem_cons, exists_eq_or_imp]
    rw [hl', hl]
    by_cases hq : q = e.route
    · subst hq
      simp only [true_and, true_or, and_assoc]
      refine and_congr Iff.rfl ⟨fun hh => hh.1, fun hh => ⟨hh, fun hx => hh hx.2⟩⟩
    · simp [hq, Ne.symm hq]

/-- What dropping `conn` under the category `cat` does. -/
structure Dropped (calculateHash : String → UInt64) (t t' : SubscriptionTable) (conn : ConnId)
    (cat : ConnType) (lost : LostSubscriptions) : Prop where
  routing : t'.routing.Wf
  state : t'.state.Wf
  held : ∃ k, t.Holds k ∧ k.connId = conn
  lookup : ∀ k, t'.state.subscriptions.lookup k =
    if k.connId = conn then none else t.state.subscriptions.lookup k
  lists : ∀ q ct c, t'.routing.Lists q ct c ↔
    t.routing.Lists q ct c ∧ ¬ (ct = cat ∧ c = conn)
  mem_lost : ∀ n, n ∈ lost ↔ ∃ k rec, t.state.subscriptions.lookup k = some rec ∧
    k.connId = conn ∧ recordName calculateHash t.routing rec = n

/-- **Dropping a connection**: refused when it has no record, else its records and its routes
under the given category go. -/
theorem Inv.removeConnection (h : t.Inv ty) {cat : ConnType}
    {res : Except (Fault DataPathError) LostSubscriptions}
    (hr : t.removeConnection calculateHash conn cat = (res, t')) :
    (res = .error (.err (.ConnectionIdNotFound conn)) ∧ t' = t ∧
        ∀ k, t.Holds k → k.connId ≠ conn) ∨
      ∃ lost, res = .ok lost ∧ Dropped calculateHash t t' conn cat lost := by
  unfold SubscriptionTable.removeConnection at hr
  split at hr
  · rename_i hl
    simp only [Prod.mk.injEq] at hr
    refine .inl ⟨hr.1.symm, hr.2.symm, fun k hk hc => ?_⟩
    obtain ⟨ks, hks, -⟩ := (h.state.mem_iff k).mp hk
    rw [hc, hl] at hks
    cases hks
  · rename_i keys hl
    obtain ⟨rfl, rfl⟩ := hr
    obtain ⟨h1, h2, h3⟩ := dropScan_spec calculateHash t.routing keys
      ⟨t.state.subscriptions, ∅, []⟩
    obtain ⟨hne, hconn⟩ := h.state.conn hl
    have hkeys : ∀ k, k ∈ keys ↔ t.Holds k ∧ k.connId = conn := fun k => by
      constructor
      · intro hk
        have hc := hconn k hk
        exact ⟨(h.state.mem_iff k).mpr ⟨keys, hc ▸ hl, hk⟩, hc⟩
      · rintro ⟨hk, rfl⟩
        obtain ⟨ks, hks, hk⟩ := (h.state.mem_iff k).mp hk
        rw [hl, Option.some.injEq] at hks
        exact hks ▸ hk
    have hmem : ∀ {k rec}, t.state.subscriptions.lookup k = some rec → t.Holds k :=
      fun hlk => AList.lookup_isSome.mp (by rw [hlk]; rfl)
    have hlook : ∀ k, (keys.foldl (dropKey calculateHash t.routing)
          ⟨t.state.subscriptions, ∅, []⟩).subscriptions.lookup k =
        if k.connId = conn then none else t.state.subscriptions.lookup k := fun k => by
      rw [h1]
      by_cases hc : k.connId = conn
      · split
        · rfl
        · rename_i hk
          exact AList.lookup_eq_none.mpr fun hh => hk ((hkeys k).mpr ⟨hh, hc⟩)
      · rw [if_neg hc, if_neg fun hk => hc ((hkeys k).mp hk).2]
    obtain ⟨hw, hlists⟩ := foldl_removeRoute_spec conn cat (keys.foldl
      (dropKey calculateHash t.routing) ⟨t.state.subscriptions, ∅, []⟩).encodedNames h.routing
    refine .inr ⟨_, rfl, hw, ⟨fun {k rec} hlk => ?_, fun k => ?_, fun {c ks} hlc => ?_⟩, ?_, hlook,
      fun q ct c => ?_, fun n => ?_⟩
    · rw [hlook] at hlk
      split at hlk
      · cases hlk
      · exact h.state.record hlk
    · rw [← AList.lookup_isSome, hlook]
      by_cases hc : k.connId = conn
      · subst hc; simp
      · rw [if_neg hc, AList.lookup_isSome, h.state.mem_iff, AList.lookup_erase_ne hc]
    · exact h.state.conn (lookup_erase_iff.mp hlc).2
    · obtain ⟨k, hk⟩ := List.exists_mem_of_ne_nil _ hne
      exact ⟨k, (hkeys k).mp hk⟩
    · rw [hlists]
      refine and_congr_right fun hc => not_congr ⟨fun hh => hh.2, fun ⟨hct, hcc⟩ => ?_⟩
      -- a listed connection has a record for the slot, and the record's key was scanned
      obtain ⟨k, hk, hkc, hkq⟩ := h.held hc
      obtain ⟨rec, hrec⟩ := Option.isSome_iff_exists.mp (AList.lookup_isSome.mpr hk)
      refine ⟨⟨k.encoded, (h2 _).mpr (.inr ⟨k, (hkeys k).mpr ⟨hk, hkc.trans hcc⟩, rec, hrec, ?_⟩),
        hkq⟩, hct, hcc⟩
      exact (h.state.record hrec).1
    · rw [h3]
      constructor
      · rintro (hn | ⟨k, hk, rec, hrec, hn⟩)
        · exact absurd hn (AList.notMem_empty n)
        · exact ⟨k, rec, hrec, ((hkeys k).mp hk).2, hn⟩
      · rintro ⟨k, rec, hrec, hc, hn⟩
        exact .inr ⟨k, (hkeys k).mpr ⟨hmem hrec, hc⟩, rec, hrec, hn⟩

variable {conn : ConnId} {lost : LostSubscriptions}

theorem Dropped.holds {cat : ConnType} (h : Dropped calculateHash t t' conn cat lost) (k : SubKey) :
    t'.Holds k ↔ t.Holds k ∧ k.connId ≠ conn := by
  unfold Holds
  rw [← AList.lookup_isSome, h.lookup, ← AList.lookup_isSome]
  by_cases hc : k.connId = conn <;> simp [hc]

section
variable (h : Dropped calculateHash t t' conn (ty conn) lost)
include h

/-- Dropped under the type its records were added with, the connection is gone from every slot. -/
theorem Dropped.not_lists (hi : t.Inv ty)
    (q : Prefix × BitVec 128) (ct : ConnType) : ¬ t'.routing.Lists q ct conn := fun hc => by
  obtain ⟨hc, hno⟩ := (h.lists q ct conn).mp hc
  exact hno ⟨hi.type hc, rfl⟩

theorem Dropped.inv (hi : t.Inv ty) :
    t'.Inv ty where
  routing := h.routing
  state := h.state
  category := fun {k rec} hl => by
    rw [h.lookup] at hl
    split at hl
    · cases hl
    · exact hi.category hl
  type := fun hc => hi.type ((h.lists _ _ _).mp hc).1
  held := fun {q ct c} hc => by
    obtain ⟨k, hk, rfl, hkq⟩ := hi.held ((h.lists q ct c).mp hc).1
    refine ⟨k, (h.holds k).mpr ⟨hk, fun he => ?_⟩, rfl, hkq⟩
    rw [he] at hc
    exact h.not_lists hi q ct hc

theorem Dropped.complete
    (hc : t.Complete ty) : t'.Complete ty := fun k hk => by
  obtain ⟨hk, hne⟩ := (h.holds k).mp hk
  exact (h.lists _ _ _).mpr ⟨hc k hk, fun hh => hne hh.2⟩

end

end

/-! ### Well-formed routing

The routing snapshot stays well-formed whatever type a connection is filed or dropped under. -/

theorem routing_add (h : t.routing.Wf) (name : ProtoName) (conn : ConnId) (ct : ConnType)
    (sid : SubId) : (t.addSubscription name conn ct sid).2.routing.Wf := by
  unfold addSubscription
  split
  · exact h
  · split
    · exact h
    · rename_i e _ pe he
      exact (insertRoute_spec h he rfl).1

theorem routing_remove (h : t.routing.Wf) (name : ProtoName) (conn : ConnId) (ct : ConnType)
    (sid : SubId) : (t.removeSubscription name conn ct sid).2.routing.Wf := by
  unfold removeSubscription
  split
  · exact h
  · split
    · exact h
    · split
      · exact h
      · split
        · exact h
        · split
          · exact h
          · exact (removeRoute_spec h rfl).1

theorem routing_removeConnection (calculateHash : String → UInt64) (h : t.routing.Wf)
    (conn : ConnId) (ct : ConnType) : (t.removeConnection calculateHash conn ct).2.routing.Wf := by
  unfold removeConnection
  split
  · exact h
  · exact (foldl_removeRoute_spec conn ct _ h).1

/-! ### Matching -/

/-- What `match_all` collects before it turns an empty result into an error. -/
def candidates (t : SubscriptionTable) (e : EncodedName) (incoming : ConnId)
    (filter : MatchFilter) : List ConnId :=
  match t.routing.lookup e.prefix3 with
  | none => []
  | some entry =>
    if e.id ≠ NameId.NULL_COMPONENT then (entry.getAll e.id incoming filter).getD []
    else entry.getAllAny incoming filter

theorem matchAll_eq (t : SubscriptionTable) (e : EncodedName) (incoming : ConnId)
    (filter : MatchFilter) :
    t.matchAll e incoming filter =
      if t.candidates e incoming filter = [] then .error (noMatch e)
      else .ok (t.candidates e incoming filter) := by
  unfold matchAll candidates
  cases t.routing.lookup e.prefix3 with
  | none => rfl
  | some entry =>
    simp only [List.isEmpty_iff]
    split
    · cases entry.getAll e.id incoming filter <;> rfl
    · rfl

/-- The name a query matches: the same prefix, and the same id unless the query is for all. -/
def EncodedMatches (query : EncodedName) (q : Prefix × BitVec 128) : Prop :=
  q.1 = query.prefix3 ∧ (query.id = NameId.NULL_COMPONENT ∨ q.2 = query.id)

instance (query : EncodedName) (q : Prefix × BitVec 128) : Decidable (EncodedMatches query q) :=
  inferInstanceAs (Decidable (_ ∧ _))

/-- What the snapshot lists for a name, in the entry of its prefix. -/
theorem lists_matching {entry : PrefixEntry} (hl : t.routing.lookup e.prefix3 = some entry) :
    (∃ q, EncodedMatches e q ∧ t.routing.Lists q ct c) ↔
      if e.id ≠ NameId.NULL_COMPONENT then entry.Lists e.id ct c else ∃ id,
        entry.Lists id ct c := by
  split
  · rename_i hid
    refine ⟨?_, fun hc => ⟨(e.prefix3, e.id), ⟨rfl, .inr rfl⟩, (Routing.lists_entry hl).mpr hc⟩⟩
    rintro ⟨⟨p, id⟩, ⟨rfl, hq⟩, hc⟩
    obtain rfl : id = e.id := hq.resolve_left hid
    exact (Routing.lists_entry hl).mp hc
  · rename_i hid
    refine ⟨?_, fun ⟨id, hc⟩ => ⟨(e.prefix3, id), ⟨rfl, .inl (not_not.mp hid)⟩,
      (Routing.lists_entry hl).mpr hc⟩⟩
    rintro ⟨⟨p, id⟩, ⟨rfl, -⟩, hc⟩
    exact ⟨id, (Routing.lists_entry hl).mp hc⟩

theorem mem_candidates (h : t.routing.Wf) :
    c ∈ t.candidates e incoming filter ↔ c ≠ incoming ∧
      ∃ ct, filter.includes ct = true ∧ ∃ q, EncodedMatches e q ∧ t.routing.Lists q ct c := by
  unfold candidates
  cases hl : t.routing.lookup e.prefix3 with
  | none =>
    simp only [List.not_mem_nil, false_iff]
    rintro ⟨-, ct, -, q, ⟨hq, -⟩, hc⟩
    exact Routing.not_lists_of_lookup (hq ▸ hl) hc
  | some entry =>
    simp only [lists_matching hl]
    split
    · exact mem_getAll (h.entry hl)
    · exact mem_getAllAny (h.entry hl)

theorem Inv.mem_candidates (h : t.Inv ty) :
    c ∈ t.candidates e incoming filter ↔ c ≠ incoming ∧ filter.includes (ty c) = true ∧
      ∃ q, EncodedMatches e q ∧ t.routing.Lists q (ty c) c := by
  rw [SubscriptionTable.mem_candidates h.routing]
  refine and_congr Iff.rfl ⟨?_, fun ⟨hf, q, hq, hc⟩ => ⟨ty c, hf, q, hq, hc⟩⟩
  rintro ⟨ct, hf, q, hq, hc⟩
  obtain rfl := h.type hc
  exact ⟨hf, q, hq, hc⟩

theorem Inv.nodup_candidates (h : t.Inv ty) (e : EncodedName) (incoming : ConnId)
    (filter : MatchFilter) : (t.candidates e incoming filter).Nodup := by
  unfold candidates
  cases hl : t.routing.lookup e.prefix3 with
  | none => exact List.nodup_nil
  | some entry =>
    have ht : entry.TypedBy ty := fun id ct c hc => h.type (q := (e.prefix3, id)) ⟨entry, hl, hc⟩
    dsimp only
    split
    · exact nodup_getAll (h.routing.entry hl) ht
    · exact nodup_getAllAny (h.routing.entry hl) ht

/-! ### Repair and round-robin matching

Neither touches the records. -/

/-- A snapshot that lists no more than another one, and as much of the `live` connections. -/
structure Shrunk (live : ConnId → Prop) (t t' : SubscriptionTable) : Prop where
  state : t'.state = t.state
  routing : t'.routing.Wf
  lists : ∀ q ct c, t'.routing.Lists q ct c → t.routing.Lists q ct c
  kept : ∀ q ct c, t.routing.Lists q ct c → live c → t'.routing.Lists q ct c

variable {live : ConnId → Prop}

theorem Shrunk.refl (h : t.routing.Wf) : Shrunk live t t :=
  ⟨rfl, h, fun _ _ _ hc => hc, fun _ _ _ hc _ => hc⟩

section
variable (h : Shrunk live t t')
include h

theorem Shrunk.trans {t'' : SubscriptionTable} (h' : Shrunk live t' t'') :
    Shrunk live t t'' where
  state := h'.state.trans h.state
  routing := h'.routing
  lists := fun q ct c hc => h.lists q ct c (h'.lists q ct c hc)
  kept := fun q ct c hc hlive => h'.kept q ct c (h.kept q ct c hc hlive) hlive

theorem Shrunk.holds (k : SubKey) : t'.Holds k ↔ t.Holds k := by
  unfold Holds
  rw [h.state]

theorem Shrunk.mem_candidates (hw : t.routing.Wf)
    (hc : c ∈ t'.candidates e incoming filter) : c ∈ t.candidates e incoming filter := by
  obtain ⟨hne, ct, hf, q, hq, hl⟩ := (SubscriptionTable.mem_candidates h.routing).mp hc
  exact (SubscriptionTable.mem_candidates hw).mpr ⟨hne, ct, hf, q, hq, h.lists q ct c hl⟩

theorem Shrunk.inv (hi : t.Inv ty) : t'.Inv ty where
  routing := h.routing
  state := h.state ▸ hi.state
  category := fun {k r} hl => hi.category (h.state ▸ hl)
  type := fun {q ct c} hc => hi.type (h.lists q ct c hc)
  held := fun {q ct c} hc => by
    obtain ⟨k, hk, hkc, hkq⟩ := hi.held (h.lists q ct c hc)
    exact ⟨k, (h.holds k).mpr hk, hkc, hkq⟩

theorem Shrunk.complete (hc : t.Complete ty)
    (hlive : ∀ k, t.Holds k → live k.connId) : t'.Complete ty := by
  intro k hk
  have hk := (h.holds k).mp hk
  exact h.kept _ _ _ (hc k hk) (hlive k hk)

end

theorem repairEntry_spec (h : r.Wf) (conn : ConnId) (p : Prefix) :
    (repairEntry conn r p).Wf ∧ ∀ q ct c, (repairEntry conn r p).Lists q ct c ↔
      r.Lists q ct c ∧ (q.1 = p → c ≠ conn) := by
  unfold repairEntry
  cases hl : r.lookup p with
  | none =>
    refine ⟨h, fun q ct c => (and_iff_left_of_imp fun hc hp => ?_).symm⟩
    exact absurd hc (Routing.not_lists_of_lookup (hp ▸ hl))
  | some entry =>
    dsimp only
    split
    · rename_i hno
      refine ⟨h, fun ⟨p', id⟩ ct c => (and_iff_left_of_imp fun hc hp he => hno ?_).symm⟩
      obtain rfl : p' = p := hp
      have hagg := ((h.entry hl).agg_iff ct c).mpr ⟨id, (Routing.lists_entry hl).mp hc⟩
      exact List.any_eq_true.mpr ⟨ct, ConnType.mem_ALL ct, List.contains_iff_mem.mpr (he ▸ hagg)⟩
    · obtain ⟨hw, hlists⟩ := removeConn_spec (h.entry hl) conn
      obtain ⟨hw', hd', hlists', -⟩ := retainNonEmpty_spec hw
      obtain ⟨hwf, hr'⟩ := Routing.putBack_spec h p hw' hd' rfl
      refine ⟨hwf, fun ⟨p', id⟩ ct c => ?_⟩
      rw [hr']
      split
      · rename_i hp
        obtain rfl : p' = p := hp
        rw [hlists', hlists, Routing.lists_entry hl]
        exact and_congr Iff.rfl ⟨fun hne _ => hne, fun hne => hne rfl⟩
      · rename_i hp
        exact (and_iff_left fun hp' => absurd hp' hp).symm

theorem foldl_repairEntry_spec (conn : ConnId) (ps : List Prefix) (h : r.Wf) :
    Routing.Wf (ps.foldl (repairEntry conn) r) ∧
      ∀ q ct c, Routing.Lists (ps.foldl (repairEntry conn) r) q ct c ↔
        r.Lists q ct c ∧ (q.1 ∈ ps → c ≠ conn) := by
  induction ps generalizing r with
  | nil => exact ⟨h, fun q ct c => (and_iff_left fun hq => by cases hq).symm⟩
  | cons p ps ih =>
    obtain ⟨hw₁, hl₁⟩ := repairEntry_spec h conn p
    obtain ⟨hw₂, hl₂⟩ := ih hw₁
    refine ⟨hw₂, fun q ct c => ?_⟩
    rw [List.foldl_cons, hl₂, hl₁, List.mem_cons, or_imp, and_assoc]

theorem removeRoutesTo_spec (h : t.routing.Wf) (conn : ConnId) :
    (t.removeRoutesTo conn).routing.Wf ∧ ∀ q ct c,
      (t.removeRoutesTo conn).routing.Lists q ct c ↔ t.routing.Lists q ct c ∧ c ≠ conn := by
  obtain ⟨hw, hl⟩ := foldl_repairEntry_spec conn t.routing.keys h
  refine ⟨hw, fun q ct c => (hl q ct c).trans (and_congr_right fun ⟨pe, hpe, _⟩ => ?_)⟩
  have hq : q.1 ∈ t.routing.keys :=
    AList.mem_keys.mp (AList.lookup_isSome.mp (Option.isSome_of_mem hpe))
  exact ⟨fun hne => hne hq, fun hne _ => hne⟩

/-- Nothing but cursors of the routing snapshot differs. -/
structure OnlyCursors (t t' : SubscriptionTable) : Prop where
  state : t'.state = t.state
  routing : ∀ p, Option.Rel PrefixEntry.OnlyCursors (t.routing.lookup p) (t'.routing.lookup p)

theorem OnlyCursors.refl (t : SubscriptionTable) : OnlyCursors t t := by
  refine ⟨rfl, fun p => ?_⟩
  cases t.routing.lookup p with
  | none => exact .none
  | some pe => exact .some (.refl pe)

section
variable (h : OnlyCursors t t')
include h

theorem OnlyCursors.lookup {p : Prefix} {pe' : PrefixEntry} (hl : t'.routing.lookup p = some pe') :
    ∃ pe, t.routing.lookup p = some pe ∧ SameLists pe pe' := by
  have hp := h.routing p
  rw [hl] at hp
  cases hpe : t.routing.lookup p with
  | none => rw [hpe] at hp; cases hp
  | some pe =>
    rw [hpe] at hp
    cases hp with
    | some ho => exact ⟨pe, rfl, ho.sameLists⟩

theorem OnlyCursors.lists (q : Prefix × BitVec 128) (ct : ConnType)
    (c : ConnId) : t'.routing.Lists q ct c ↔ t.routing.Lists q ct c := by
  unfold Routing.Lists
  have hp := h.routing q.1
  cases hpe : t.routing.lookup q.1 with
  | none =>
    rw [hpe] at hp
    generalize t'.routing.lookup q.1 = o at hp
    cases hp
    simp
  | some pe =>
    rw [hpe] at hp
    generalize t'.routing.lookup q.1 = o at hp
    cases hp with
    | some ho => simp [ho.sameLists.lists]

theorem OnlyCursors.wf (hw : t.routing.Wf) : t'.routing.Wf where
  entry := fun hl => by
    obtain ⟨pe, hpe, hs⟩ := h.lookup hl
    exact hs.wf (hw.entry hpe)
  dense := fun hl => by
    obtain ⟨pe, hpe, hs⟩ := h.lookup hl
    exact hs.dense (hw.dense hpe)
  nonempty := fun hl => by
    obtain ⟨pe, hpe, hs⟩ := h.lookup hl
    exact hs.ids ▸ hw.nonempty hpe

theorem OnlyCursors.shrunk (hw : t.routing.Wf) : Shrunk live t t' :=
  ⟨h.state, h.wf hw, fun q ct c => (h.lists q ct c).mp, fun q ct c hc _ => (h.lists q ct c).mpr hc⟩

end

/-- The snapshot lists `c` under type `ct` for the name, and `c` is not the incoming connection. -/
def Offers (t : SubscriptionTable) (e : EncodedName) (incoming : ConnId) (ct : ConnType)
    (c : ConnId) : Prop :=
  c ≠ incoming ∧ ∃ q, EncodedMatches e q ∧ t.routing.Lists q ct c

/-- `match_one` moves cursors, and takes what the first type with an offer offers. -/
theorem matchOne_first (h : t.routing.Wf) (e : EncodedName) (incoming : ConnId)
    (filter : MatchFilter) :
    OnlyCursors t (t.matchOne e incoming filter).2 ∧
      ∃ r, Vec.FirstOffer (t.Offers e incoming) (ConnType.ALL.filter filter.includes) r ∧
        (t.matchOne e incoming filter).1 = r.elim (.error (noMatch e)) .ok := by
  unfold matchOne
  cases hl : t.routing.lookup e.prefix3 with
  | none =>
    refine ⟨.refl t, none, .of_forall_not (fun ct c hc => ?_) _, rfl⟩
    obtain ⟨-, q, ⟨hq, -⟩, hc⟩ := hc
    exact Routing.not_lists_of_lookup (hq ▸ hl) hc
  | some entry =>
    -- both reads move cursors only and take the first offer
    have hread : ∀ {found : Option ConnId} {pe : PrefixEntry},
        (if e.id ≠ NameId.NULL_COMPONENT then entry.getOne e.id incoming filter
          else entry.pickOneAny incoming filter) = (found, pe) →
        PrefixEntry.OnlyCursors entry pe ∧
          Vec.FirstOffer (t.Offers e incoming) (ConnType.ALL.filter filter.includes) found := by
      intro found pe hr
      have hoffers {ct c} : t.Offers e incoming ct c ↔ _ := and_congr_right' (lists_matching hl)
      split at hr
      · rename_i hid
        obtain ⟨hs, hm⟩ := getOne_spec (h.entry hl) e.id incoming filter
        rw [hr] at hs hm
        exact ⟨hs, hm.congr fun ct c => by rw [hoffers, if_pos hid]⟩
      · rename_i hid
        obtain ⟨hs, hm⟩ := pickOneAny_spec (h.entry hl) incoming filter
        rw [hr] at hs hm
        exact ⟨hs, hm.congr fun ct c => by rw [hoffers, if_neg hid]⟩
    dsimp only
    rcases hr : (if e.id ≠ NameId.NULL_COMPONENT then entry.getOne e.id incoming filter
      else entry.pickOneAny incoming filter) with ⟨found, pe⟩
    obtain ⟨hs, hm⟩ := hread hr
    have hcursors : OnlyCursors t { t with routing := t.routing.insert e.prefix3 pe } := by
      refine ⟨rfl, fun p => ?_⟩
      rw [Routing.lookup_insert_eq]
      split
      · rename_i hp
        rw [hp, hl]
        exact .some hs
      · exact (OnlyCursors.refl t).routing p
    cases found with
    | some c => exact ⟨hcursors, _, hm, rfl⟩
    | none => exact ⟨hcursors, _, hm, rfl⟩

theorem mem_candidates_iff_offers (h : t.routing.Wf) : c ∈ t.candidates e incoming filter ↔
    ∃ ct ∈ ConnType.ALL.filter filter.includes, t.Offers e incoming ct c := by
  rw [mem_candidates h]
  simp only [List.mem_filter, ConnType.mem_ALL, true_and]
  constructor
  · rintro ⟨hne, ct, hf, hq⟩
    exact ⟨ct, hf, hne, hq⟩
  · rintro ⟨ct, hf, hne, hq⟩
    exact ⟨hne, ct, hf, hq⟩

theorem matchOne_spec (live : ConnId → Prop) (h : t.routing.Wf) (e : EncodedName)
    (incoming : ConnId) (filter : MatchFilter) :
    Shrunk live t (t.matchOne e incoming filter).2 ∧
      (∀ c, (t.matchOne e incoming filter).1 = .ok c → c ∈ t.candidates e incoming filter) ∧
      ∀ err, (t.matchOne e incoming filter).1 = .error err →
        t.candidates e incoming filter = [] := by
  obtain ⟨hcursors, r, hr, hres⟩ := matchOne_first h e incoming filter
  refine ⟨hcursors.shrunk h, fun c hc => ?_, fun err herr => ?_⟩
  · cases r with
    | none => rw [hres] at hc; cases hc
    | some c' =>
      obtain rfl : c' = c := by rw [hres] at hc; exact Except.ok.inj hc
      obtain ⟨before, ct, after, hall, hc, -⟩ := hr.exists_source
      exact (mem_candidates_iff_offers h).mpr ⟨ct, by rw [hall]; simp, hc⟩
  · cases r with
    | some c => rw [hres] at herr; cases herr
    | none =>
      refine List.eq_nil_iff_forall_not_mem.mpr fun c hc => ?_
      obtain ⟨ct, hct, hc⟩ := (mem_candidates_iff_offers h).mp hc
      exact hr.eq_none_iff.mp rfl ct hct c hc

end SubscriptionTable

end Slim
