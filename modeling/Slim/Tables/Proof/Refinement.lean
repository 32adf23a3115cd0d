import Mathlib.Data.Finset.Image
import Slim.Lib.Run
import Slim.Tables.Proof.SubscriptionTable

/-!
# The subscription table refines a set of records

The abstract table is the finite set of records: an accepted addition inserts one, an accepted
removal erases one, an accepted drop erases those of a connection. A query is answered by
`Records.matching`. `Tracked` runs the table together with that set.

`matchAll_matching`: as long as no removal leaves a connection with records for a prefix and id in
other encodings only (`Call.KeepsEncoding`), `match_all` answers with `Records.matching`, and fails
exactly when it is empty; refused calls change nothing. The condition is needed: an encoding without
a `NameId` and one with `NULL_COMPONENT` share a routing slot, but `conn_still_subscribed` compares
encodings, so that removing one takes the other's route away (`matchAll_loses_alias`).
-/

namespace Slim

open SubscriptionTable

/-! ## The abstract table -/

/-- The writes of the table. Each connection has one type, given once for the whole run. -/
inductive Call
  | add (name : ProtoName) (conn : ConnId) (subId : SubId)
  | remove (name : ProtoName) (conn : ConnId) (subId : SubId)
  | removeConnection (conn : ConnId)

abbrev Records := Finset SubKey

namespace Records

/-- The effect of an accepted call. -/
def apply (R : Records) : Call → Records
  | .add name conn subId =>
    match name.name with
    | some e => insert ⟨conn, subId, e⟩ R
    | none => R
  | .remove name conn subId =>
    match name.name with
    | some e => R.erase ⟨conn, subId, e⟩
    | none => R
  | .removeConnection conn => R.filter fun k => k.connId ≠ conn

/-- The answer to a query: the connections with a matching record, other than the one asking, of a
type the filter includes. -/
def matching (ty : ConnId → ConnType) (R : Records) (e : EncodedName) (incoming : ConnId)
    (filter : MatchFilter) : Finset ConnId :=
  ((R.filter fun k => EncodedMatches e k.encoded.route).image SubKey.connId).filter
    fun c => c ≠ incoming ∧ filter.includes (ty c) = true

theorem mem_matching {ty : ConnId → ConnType} {R : Records} {e : EncodedName}
    {incoming c : ConnId} {filter : MatchFilter} :
    c ∈ R.matching ty e incoming filter ↔ c ≠ incoming ∧ filter.includes (ty c) = true ∧
      ∃ k ∈ R, k.connId = c ∧ EncodedMatches e k.encoded.route := by
  simp only [matching, Finset.mem_filter, Finset.mem_image]
  constructor
  · rintro ⟨⟨k, ⟨hk, hm⟩, hc⟩, hne, hf⟩
    exact ⟨hne, hf, k, hk, hc, hm⟩
  · rintro ⟨hne, hf, k, hk, hc, hm⟩
    exact ⟨⟨k, ⟨hk, hm⟩, hc⟩, hne, hf⟩

end Records

/-! ## Running both -/

section
variable (calculateHash : String → UInt64) (ty : ConnId → ConnType)

/-- One call: whether it returned `Ok`, and the table after it. -/
def SubscriptionTable.call (t : SubscriptionTable) : Call → Bool × SubscriptionTable
  | .add name conn subId =>
    let r := t.addSubscription name conn (ty conn) subId
    (r.1.isOk, r.2)
  | .remove name conn subId =>
    let r := t.removeSubscription name conn (ty conn) subId
    (r.1.isOk, r.2)
  | .removeConnection conn =>
    let r := t.removeConnection calculateHash conn (ty conn)
    (r.1.isOk, r.2)

/-- A table and the records it stands for. -/
structure Tracked where
  table : SubscriptionTable
  records : Records

namespace Tracked

def init : Tracked := ⟨SubscriptionTable.empty, ∅⟩

def step (s : Tracked) (c : Call) : Tracked :=
  let r := s.table.call calculateHash ty c
  ⟨r.2, if r.1 then s.records.apply c else s.records⟩

def run (calls : List Call) : Tracked := calls.foldl (step calculateHash ty) init

end Tracked

/-- A removal leaves its connection no records in other encodings only. -/
def Call.KeepsEncoding (t : SubscriptionTable) : Call → Prop
  | .remove name conn subId => ∀ e, name.name = some e → t.KeepsEncoding ⟨conn, subId, e⟩
  | _ => True

/-- `match_all` answers every query with the matching connections, and fails exactly when there is
none. -/
def Tracked.MatchesRecords (s : Tracked) : Prop :=
  ∀ (e : EncodedName) (incoming : ConnId) (filter : MatchFilter),
    (∀ v, s.table.matchAll e incoming filter = .ok v →
      v.Nodup ∧ v.toFinset = s.records.matching ty e incoming filter) ∧
    ((∃ err, s.table.matchAll e incoming filter = .error err) ↔
      s.records.matching ty e incoming filter = ∅)

/-- A call that does not return `Ok` leaves records and routing as they were. -/
def Tracked.RefusalsChangeNothing (s : Tracked) : Prop :=
  ∀ c, (s.table.call calculateHash ty c).1 = false → (s.table.call calculateHash ty c).2 = s.table

end

/-! ## The refinement -/

namespace Tracked

variable {calculateHash : String → UInt64} {ty : ConnId → ConnType}

structure Sim (ty : ConnId → ConnType) (s : Tracked) : Prop where
  inv : s.table.Inv ty
  complete : s.table.Complete ty
  records : ∀ k, s.table.Holds k ↔ k ∈ s.records

theorem sim_init : init.Sim ty where
  inv := inv_empty ty
  complete := complete_empty ty
  records := fun k => by simp [init, not_holds_empty]

theorem sim_step (s : Tracked) (c : Call) (h : s.Sim ty) (hc : c.KeepsEncoding s.table) :
    (s.step calculateHash ty c).Sim ty := by
  cases c with
  | add name conn subId =>
    rcases hr : s.table.addSubscription name conn (ty conn) subId with ⟨res, t'⟩
    rcases h.inv.add hr with ⟨msg, rfl, rfl, -⟩ | ⟨e, first, hn, rfl, ha⟩
    · simpa [step, call, hr, Except.toBool] using h
    · simp only [step, call, hr, Records.apply, hn]
      refine ⟨ha.inv, ha.complete h.complete, fun k => ?_⟩
      simp [Except.toBool, ha.holds, h.records, or_comm]
  | remove name conn subId =>
    rcases hr : s.table.removeSubscription name conn (ty conn) subId with ⟨res, t'⟩
    rcases h.inv.remove hr with ⟨f, rfl, rfl, -⟩ | ⟨e, last, hn, rfl, hd⟩
    · simpa [step, call, hr, Except.toBool] using h
    · simp only [step, call, hr, Records.apply, hn]
      refine ⟨hd.inv, hd.complete h.complete (hc e hn), fun k => ?_⟩
      simp [Except.toBool, hd.holds, h.records, and_comm]
  | removeConnection conn =>
    rcases hr : s.table.removeConnection calculateHash conn (ty conn) with ⟨res, t'⟩
    rcases h.inv.removeConnection hr with ⟨rfl, rfl, -⟩ | ⟨lost, rfl, hd⟩
    · simpa [step, call, hr, Except.toBool] using h
    · simp only [step, call, hr, Records.apply]
      refine ⟨hd.inv h.inv, hd.complete h.complete, fun k => ?_⟩
      simp [Except.toBool, hd.holds, h.records]

theorem matchesRecords_of_sim {s : Tracked} (h : s.Sim ty) : s.MatchesRecords ty := by
  intro e incoming filter
  have hmem : ∀ c, c ∈ s.table.candidates e incoming filter ↔
      c ∈ s.records.matching ty e incoming filter := fun c => by
    rw [h.inv.mem_candidates, Records.mem_matching]
    refine and_congr Iff.rfl (and_congr Iff.rfl ⟨?_, ?_⟩)
    · rintro ⟨q, hq, hc⟩
      obtain ⟨k, hk, hkc, rfl⟩ := h.inv.held hc
      exact ⟨k, (h.records k).mp hk, hkc, hq⟩
    · rintro ⟨k, hk, rfl, hq⟩
      exact ⟨k.encoded.route, hq, h.complete k ((h.records k).mpr hk)⟩
  rw [matchAll_eq]
  split
  · rename_i hnil
    refine ⟨fun v hv => (by cases hv), fun _ => ?_, fun _ => ⟨_, rfl⟩⟩
    rw [Finset.eq_empty_iff_forall_notMem]
    intro c hc
    rw [← hmem, hnil] at hc
    exact List.not_mem_nil hc
  · rename_i hne
    refine ⟨fun v hv => ?_, fun ⟨err, he⟩ => (by cases he), fun hemp => absurd ?_ hne⟩
    · cases hv
      refine ⟨h.inv.nodup_candidates e incoming filter, ?_⟩
      ext c
      rw [List.mem_toFinset, hmem]
    · rw [List.eq_nil_iff_forall_not_mem]
      intro c hc
      rw [hmem, hemp] at hc
      exact Finset.notMem_empty c hc

theorem refusalsChangeNothing_of_inv {s : Tracked} (h : s.table.Inv ty) :
    s.RefusalsChangeNothing calculateHash ty := by
  intro c hc
  cases c with
  | add name conn subId =>
    rcases hr : s.table.addSubscription name conn (ty conn) subId with ⟨res, t'⟩
    simp only [call, hr] at hc ⊢
    rcases h.add hr with ⟨msg, -, ht, -⟩ | ⟨e, first, -, rfl, -⟩
    · exact ht
    · cases hc
  | remove name conn subId =>
    rcases hr : s.table.removeSubscription name conn (ty conn) subId with ⟨res, t'⟩
    simp only [call, hr] at hc ⊢
    rcases h.remove hr with ⟨f, -, ht, -⟩ | ⟨e, last, -, rfl, -⟩
    · exact ht
    · cases hc
  | removeConnection conn =>
    rcases hr : s.table.removeConnection calculateHash conn (ty conn) with ⟨res, t'⟩
    simp only [call, hr] at hc ⊢
    rcases h.removeConnection hr with ⟨-, ht, -⟩ | ⟨lost, rfl, -⟩
    · exact ht
    · cases hc

/-- **The table refines the set of its records**, in every state of a run whose removals keep
encodings. -/
theorem matchAll_matching (calculateHash : String → UInt64) (ty : ConnId → ConnType)
    (calls : List Call)
    (h : Run.Meets (step calculateHash ty) (fun s c => c.KeepsEncoding s.table) init calls) :
    (run calculateHash ty calls).MatchesRecords ty ∧
      (run calculateHash ty calls).RefusalsChangeNothing calculateHash ty := by
  have hs : (run calculateHash ty calls).Sim ty :=
    h.invariant (fun s c hs hc => sim_step s c hs hc) sim_init
  exact ⟨matchesRecords_of_sim hs, refusalsChangeNothing_of_inv hs.inv⟩

theorem matchAll_matching_reuse :
    Run.Meets (step (fun _ => 0) fun _ => .Local) (fun s c => c.KeepsEncoding s.table) init
        [.add (.sample none) 1 5, .add (.sample none) 1 6, .remove (.sample none) 1 5,
          .removeConnection 1] ∧
      (run (fun _ => 0) (fun _ => .Local) [.add (.sample none) 1 5, .add (.sample none) 1 6,
        .remove (.sample none) 1 5, .removeConnection 1]).MatchesRecords fun _ => .Local := by
  have h : Run.Meets (step (fun _ => 0) fun _ => .Local) (fun s c => c.KeepsEncoding s.table) init
      [.add (.sample none) 1 5, .add (.sample none) 1 6, .remove (.sample none) 1 5,
        .removeConnection 1] := by
    refine ⟨trivial, trivial, fun e he _ _ => ?_, trivial, trivial⟩
    cases he
    exact ⟨⟨1, 6, ⟨1, 2, 3, none⟩⟩, by decide +kernel, by decide, rfl, rfl⟩
  exact ⟨h, (matchAll_matching _ _ _ h).1⟩

/-- Removing the encoding with `NULL_COMPONENT` takes away the route of the record whose encoding
has no id: the connection still holds a record and is not matched any more. -/
theorem matchAll_loses_alias :
    ¬ ∀ (calculateHash : String → UInt64) (ty : ConnId → ConnType) (calls : List Call),
      (run calculateHash ty calls).MatchesRecords ty ∧
        (run calculateHash ty calls).RefusalsChangeNothing calculateHash ty := by
  intro h
  have hm := ((h (fun _ => 0) (fun _ => .Local)
    [.add (.sample none) 1 5,
      .add (.sample (some (NameId.ofU128 NameId.NULL_COMPONENT))) 1 6,
      .remove (.sample (some (NameId.ofU128 NameId.NULL_COMPONENT))) 1 6]).1
    ⟨1, 2, 3, none⟩ 0 MatchFilter.ALL).2.mp ⟨_, rfl⟩
  revert hm
  decide +kernel

end Tracked

end Slim
