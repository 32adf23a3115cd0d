import Slim.Forwarder
import Slim.Tables.Proof.Matching

/-!
# What the forwarder does to its tables

`Matched` is the loop of `on_publish_msg_match` without a bound on its rounds. Every round that
finds only connections that are gone takes away all their routes, so the loop returns
(`publishMatchLoop_matched`), and what it returns is read off `match_all` (`Matched.exact`).

`onPublishMsgMatch_spec`: a publication is matched to connections that exist and that the routing
snapshot lists for its name; the records stay, and routes are only taken away, from connections that
do not exist (`Shrunk`).
-/

namespace Slim.Forwarder

open SubscriptionTable

variable {live : ConnId → Prop} {t t' : SubscriptionTable} {conns : ConnectionTable}
  {e : EncodedName} {incoming : ConnId} {fanout : Nat} {filter : MatchFilter} {c : ConnId}
  {r : Except DataPathError (List ConnId) × SubscriptionTable}

/-! ## The rounds of a match -/

theorem foldl_removeRoutesTo_spec (cs : List ConnId) (h : t.routing.Wf) :
    let t' := cs.foldl removeRoutesTo t
    t'.state = t.state ∧ t'.routing.Wf ∧
      ∀ q ct c, t'.routing.Lists q ct c ↔ t.routing.Lists q ct c ∧ c ∉ cs := by
  induction cs generalizing t with
  | nil => exact ⟨rfl, h, fun q ct c => (and_iff_left List.not_mem_nil).symm⟩
  | cons c cs ih =>
    obtain ⟨hw₁, hl₁⟩ := removeRoutesTo_spec h c
    obtain ⟨hs, hw, hl⟩ := ih hw₁
    refine ⟨hs, hw, fun q ct c' => ?_⟩
    rw [List.foldl_cons, hl, hl₁, List.mem_cons, not_or, and_assoc]

theorem matchOnce_spec (live : ConnId → Prop) (h : t.routing.Wf) (e : EncodedName)
    (incoming : ConnId) (fanout : Nat) (filter : MatchFilter) :
    t.Shrunk live (matchOnce t e incoming fanout filter).2 ∧
      (∀ err, (matchOnce t e incoming fanout filter).1 = .error err →
        t.candidates e incoming filter = []) ∧
      ∀ out, (matchOnce t e incoming fanout filter).1 = .ok out →
        out ≠ [] ∧ (fanout = 1 → ∃ c ∈ t.candidates e incoming filter, out = [c]) ∧
          (fanout ≠ 1 → out = t.candidates e incoming filter) := by
  unfold matchOnce
  split
  · rename_i hone
    obtain ⟨hs, hok, herr⟩ := matchOne_spec live h e incoming filter
    rcases hr : t.matchOne e incoming filter with ⟨r, t'⟩
    rw [hr] at hs hok herr
    cases r with
    | error err => exact ⟨hs, fun _ _ => herr err rfl, fun out ho => (by cases ho)⟩
    | ok c =>
      refine ⟨hs, fun _ he => (by cases he), fun out ho => ?_⟩
      cases ho
      exact ⟨List.cons_ne_nil c [], fun _ => ⟨c, hok c rfl, rfl⟩, fun hne => absurd hone hne⟩
  · rename_i hne
    rw [matchAll_eq]
    refine ⟨.refl h, fun err he => ?_, fun out ho => ?_⟩
    · split at he
      · assumption
      · cases he
    · split at ho
      · cases ho
      · rename_i hnil
        cases ho
        exact ⟨hnil, fun hone => absurd hone hne, fun _ => rfl⟩

/-- The loop of `on_publish_msg_match`, with as many rounds as it takes. -/
inductive Matched (conns : ConnectionTable) (e : EncodedName) (incoming : ConnId) (fanout : Nat)
    (filter : MatchFilter) :
    SubscriptionTable → Except DataPathError (List ConnId) × SubscriptionTable → Prop
  | failed {t t' err} (h : matchOnce t e incoming fanout filter = (.error err, t')) :
    Matched conns e incoming fanout filter t (.error err, t')
  | found {t t' out} (h : matchOnce t e incoming fanout filter = (.ok out, t'))
    (hlive : (out.filter fun c => c ∈ conns) ≠ []) :
    Matched conns e incoming fanout filter t (.ok (out.filter fun c => c ∈ conns),
      (out.filter fun c => c ∉ conns).foldl removeRoutesTo t')
  | again {t t' out r} (h : matchOnce t e incoming fanout filter = (.ok out, t'))
    (hdead : (out.filter fun c => c ∈ conns) = [])
    (hr : Matched conns e incoming fanout filter
      ((out.filter fun c => c ∉ conns).foldl removeRoutesTo t') r) :
    Matched conns e incoming fanout filter t r

/-- A round that found connections leaves a table without routes to those of them that are gone. -/
theorem round_spec (h : t.routing.Wf) {out : List ConnId}
    (hm : matchOnce t e incoming fanout filter = (.ok out, t')) :
    let t₂ := (out.filter fun c => c ∉ conns).foldl removeRoutesTo t'
    t.Shrunk (· ∈ conns) t₂ ∧ ∀ q ct c, t₂.routing.Lists q ct c → c ∈ out → c ∈ conns := by
  obtain ⟨hs, -, -⟩ := matchOnce_spec (· ∈ conns) h e incoming fanout filter
  rw [hm] at hs
  obtain ⟨hstate, hw, hl⟩ :=
    foldl_removeRoutesTo_spec (t := t') (out.filter fun c => c ∉ conns) hs.routing
  refine ⟨⟨hstate.trans hs.state, hw, fun q ct c hc => ?_, fun q ct c hc hcc => ?_⟩,
    fun q ct c hc ho => ?_⟩
  · exact hs.lists q ct c ((hl q ct c).mp hc).1
  · refine (hl q ct c).mpr ⟨hs.kept q ct c hc hcc, fun hf => ?_⟩
    exact absurd hcc (by simpa using (List.mem_filter.mp hf).2)
  · by_contra hcc
    exact ((hl q ct c).mp hc).2 (List.mem_filter.mpr ⟨ho, by simpa using hcc⟩)

/-! ## What a match returns -/

/-- `match_all` restricted to the connections that exist. -/
def liveMatches (conns : ConnectionTable) (t : SubscriptionTable) (e : EncodedName)
    (incoming : ConnId) (filter : MatchFilter) : List ConnId :=
  match t.matchAll e incoming filter with
  | .ok out => out.filter fun c => c ∈ conns
  | .error _ => []

theorem liveMatches_eq : liveMatches conns t e incoming filter =
    (t.candidates e incoming filter).filter fun c => c ∈ conns := by
  unfold liveMatches
  rw [matchAll_eq]
  by_cases hnil : t.candidates e incoming filter = [] <;> simp [hnil]

theorem mem_liveMatches :
    c ∈ liveMatches conns t e incoming filter ↔ c ∈ conns ∧ c ∈ t.candidates e incoming filter := by
  rw [liveMatches_eq, List.mem_filter, decide_eq_true_eq, and_comm]

theorem mem_liveMatches_shrunk (hs : t.Shrunk (· ∈ conns) t') (h : t.routing.Wf) :
    c ∈ liveMatches conns t' e incoming filter ↔ c ∈ liveMatches conns t e incoming filter := by
  rw [mem_liveMatches, mem_liveMatches]
  refine and_congr_right fun hcc => ⟨hs.mem_candidates h, fun hc => ?_⟩
  obtain ⟨hne, ct, hf, q, hq, hl⟩ := (mem_candidates h).mp hc
  exact (mem_candidates hs.routing).mpr
    ⟨hne, ct, hf, q, hq, hs.kept q ct c hl hcc⟩

/-- What the loop returns: nothing only if nothing that exists matches, one such connection for
fanout one, and else all of them. -/
theorem Matched.exact (hm : Matched conns e incoming fanout filter t r) (h : t.routing.Wf) :
    t.Shrunk (· ∈ conns) r.2 ∧
      (∀ err, r.1 = .error err → liveMatches conns t e incoming filter = []) ∧
      ∀ out, r.1 = .ok out → out ≠ [] ∧
        (fanout = 1 → ∃ c ∈ liveMatches conns t e incoming filter, out = [c]) ∧
        (fanout ≠ 1 → out = liveMatches conns t e incoming filter) := by
  induction hm with
  | failed hr =>
    obtain ⟨hs, herr, -⟩ := matchOnce_spec (· ∈ conns) h e incoming fanout filter
    rw [hr] at hs herr
    refine ⟨hs, fun err _ => ?_, fun out ho => (by cases ho)⟩
    rw [liveMatches_eq, herr _ rfl]
    rfl
  | @found t t' out hr hlive =>
    obtain ⟨hs, -⟩ := round_spec h hr
    obtain ⟨-, -, hok⟩ := matchOnce_spec (· ∈ conns) h e incoming fanout filter
    rw [hr] at hok
    obtain ⟨-, hone, hall⟩ := hok out rfl
    refine ⟨hs, fun err he => (by cases he), fun out' ho => ?_⟩
    cases ho
    refine ⟨hlive, fun h1 => ?_, fun hne => by rw [liveMatches_eq, hall hne]⟩
    obtain ⟨c, hc, rfl⟩ := hone h1
    by_cases hcc : c ∈ conns
    · exact ⟨c, mem_liveMatches.mpr ⟨hcc, hc⟩, by simp [hcc]⟩
    · exact absurd (by simp [hcc]) hlive
  | @again t t' out r hr hdead _ ih =>
    obtain ⟨hs, -⟩ := round_spec h hr
    obtain ⟨hs', herr, hok⟩ := ih hs.routing
    have hmem (c : ConnId) : c ∈ liveMatches conns _ e incoming filter ↔
        c ∈ liveMatches conns t e incoming filter := mem_liveMatches_shrunk hs h
    refine ⟨hs.trans hs', fun err he => ?_, fun out' ho => ⟨(hok out' ho).1, fun h1 => ?_, ?_⟩⟩
    · refine List.eq_nil_iff_forall_not_mem.mpr fun c hc => ?_
      exact List.eq_nil_iff_forall_not_mem.mp (herr err he) c ((hmem c).mpr hc)
    · obtain ⟨c, hc, rfl⟩ := (hok out' ho).2.1 h1
      exact ⟨c, (hmem c).mp hc, rfl⟩
    · -- when all matches are gone there is nothing left to find
      intro hne
      obtain ⟨-, -, hok₀⟩ := matchOnce_spec (· ∈ conns) h e incoming fanout filter
      rw [hr] at hok₀
      have hnil : liveMatches conns t e incoming filter = [] := by
        rw [liveMatches_eq, ← (hok₀ out rfl).2.2 hne, hdead]
      refine absurd (List.eq_nil_iff_forall_not_mem.mpr fun c hc => ?_) (hok out' ho).1
      rw [(hok out' ho).2.2 hne, hmem c, hnil] at hc
      exact List.not_mem_nil hc

/-! ## The loop returns -/

theorem mem_listedConns {r : Routing} (h : r.Wf) : c ∈ listedConns r ↔ ∃ q ct, r.Lists q ct c := by
  simp only [listedConns, List.mem_dedup, List.mem_flatMap, ConnType.mem_ALL, true_and]
  constructor
  · rintro ⟨⟨p, pe⟩, hpe, ct, hc⟩
    have hl := AList.mem_lookup_iff.mpr hpe
    obtain ⟨id, hc⟩ := ((h.entry hl).agg_iff ct c).mp hc
    exact ⟨(p, id), ct, pe, hl, hc⟩
  · rintro ⟨⟨p, id⟩, ct, pe, hl, hc⟩
    exact ⟨⟨p, pe⟩, AList.mem_lookup_iff.mp hl, ct, ((h.entry hl).agg_iff ct c).mpr ⟨id, hc⟩⟩

/-- Every round that finds only connections that are gone leaves fewer listed ones. -/
theorem length_listedConns_lt (h : t.routing.Wf) {out : List ConnId}
    (hm : matchOnce t e incoming fanout filter = (.ok out, t'))
    (hdead : (out.filter fun c => c ∈ conns) = []) :
    (listedConns ((out.filter fun c => c ∉ conns).foldl
      removeRoutesTo t').routing).length < (listedConns t.routing).length := by
  obtain ⟨hs, hgone⟩ := round_spec h hm
  obtain ⟨-, -, hok⟩ := matchOnce_spec (· ∈ conns) h e incoming fanout filter
  rw [hm] at hok
  obtain ⟨hne, hone, hall⟩ := hok out rfl
  obtain ⟨c, hc⟩ := List.exists_mem_of_ne_nil out hne
  have hcand : c ∈ t.candidates e incoming filter := by
    by_cases h1 : fanout = 1
    · obtain ⟨c', hc', rfl⟩ := hone h1
      rwa [List.mem_singleton.mp hc]
    · exact hall h1 ▸ hc
  obtain ⟨-, ct, -, q, -, hl⟩ := (mem_candidates h).mp hcand
  -- the connection found goes, and none comes
  have hc' : c ∉ conns := by simpa using List.filter_eq_nil_iff.mp hdead c hc
  refine List.Subperm.length_le (List.subperm_of_subset
    (List.nodup_cons.mpr ⟨fun hcl => ?_, List.nodup_dedup _⟩) ?_ : (c :: listedConns _).Subperm _)
  · obtain ⟨q, ct, hq⟩ := (mem_listedConns hs.routing).mp hcl
    exact hc' (hgone q ct c hq hc)
  · refine List.cons_subset.mpr ⟨(mem_listedConns h).mpr ⟨q, ct, hl⟩, fun x hx => ?_⟩
    obtain ⟨q, ct, hq⟩ := (mem_listedConns hs.routing).mp hx
    exact (mem_listedConns h).mpr ⟨q, ct, hs.lists q ct x hq⟩

theorem publishMatchLoop_matched {k : Nat} (h : t.routing.Wf)
    (hk : (listedConns t.routing).length < k) :
    Matched conns e incoming fanout filter t
      (publishMatchLoop conns e incoming fanout filter k t) := by
  induction k generalizing t with
  | zero => exact absurd hk (Nat.not_lt_zero _)
  | succ k ih =>
    unfold publishMatchLoop
    split
    · rename_i hm
      exact .failed hm
    · rename_i out t' hm
      dsimp only
      split
      · rename_i hdead
        rw [List.isEmpty_iff] at hdead
        have hlt := length_listedConns_lt h hm hdead
        exact .again hm hdead (ih (round_spec h hm).1.routing (by omega))
      · rename_i hlive
        exact .found hm (by simpa using hlive)

theorem onPublishMsgMatch_matched (f : Forwarder) (h : f.subscriptionTable.routing.Wf)
    (e : EncodedName) (incoming : ConnId) (fanout : Nat) (filter : MatchFilter) :
    let r := f.onPublishMsgMatch e incoming fanout filter
    r.2 = { f with subscriptionTable := r.2.subscriptionTable } ∧
      Matched f.connectionTable e incoming fanout filter f.subscriptionTable
        (r.1, r.2.subscriptionTable) :=
  ⟨rfl, publishMatchLoop_matched h (Nat.lt_succ_self _)⟩

/-- **Matching a publication.** -/
theorem onPublishMsgMatch_spec (f : Forwarder) (h : f.subscriptionTable.routing.Wf)
    (e : EncodedName) (incoming : ConnId) (fanout : Nat) (filter : MatchFilter) :
    ∃ t, f.subscriptionTable.Shrunk (· ∈ f.connectionTable) t ∧
      (f.onPublishMsgMatch e incoming fanout filter).2 = { f with subscriptionTable := t } ∧
      ∀ out, (f.onPublishMsgMatch e incoming fanout filter).1 = .ok out → out ≠ [] ∧
        ∀ c ∈ out, c ∈ f.connectionTable ∧
          c ∈ f.subscriptionTable.candidates e incoming filter := by
  obtain ⟨hf, hm⟩ := f.onPublishMsgMatch_matched h e incoming fanout filter
  obtain ⟨hs, -, hok⟩ := hm.exact h
  refine ⟨_, hs, hf, fun out ho => ?_⟩
  obtain ⟨hne, hone, hall⟩ := hok out ho
  refine ⟨hne, fun c hc => mem_liveMatches.mp ?_⟩
  by_cases h1 : fanout = 1
  · obtain ⟨c', hc', rfl⟩ := hone h1
    rwa [List.mem_singleton.mp hc]
  · exact hall h1 ▸ hc

/-- **Matching a publication returns, and repairs stale routes only.** -/
theorem onPublishMsgMatch_exact {calculateHash : String → UInt64} (f : Forwarder)
    (h : f.subscriptionTable.Reached calculateHash) (e : EncodedName) (incoming : ConnId)
    (fanout : Nat) (filter : MatchFilter) :
    let r := f.onPublishMsgMatch e incoming fanout filter
    let live := liveMatches f.connectionTable f.subscriptionTable e incoming filter
    Matched f.connectionTable e incoming fanout filter f.subscriptionTable
        (r.1, r.2.subscriptionTable) ∧
      ((∃ err, r.1 = .error err) ↔ live = []) ∧
      (fanout = 1 → ∀ out, r.1 = .ok out → ∃ c ∈ live, out = [c]) ∧
      (fanout ≠ 1 → ∀ out, r.1 = .ok out → out = live) ∧
      ∀ q ct c, f.subscriptionTable.routing.Lists q ct c → c ∈ f.connectionTable →
        r.2.subscriptionTable.routing.Lists q ct c := by
  obtain ⟨-, hm⟩ := f.onPublishMsgMatch_matched h.wf e incoming fanout filter
  obtain ⟨hs, herr, hok⟩ := hm.exact h.wf
  refine ⟨hm, ⟨fun ⟨err, he⟩ => herr err he, fun hnil => ?_⟩, fun h1 out ho => (hok out ho).2.1 h1,
    fun hne out ho => (hok out ho).2.2 hne, hs.kept⟩
  cases hr : (f.onPublishMsgMatch e incoming fanout filter).1 with
  | error err => exact ⟨err, rfl⟩
  | ok out =>
    obtain ⟨hne, hone, hall⟩ := hok out hr
    by_cases h1 : fanout = 1
    · obtain ⟨c, hc, -⟩ := hone h1
      rw [hnil] at hc
      cases hc
    · exact absurd ((hall h1).trans hnil) hne

/-- A name with a route to a connection that is gone and one to a connection that is there. -/
def staleForwarder : Forwarder where
  subscriptionTable :=
    ((SubscriptionTable.empty.addSubscription sampleName 1 .Local 0).2.addSubscription
      sampleName 2 .Edge 0).2
  connectionTable := AList.insert 2 { connectionType := .Edge } ∅

/-- The stale route is taken first and removed; the publication goes to the live one, and with the
live connection left out there is nothing to send it to. -/
theorem onPublishMsgMatch_exact_stale :
    let r := staleForwarder.onPublishMsgMatch ⟨1, 2, 3, none⟩ 0 1 .ALL
    (∀ out, r.1 = .ok out → out = [2]) ∧
      r.2.subscriptionTable.routing.Lists ((1, 2, 3), 5) .Edge 2 ∧
      ∃ err, (staleForwarder.onPublishMsgMatch ⟨1, 2, 3, none⟩ 2 1 .ALL).1 = .error err := by
  have h : staleForwarder.subscriptionTable.Reached (fun _ => 0) :=
    .add (.add .empty sampleName 1 .Local 0) sampleName 2 .Edge 0
  have hlive : liveMatches staleForwarder.connectionTable staleForwarder.subscriptionTable
      ⟨1, 2, 3, none⟩ 0 .ALL = [2] := by decide +kernel
  obtain ⟨-, -, hone, -, hkept⟩ := onPublishMsgMatch_exact staleForwarder h ⟨1, 2, 3, none⟩ 0 1 .ALL
  refine ⟨fun out ho => ?_, hkept _ _ _ (by decide +kernel) (by decide +kernel), ?_⟩
  · obtain ⟨c, hc, rfl⟩ := hone rfl out ho
    rw [hlive, List.mem_singleton] at hc
    rw [hc]
  · exact (onPublishMsgMatch_exact staleForwarder h ⟨1, 2, 3, none⟩ 2 1 .ALL).2.1.mpr
      (by decide +kernel)

end Slim.Forwarder
