import Slim.Lib.Run
import Slim.Tables.Proof.SubscriptionTable

/-!
# Round-robin matching, alone and among other readers

`matchOne_agrees`: on every table the operations build, `match_one` fails exactly when `match_all`
does, and answers with a connection of the first category that offers one, whatever the cursors are
(`Reached` leaves them arbitrary, so that they may wrap during the call).

The cursor of a connection list is shared by its readers. `Readers` are calls of `ConnList::next` on
one list whose probes (one `fetch_add` each) are interleaved: a call that is not disturbed between
two of its probes sees consecutive values of the cursor, and finds a connection
(`next_undisturbed`); one that is disturbed may probe the same position every time
(`next_disturbed`).
-/

namespace Slim

namespace SubscriptionTable

/-- The tables the operations build, with any values of the cursors. -/
inductive Reached (calculateHash : String → UInt64) : SubscriptionTable → Prop
  | empty : Reached calculateHash empty
  | add {t} (h : Reached calculateHash t) (name : ProtoName) (conn : ConnId) (ct : ConnType)
    (sid : SubId) : Reached calculateHash (t.addSubscription name conn ct sid).2
  | remove {t} (h : Reached calculateHash t) (name : ProtoName) (conn : ConnId) (ct : ConnType)
    (sid : SubId) : Reached calculateHash (t.removeSubscription name conn ct sid).2
  | removeConnection {t} (h : Reached calculateHash t) (conn : ConnId) (ct : ConnType) :
    Reached calculateHash (t.removeConnection calculateHash conn ct).2
  | removeRoutesTo {t} (h : Reached calculateHash t) (conn : ConnId) :
    Reached calculateHash (t.removeRoutesTo conn)
  | cursors {t t'} (h : Reached calculateHash t) (ho : OnlyCursors t t') : Reached calculateHash t'

variable {calculateHash : String → UInt64} {t : SubscriptionTable}

theorem Reached.wf (h : t.Reached calculateHash) : t.routing.Wf := by
  induction h with
  | empty => exact Routing.wf_empty
  | add _ name conn ct sid ih => exact routing_add ih name conn ct sid
  | remove _ name conn ct sid ih => exact routing_remove ih name conn ct sid
  | removeConnection _ conn ct ih => exact routing_removeConnection calculateHash ih conn ct
  | removeRoutesTo _ conn ih => exact (removeRoutesTo_spec ih conn).1
  | cursors _ ho ih => exact ho.wf ih

/-- **`match_one` agrees with `match_all`**, and moves nothing but cursors. -/
theorem matchOne_agrees (h : t.Reached calculateHash) (e : EncodedName) (incoming : ConnId)
    (filter : MatchFilter) :
    ((∃ err, (t.matchOne e incoming filter).1 = .error err) ↔
        ∃ err, t.matchAll e incoming filter = .error err) ∧
      (∀ c, (t.matchOne e incoming filter).1 = .ok c →
        (∃ out, t.matchAll e incoming filter = .ok out ∧ c ∈ out) ∧
        ∃ before ct after, ConnType.ALL.filter filter.includes = before ++ ct :: after ∧
          t.Offers e incoming ct c ∧ ∀ ct' ∈ before, ∀ c', ¬ t.Offers e incoming ct' c') ∧
      OnlyCursors t (t.matchOne e incoming filter).2 := by
  obtain ⟨hcursors, r, hr, hres⟩ := matchOne_first h.wf e incoming filter
  obtain ⟨-, hok, herr⟩ := matchOne_spec (fun _ => True) h.wf e incoming filter
  refine ⟨⟨fun ⟨err, he⟩ => ?_, fun ⟨err, he⟩ => ?_⟩, fun c hc => ⟨?_, ?_⟩, hcursors⟩
  · rw [matchAll_eq, if_pos (herr err he)]
    exact ⟨_, rfl⟩
  · rw [matchAll_eq] at he
    split at he
    · rename_i hnil
      cases hm : (t.matchOne e incoming filter).1 with
      | error err => exact ⟨err, rfl⟩
      | ok c => exact absurd (hnil ▸ hok c hm) List.not_mem_nil
    · cases he
  · have hmem := hok c hc
    rw [matchAll_eq, if_neg (List.ne_nil_of_mem hmem)]
    exact ⟨_, rfl, hmem⟩
  · rw [hres] at hc
    cases r with
    | none => cases hc
    | some c' =>
      obtain rfl : c' = c := Except.ok.inj hc
      exact hr.exists_source

/-- A name registered by a local and an edge connection. -/
theorem matchOne_agrees_local :
    let t :=
  ((empty.addSubscription sampleName 1 .Edge 0).2.addSubscription sampleName 2 .Local 0).2
    (t.matchOne ⟨1, 2, 3, none⟩ 0 .ALL).1 = .ok 2 ∧
      ∃ out, t.matchAll ⟨1, 2, 3, none⟩ 0 .ALL = .ok out ∧ 2 ∈ out := by
  intro t
  have h : t.Reached (fun _ => 0) := .add (.add .empty sampleName 1 .Edge 0) sampleName 2 .Local 0
  have hone : (t.matchOne ⟨1, 2, 3, none⟩ 0 .ALL).1 = .ok 2 := by decide +kernel
  exact ⟨hone, ((matchOne_agrees h _ _ _).2.1 2 hone).1⟩

end SubscriptionTable

/-! ## Readers of one cursor -/

namespace ConnList

/-- A call of `next`: how many probes it has left, and what it returned. -/
structure Reader where
  skip : ConnId
  left : Nat
  returned : Option (Option ConnId)
  deriving DecidableEq

/-- The calls on one list, and its cursor. -/
structure Readers where
  cursor : UInt64
  calls : List Reader

inductive ReadStep
  | call (skip : ConnId)
  | probe (i : Nat)

namespace Readers

/-- The part of `next` before its loop. -/
def start (conns : List ConnId) (skip : ConnId) : Reader :=
  match conns with
  | [] => ⟨skip, 0, some none⟩
  | [c] => ⟨skip, 0, some (if c ≠ skip then some c else none)⟩
  | conns => ⟨skip, conns.length, none⟩

/-- One round of the loop, with the position the cursor was at; the last one ends the call. -/
def probe (conns : List ConnId) (cursor : UInt64) (r : Reader) : Reader :=
  match conns[cursor.toNat % conns.length]? with
  | none => r
  | some c =>
    if c ≠ r.skip then { r with returned := some (some c) }
    else if r.left ≤ 1 then { r with left := 0, returned := some none }
    else { r with left := r.left - 1 }

def step (conns : List ConnId) (s : Readers) : ReadStep → Readers
  | .call skip => { s with calls := s.calls ++ [start conns skip] }
  | .probe i =>
    match s.calls[i]? with
    | none => s
    | some r =>
      if r.returned = none then ⟨s.cursor + 1, s.calls.set i (probe conns s.cursor r)⟩ else s

def run (l : ConnList) (steps : List ReadStep) : Readers :=
  steps.foldl (step l.conns) ⟨l.cursor, []⟩

/-- A call that could return a connection does. -/
def NoneLost (l : ConnList) (s : Readers) : Prop :=
  ∀ r ∈ s.calls, (∃ c ∈ l.conns, c ≠ r.skip) → ∀ out, r.returned = some out →
    ∃ c ∈ l.conns, c ≠ r.skip ∧ out = some c

/-- A probe is made only while no other call is between two of its own. -/
def Undisturbed (l : ConnList) (s : Readers) : ReadStep → Prop
  | .call _ => True
  | .probe i => ∀ x ∈ s.calls.zipIdx, x.2 ≠ i → x.1.returned = none → x.1.left = l.conns.length

instance (l : ConnList) (s : Readers) (a : ReadStep) : Decidable (Undisturbed l s a) := by
  cases a <;> unfold Undisturbed <;> infer_instance

/-- What the probes of a call have seen: consecutive positions that hold what it skips. -/
structure Seen (l : ConnList) (cursor : UInt64) (r : Reader) : Prop where
  several : 2 ≤ l.conns.length
  left_pos : 0 < r.left
  left_le : r.left ≤ l.conns.length
  probed : r.left < l.conns.length → ∃ a, cursor = a + UInt64.ofNat (l.conns.length - r.left) ∧
    ∀ j < l.conns.length - r.left,
      l.conns[(a + UInt64.ofNat j).toNat % l.conns.length]? = some r.skip

structure Inv (l : ConnList) (s : Readers) : Prop where
  noneLost : s.NoneLost l
  seen : ∀ r ∈ s.calls, r.returned = none → Seen l s.cursor r

variable {l : ConnList} {s : Readers} {cursor : UInt64}

theorem start_spec (conns : List ConnId) (skip : ConnId) :
    let r := start conns skip
    (r.returned = none → r.left = conns.length ∧ 2 ≤ conns.length) ∧
      ((∃ c ∈ conns, c ≠ r.skip) → ∀ out, r.returned = some out →
        ∃ c ∈ conns, c ≠ r.skip ∧ out = some c) := by
  match conns with
  | [] => simp [start]
  | [c] => by_cases hc : c = skip <;> simp [start, hc, eq_comm]
  | _ :: _ :: _ => simp [start]

theorem probe_spec {r : Reader} (h : Seen l cursor r) :
    (∃ c ∈ l.conns, c ≠ r.skip ∧
        probe l.conns cursor r = { r with returned := some (some c) }) ∨
      probe l.conns cursor r = { r with left := r.left - 1 } ∧
        Seen l (cursor + 1) { r with left := r.left - 1 } := by
  have hpos : 0 < l.conns.length := by have := h.several; omega
  have hat := List.getElem?_eq_getElem (Nat.mod_lt cursor.toNat hpos)
  unfold probe
  rw [hat]
  dsimp only
  split
  · rename_i hne
    exact .inl ⟨_, List.getElem_mem _, hne, rfl⟩
  · rename_i he
    -- with this probe the call has seen one more consecutive position
    have hseen : ∃ a, cursor = a + UInt64.ofNat (l.conns.length - r.left) ∧
        ∀ j ≤ l.conns.length - r.left,
          l.conns[(a + UInt64.ofNat j).toNat % l.conns.length]? = some r.skip := by
      have hnow : l.conns[cursor.toNat % l.conns.length]? = some r.skip := by
        rw [hat, not_not.mp he]
      rcases Nat.lt_or_eq_of_le h.left_le with hlt | hfull
      · obtain ⟨a, ha, hall⟩ := h.probed hlt
        refine ⟨a, ha, fun j hj => ?_⟩
        rcases Nat.lt_or_eq_of_le hj with hj | rfl
        · exact hall j hj
        · exact ha ▸ hnow
      · refine ⟨cursor, by rw [hfull, Nat.sub_self]; exact (UInt64.add_zero _).symm, fun j hj => ?_⟩
        obtain rfl : j = 0 := by omega
        exact (UInt64.add_zero cursor).symm ▸ hnow
    obtain ⟨a, ha, hall⟩ := hseen
    have hleft : ¬ r.left ≤ 1 := by
      intro hle
      refine PrefixEntry.not_all_probes_skip h.several r.skip a fun j hj => hall j ?_
      omega
    rw [if_neg hleft]
    refine .inr ⟨rfl, h.several, by dsimp only; omega, by have := h.left_le; dsimp only; omega,
      fun _ => ⟨a, ?_, fun j hj => hall j (by dsimp only at hj; omega)⟩⟩
    have := h.left_le
    rw [ha, UInt64.add_assoc,
      show l.conns.length - (r.left - 1) = l.conns.length - r.left + 1 by omega, UInt64.ofNat_add]
    rfl

theorem Inv.step (h : Inv l s) (a : ReadStep) (ha : Undisturbed l s a) :
    Inv l (Readers.step l.conns s a) := by
  cases a with
  | call skip =>
    obtain ⟨hrunning, hlost⟩ := start_spec l.conns skip
    constructor
    · intro r hr
      rcases List.mem_append.mp hr with hr | hr
      · exact h.noneLost r hr
      · rw [List.mem_singleton.mp hr]
        exact hlost
    · intro r hr hret
      rcases List.mem_append.mp hr with hr | hr
      · exact h.seen r hr hret
      · rw [List.mem_singleton.mp hr] at hret ⊢
        obtain ⟨hleft, hn⟩ := hrunning hret
        exact ⟨hn, by omega, by omega, fun hlt => absurd hleft (Nat.ne_of_lt hlt)⟩
  | probe i =>
    dsimp only [Readers.step]
    split
    · exact h
    · rename_i r₀ hi
      split
      swap
      · exact h
      rename_i hrunning
      have hprobe := probe_spec (h.seen r₀ (List.mem_of_getElem? hi) hrunning)
      have hcase : ∀ r ∈ s.calls.set i (probe l.conns s.cursor r₀),
          r = probe l.conns s.cursor r₀ ∨ ∃ j, j ≠ i ∧ s.calls[j]? = some r := by
        intro r hr
        obtain ⟨j, hj⟩ := List.mem_iff_getElem?.mp hr
        rw [List.getElem?_set] at hj
        split at hj
        · split at hj
          · exact .inl (Option.some.inj hj).symm
          · cases hj
        · rename_i hne
          exact .inr ⟨j, Ne.symm hne, hj⟩
      constructor
      · intro r hr
        rcases hcase r hr with rfl | ⟨j, -, hj⟩
        · intro _ out hout
          rcases hprobe with ⟨c, hc, hne, he⟩ | ⟨he, -⟩
          · rw [he] at hout ⊢
            cases hout
            exact ⟨c, hc, hne, rfl⟩
          · rw [he, hrunning] at hout
            cases hout
        · exact h.noneLost r (List.mem_of_getElem? hj)
      · intro r hr hret
        rcases hcase r hr with rfl | ⟨j, hne, hj⟩
        · rcases hprobe with ⟨c, -, -, he⟩ | ⟨he, hseen⟩
          · rw [he] at hret
            cases hret
          · rw [he]
            exact hseen
        · have hold := h.seen r (List.mem_of_getElem? hj) hret
          have hleft := ha (r, j) (List.mem_zipIdx_iff_getElem?.mpr hj) hne hret
          exact ⟨hold.several, hold.left_pos, hold.left_le,
            fun hlt => absurd hleft (Nat.ne_of_lt hlt)⟩

/-- **No match is lost among readers that do not disturb each other.** -/
theorem next_undisturbed (l : ConnList) (steps : List ReadStep)
    (h : Run.Meets (Readers.step l.conns) (Undisturbed l) ⟨l.cursor, []⟩ steps) :
    (run l steps).NoneLost l :=
  have hinit : Inv l ⟨l.cursor, []⟩ := ⟨fun _ hr => (by cases hr), fun _ hr => (by cases hr)⟩
  (h.invariant (fun _ a hi ha => hi.step a ha) hinit).noneLost

theorem next_undisturbed_skip : (run ⟨[1, 2], 0, by decide⟩
    [.call 1, .call 1, .probe 0, .probe 0, .probe 1]).NoneLost ⟨[1, 2], 0, by decide⟩ :=
  next_undisturbed _ _ (by decide)

/-- Two readers that skip the same connection take turns on a list of two: the first one is sent to
the position it skips both times. -/
theorem next_disturbed : ¬ ∀ (l : ConnList) (steps : List ReadStep), (run l steps).NoneLost l := by
  intro h
  obtain ⟨c, -, -, hc⟩ := h ⟨[1, 2], 0, by decide⟩ [.call 1, .call 1, .probe 0, .probe 1, .probe 0]
    ⟨1, 0, some none⟩ (by decide) ⟨2, by decide⟩ none rfl
  cases hc

end Readers

end ConnList

end Slim
