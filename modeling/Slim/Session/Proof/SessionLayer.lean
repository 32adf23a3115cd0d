import Slim.Lib.Lookup
import Slim.Lib.Run
import Slim.Session.SessionLayer

/-!
# A session is deleted by its own notification

A notification names a session id, and an id may be given to a new session once it is out of the
pool. `deletes_own`: if an id is used again only when the earlier controllers with it are done
(their loops have ended and the layer is through with their notifications), a `DeleteSession`
removes its sender's session, record and group only. `deletes_successor`: a participant that leaves
is removed from the pool at once, and the notification at the end of its loop removes the session
that was created in between.
-/

namespace Slim.SessionLayer

variable {s s' : SessionLayer} {id n m : Nat} {c : ControllerState}

/-- The `DeleteSession`s that are handled or wait, in order. -/
def pending (s : SessionLayer) : List (Nat × Nat) :=
  s.deleting.toList.map (fun d => (d.1, d.2.1)) ++ s.notifications

/-- Controller `n`, of session `id`, may still be put into the pool, send a notification, or have
one that is not handled. -/
def Unfinished (s : SessionLayer) (id n : Nat) : Prop :=
  ∃ c, s.controllers[n]? = some c ∧ c.id = id ∧
    (c.settled = false ∨ c.ended = false ∨ ∃ q ∈ s.pending, q.2 = n)

instance decidableUnfinished (s : SessionLayer) (id n : Nat) : Decidable (s.Unfinished id n) :=
  decidable_of_iff (∃ c ∈ s.controllers[n]?, c.id = id ∧
    (c.settled = false ∨ c.ended = false ∨ ∃ q ∈ s.pending, q.2 = n)) Iff.rfl

/-- No earlier controller of this session id is left. -/
def Unused (s : SessionLayer) (id : Nat) : Prop :=
  s.pool.lookup id = none ∧ ∀ n < s.controllers.length, ¬ s.Unfinished id n

instance decidableUnused (s : SessionLayer) (id : Nat) : Decidable (s.Unused id) :=
  inferInstanceAs (Decidable (_ ∧ _))

/-- An id is used again only when its controllers are done; a new session has no record. -/
def ReusesDone (s : SessionLayer) : Action → Prop
  | .create id draw =>
    match s.chooseId id draw with
    | .ok (some id) => s.Unused id ∧ s.records.lookup id = none
    | _ => True
  | .restore id => s.Unused id
  | _ => True

instance decidableReusesDone (s : SessionLayer) : ∀ a, Decidable (s.ReusesDone a)
  | .create id draw =>
    match h : s.chooseId id draw with
    | .ok (some id) => decidable_of_iff (s.Unused id ∧ s.records.lookup id = none)
        (by simp [ReusesDone, h])
    | .ok none => .isTrue (by simp [ReusesDone, h])
    | .error _ => .isTrue (by simp [ReusesDone, h])
  | .restore id => inferInstanceAs (Decidable (s.Unused id))
  | .insert _ | .persist .. | .onLeaveRequest _ | .endLoop _ | .onDeleteSession | .shutdown =>
    .isTrue trivial

/-- What the next part of the handling of a `DeleteSession` removes is its sender's. A group belongs
to the record that names it. -/
def DeletesOwn (s : SessionLayer) : Prop :=
  ∀ id n rest, s.pending = (id, n) :: rest →
    (∀ i m, s.pool.lookup i = some m → s.onDeleteSession.pool.lookup i = some m ∨ m = n) ∧
    (∀ i r, s.records.lookup i = some r →
      s.onDeleteSession.records.lookup i = some r ∨ r.owner = some n) ∧
    ∀ g ∈ s.groups, g ∈ s.onDeleteSession.groups ∨
      ∃ r, s.deleting = some (id, n, .group r) ∧ r.groupId = some g ∧ r.owner = some n

/-! ## The invariant -/

/-- At most one controller of each id is unfinished; if there is one, the session in the pool and
the record are its own. -/
structure Owned (s : SessionLayer) : Prop where
  single : ∀ {id n m}, s.Unfinished id n → s.Unfinished id m → n = m
  pool : ∀ {id n m}, s.Unfinished id n → s.pool.lookup id = some m → m = n
  records : ∀ {id n r}, s.Unfinished id n → s.records.lookup id = some r → r.owner = some n
  sent : ∀ q ∈ s.pending, ∃ c, s.controllers[q.2]? = some c ∧ c.id = q.1
  read : ∀ {id n r}, s.deleting = some (id, n, .group r) → r.owner = some n

theorem owned_init (records : AList fun _ : Nat => PersistedRecord) (groups : List Bytes) :
    Owned { records, groups } where
  single := fun ⟨_, hc, _⟩ => by simp at hc
  pool := fun ⟨_, hc, _⟩ => by simp at hc
  records := fun ⟨_, hc, _⟩ => by simp at hc
  sent := fun _ hq => by cases hq
  read := fun h => by cases h

theorem Owned.deletesOwn (h : Owned s) : s.DeletesOwn := by
  intro id n rest hq
  obtain ⟨c, hc, hid⟩ := h.sent (id, n) (by rw [hq]; exact List.mem_cons_self)
  have hun : s.Unfinished id n :=
    ⟨c, hc, hid, .inr (.inr ⟨(id, n), by rw [hq]; exact List.mem_cons_self, rfl⟩)⟩
  unfold pending at hq
  unfold onDeleteSession
  rcases hdel : s.deleting with _ | ⟨id', n', _ | record | _⟩ <;> rw [hdel] at hq
  · obtain hq : s.notifications = (id, n) :: rest := hq
    rw [hq]
    refine ⟨fun i m hm => ?_, fun _ _ hr => .inl hr, fun _ hg => .inl hg⟩
    by_cases hi : i = id
    · subst hi
      exact .inr (h.pool hun hm)
    · exact .inl ((AList.lookup_erase_ne hi).trans hm)
  all_goals
    obtain ⟨⟨rfl, rfl⟩, -⟩ : (id' = id ∧ n' = n) ∧ s.notifications = rest := by simpa using hq
  · dsimp only
    split <;> exact ⟨fun _ _ hm => .inl hm, fun _ _ hr => .inl hr, fun _ hg => .inl hg⟩
  · refine ⟨fun _ _ hm => .inl hm, fun _ _ hr => .inl hr, fun g hg => ?_⟩
    by_cases hgg : record.groupId = some g
    · exact .inr ⟨record, rfl, hgg, h.read hdel⟩
    · exact .inl (List.mem_filter.mpr ⟨hg, by simpa using hgg⟩)
  · refine ⟨fun _ _ hm => .inl hm, fun i r hr => ?_, fun _ hg => .inl hg⟩
    by_cases hi : i = id'
    · subst hi
      exact .inr (h.records hun hr)
    · exact .inl ((AList.lookup_erase_ne hi).trans hr)

/-- A step that makes no controller unfinished, and puts into the pool and the records only what is
an unfinished controller's. -/
theorem Owned.weaken (h : Owned s) (hun : ∀ id n, s'.Unfinished id n → s.Unfinished id n)
    (hpool : ∀ id m, s'.pool.lookup id = some m → s.pool.lookup id = some m ∨ s.Unfinished id m)
    (hrecords : ∀ id r, s'.records.lookup id = some r → s.records.lookup id = some r ∨
      ∃ n, s.Unfinished id n ∧ r.owner = some n)
    (hsent : ∀ q ∈ s'.pending, ∃ c, s'.controllers[q.2]? = some c ∧ c.id = q.1)
    (hread : ∀ id n r, s'.deleting = some (id, n, .group r) → r.owner = some n) :
    Owned s' where
  single h₁ h₂ := h.single (hun _ _ h₁) (hun _ _ h₂)
  pool h₁ hm := by
    obtain hm | hm := hpool _ _ hm
    · exact h.pool (hun _ _ h₁) hm
    · exact h.single hm (hun _ _ h₁)
  records h₁ hr := by
    obtain hr | ⟨n, hn, hr⟩ := hrecords _ _ hr
    · exact h.records (hun _ _ h₁) hr
    · rw [hr, h.single hn (hun _ _ h₁)]
  sent := hsent
  read := hread _ _ _

/-! ## Steps -/

theorem Unfinished.of_settled (hc : s.controllers[n]? = some c) (h : c.settled = false) :
    s.Unfinished c.id n := ⟨c, hc, rfl, .inl h⟩

theorem running_some (h : s.running n = some c) :
    s.controllers[n]? = some c ∧ s.Unfinished c.id n := by
  obtain ⟨hc, he⟩ := Option.filter_eq_some_iff.mp h
  exact ⟨hc, c, hc, rfl, .inr (.inl (by simpa using he))⟩

/-- Only unfinished controllers change, and only they send. -/
theorem Unfinished.of_step
    (hctl : ∀ k d, s'.controllers[k]? = some d → s.controllers[k]? = some d ∨ s.Unfinished d.id k)
    (hq : ∀ q ∈ s'.pending, q ∈ s.pending ∨ ∃ i, s.Unfinished i q.2) (i k : Nat)
    (h : s'.Unfinished i k) : s.Unfinished i k := by
  obtain ⟨d, hd, rfl, h⟩ := h
  obtain hd | hlive := hctl k d hd
  · obtain h | h | ⟨q, hq', rfl⟩ := h
    · exact ⟨d, hd, rfl, .inl h⟩
    · exact ⟨d, hd, rfl, .inr (.inl h)⟩
    · obtain hq' | ⟨_, c, hc, -, hlive⟩ := hq q hq'
      · exact ⟨d, hd, rfl, .inr (.inr ⟨q, hq', rfl⟩)⟩
      · cases hd.symm.trans hc
        exact ⟨d, hd, rfl, hlive⟩
  · exact hlive

theorem Owned.build (h : Owned s) (hunused : s.Unused id)
    (hctl : s'.controllers = s.controllers ++ [{ id := id }]) (hpool : s'.pool = s.pool)
    (hq : s'.notifications = s.notifications) (hdel : s'.deleting = s.deleting)
    (hrecords : ∀ i r, s'.records.lookup i = some r →
      i ≠ id ∧ s.records.lookup i = some r ∨ i = id ∧ r.owner = some s.controllers.length) :
    Owned s' := by
  have hpending : s'.pending = s.pending := by rw [pending, pending, hq, hdel]
  have hun : ∀ {i k}, s'.Unfinished i k →
      s.Unfinished i k ∧ i ≠ id ∨ k = s.controllers.length ∧ i = id := by
    rintro i k ⟨d, hd, rfl, hd'⟩
    rw [hctl] at hd
    by_cases hk : k < s.controllers.length
    · rw [List.getElem?_append_left hk] at hd
      rw [hpending] at hd'
      have hlive : s.Unfinished d.id k := ⟨d, hd, rfl, hd'⟩
      exact .inl ⟨hlive, fun hid => hunused.2 k hk (hid ▸ hlive)⟩
    · rw [List.getElem?_append_right (by omega)] at hd
      have hk' : k = s.controllers.length := by
        by_contra hne
        rw [List.getElem?_eq_none (by simp; omega)] at hd
        cases hd
      subst hk'
      simp only [Nat.sub_self, List.getElem?_cons_zero, Option.some.injEq] at hd
      exact .inr ⟨rfl, hd ▸ rfl⟩
  refine ⟨fun h₁ h₂ => ?_, fun h₁ hm => ?_, fun h₁ hr => ?_, fun q hq' => ?_,
    fun h₁ => h.read (hdel ▸ h₁)⟩
  · obtain ⟨h₁, hne⟩ | ⟨rfl, rfl⟩ := hun h₁ <;> obtain ⟨h₂, hne'⟩ | ⟨rfl, hid⟩ := hun h₂
    · exact h.single h₁ h₂
    · exact absurd hid hne
    · exact absurd rfl hne'
    · rfl
  · rw [hpool] at hm
    obtain ⟨h₁, -⟩ | ⟨rfl, rfl⟩ := hun h₁
    · exact h.pool h₁ hm
    · rw [hunused.1] at hm
      cases hm
  · obtain ⟨h₁, hne⟩ | ⟨rfl, rfl⟩ := hun h₁
    · obtain ⟨-, hr⟩ | ⟨hid, -⟩ := hrecords _ _ hr
      · exact h.records h₁ hr
      · exact absurd hid hne
    · obtain ⟨hne, -⟩ | ⟨-, hr⟩ := hrecords _ _ hr
      · exact absurd rfl hne
      · exact hr
  · rw [hpending] at hq'
    obtain ⟨c, hc, hid⟩ := h.sent q hq'
    refine ⟨c, ?_, hid⟩
    rw [hctl, List.getElem?_append_left (List.getElem?_eq_some_iff.mp hc).1]
    exact hc

theorem Owned.create (h : Owned s) {draw : Nat} {want : Option Nat}
    (hs : s.ReusesDone (.create want draw)) : Owned (s.create want draw) := by
  dsimp only [ReusesDone] at hs
  unfold SessionLayer.create
  split
  · rename_i id hid
    rw [hid] at hs
    refine h.build hs.1 rfl rfl rfl rfl fun i r hr => .inl ⟨?_, hr⟩
    rintro rfl
    rw [SessionLayer.build, hs.2] at hr
    cases hr
  · exact h

theorem Owned.restore (h : Owned s) (hs : s.Unused id) : Owned (s.restore id) := by
  unfold SessionLayer.restore
  split
  · exact h
  · refine h.build hs rfl rfl rfl rfl fun i r hr => ?_
    obtain ⟨rfl, rfl⟩ | hr := AList.lookup_insert_iff.mp hr
    · exact .inr ⟨rfl, rfl⟩
    · exact .inl hr

section
variable {c c' : ControllerState}

theorem getElem?_set_controller (hc : s.controllers[n]? = some c) (hid : c'.id = c.id)
    (hlive : s.Unfinished c.id n) (k : Nat) (d : ControllerState)
    (hd : (s.controllers.set n c')[k]? = some d) :
    s.controllers[k]? = some d ∨ s.Unfinished d.id k := by
  rw [List.getElem?_set] at hd
  by_cases hk : n = k
  · subst hk
    rw [if_pos rfl, if_pos (List.getElem?_eq_some_iff.mp hc).1, Option.some.injEq] at hd
    rw [← hd, hid]
    exact .inr hlive
  · rw [if_neg hk] at hd
    exact .inl hd

theorem Owned.sent_set (h : Owned s) (hc : s.controllers[n]? = some c) (hid : c'.id = c.id)
    {q : Nat × Nat} (hq : q ∈ s.pending ∨ q = (c.id, n)) :
    ∃ d, (s.controllers.set n c')[q.2]? = some d ∧ d.id = q.1 := by
  have hold : ∃ d, s.controllers[q.2]? = some d ∧ d.id = q.1 := by
    obtain hq | rfl := hq
    · exact h.sent q hq
    · exact ⟨c, hc, rfl⟩
  obtain ⟨d, hd, hdid⟩ := hold
  rw [List.getElem?_set]
  by_cases hk : n = q.2
  · subst hk
    rw [if_pos rfl, if_pos (List.getElem?_eq_some_iff.mp hc).1]
    cases hc.symm.trans hd
    exact ⟨c', rfl, hid.trans hdid⟩
  · rw [if_neg hk]
    exact ⟨d, hd, hdid⟩

end

section
variable (h : Owned s)
include h

theorem Owned.insert (n : Nat) : Owned (s.insert n) := by
  unfold SessionLayer.insert
  split
  · exact h
  · rename_i c hc
    split
    · exact h
    · rename_i hset
      have hlive : s.Unfinished c.id n := .of_settled hc (by simpa using hset)
      refine h.weaken (.of_step (getElem?_set_controller hc rfl hlive) fun _ hq => .inl hq) ?_
        (fun _ _ hr => .inl hr) (fun q hq => ?_) fun _ _ _ => h.read
      · intro i m hm
        split at hm
        · exact .inl hm
        · obtain ⟨rfl, rfl⟩ | ⟨-, hm⟩ := AList.lookup_insert_iff.mp hm
          · exact .inr hlive
          · exact .inl hm
      · have hid : { c with settled := true }.id = c.id := rfl
        exact h.sent_set hc hid (.inl hq)

theorem Owned.persist (n : Nat) (groupId : Option Bytes) : Owned (s.persist n groupId) := by
  unfold SessionLayer.persist
  split
  · exact h
  · rename_i c hrun
    obtain ⟨-, hlive⟩ := running_some hrun
    refine h.weaken (fun _ _ hun => hun) (fun _ _ hm => .inl hm) (fun i r hr => ?_) h.sent
      fun _ _ _ => h.read
    obtain ⟨rfl, rfl⟩ | ⟨-, hr⟩ := AList.lookup_insert_iff.mp hr
    · exact .inr ⟨n, hlive, rfl⟩
    · exact .inl hr

theorem Owned.notify {c' : ControllerState} (hc : s.controllers[n]? = some c) (hid : c'.id = c.id)
    (hlive : s.Unfinished c.id n) :
    Owned ({ s with controllers := s.controllers.set n c' }.notify c n) := by
  have hctl := getElem?_set_controller hc hid hlive
  unfold SessionLayer.notify
  split
  · have hmem (q : Nat × Nat) (hq : q ∈ pending { s with
        controllers := s.controllers.set n c', notifications := s.notifications ++ [(c.id, n)] }) :
        q ∈ s.pending ∨ q = (c.id, n) := by
      simpa [pending, or_assoc] using hq
    refine h.weaken (.of_step hctl fun q hq => ?_) (fun _ _ hm => .inl hm) (fun _ _ hr => .inl hr)
      (fun q hq => h.sent_set hc hid (hmem q hq)) fun _ _ _ => h.read
    obtain hq | rfl := hmem q hq
    · exact .inl hq
    · exact .inr ⟨c.id, hlive⟩
  · exact h.weaken (.of_step hctl fun _ hq => .inl hq) (fun _ _ hm => .inl hm)
      (fun _ _ hr => .inl hr) (fun q hq => h.sent_set hc hid (.inl hq)) fun _ _ _ => h.read

theorem Owned.onLeaveRequest (n : Nat) : Owned (s.onLeaveRequest n) := by
  unfold SessionLayer.onLeaveRequest
  split
  · exact h
  · rename_i c hrun
    obtain ⟨hc, hlive⟩ := running_some hrun
    have hsame : s.controllers.set n c = s.controllers := by
      obtain ⟨hn, rfl⟩ := List.getElem?_eq_some_iff.mp hc
      exact List.set_getElem_self hn
    have hsent := h.notify hc rfl hlive
    rwa [hsame] at hsent

theorem Owned.endLoop (n : Nat) : Owned (s.endLoop n) := by
  unfold SessionLayer.endLoop
  split
  · exact h
  · rename_i c hrun
    obtain ⟨hc, hlive⟩ := running_some hrun
    exact h.notify hc rfl hlive

theorem Owned.onDeleteSession : Owned s.onDeleteSession := by
  -- no part makes a notification pending or adds to the pool or the records
  have hstep {s' : SessionLayer} (hctl : s'.controllers = s.controllers)
      (hq : ∀ q ∈ s'.pending, q ∈ s.pending)
      (hpool : ∀ i m, s'.pool.lookup i = some m → s.pool.lookup i = some m)
      (hrecords : ∀ i r, s'.records.lookup i = some r → s.records.lookup i = some r)
      (hread : ∀ id n r, s'.deleting = some (id, n, .group r) → r.owner = some n) : Owned s' :=
    h.weaken (.of_step (fun _ _ hd => .inl (hctl ▸ hd)) fun q hq' => .inl (hq q hq'))
      (fun i m hm => .inl (hpool i m hm)) (fun i r hr => .inl (hrecords i r hr))
      (fun q hq' => hctl ▸ h.sent q (hq q hq')) hread
  unfold SessionLayer.onDeleteSession
  rcases hdel : s.deleting with _ | ⟨id, n, _ | record | _⟩ <;> dsimp only
  · split
    · exact h
    · next id n rest hq =>
      exact hstep rfl (fun q hq' => by simpa [pending, hdel, hq] using hq')
        (fun i m hm => (AList.lookup_erase_iff.mp hm).2) (fun _ _ hr => hr)
          fun _ _ _ h => by cases h
  · have hsame (stage) (q) (hq : q ∈ pending { s with deleting := some (id, n, stage) }) :
        q ∈ s.pending := by
      simpa [pending, hdel] using hq
    split
    · exact hstep rfl (hsame _) (fun _ _ hm => hm) (fun _ _ hr => hr) fun _ _ _ h => by cases h
    · next record hrecord =>
      have hhandled : (id, n) ∈ s.pending := by simp [pending, hdel]
      obtain ⟨c, hc, hid⟩ := h.sent (id, n) hhandled
      have hun : s.Unfinished id n := ⟨c, hc, hid, .inr (.inr ⟨(id, n), hhandled, rfl⟩)⟩
      refine hstep rfl (hsame _) (fun _ _ hm => hm) (fun _ _ hr => hr) fun _ _ _ heq => ?_
      cases heq
      exact h.records hun hrecord
  · exact hstep rfl (fun q hq => by simpa [pending, hdel] using hq) (fun _ _ hm => hm)
      (fun _ _ hr => hr) fun _ _ _ h => by cases h
  · exact hstep rfl (fun q hq => by simp_all [pending]) (fun _ _ hm => hm)
      (fun i r hr => (AList.lookup_erase_iff.mp hr).2) fun _ _ _ h => by cases h

theorem Owned.shutdown : Owned s.shutdown := by
  have hmem (q) (hq : q ∈ s.shutdown.pending) : q ∈ s.pending := by
    simp only [pending, SessionLayer.shutdown, List.append_nil] at hq
    exact List.mem_append_left _ hq
  exact h.weaken (.of_step (fun _ _ hd => .inl hd) fun q hq => .inl (hmem q hq))
    (fun _ _ hm => .inl hm) (fun _ _ hr => .inl hr) (fun q hq => h.sent q (hmem q hq))
    fun _ _ _ => h.read

theorem Owned.step {a : Action} (ha : s.ReusesDone a) : Owned (s.step a) := by
  cases a with
  | create want draw => exact h.create ha
  | restore id => exact h.restore ha
  | insert n => exact h.insert n
  | persist n groupId => exact h.persist n groupId
  | onLeaveRequest n => exact h.onLeaveRequest n
  | endLoop n => exact h.endLoop n
  | onDeleteSession => exact h.onDeleteSession
  | shutdown => exact h.shutdown

end

/-! ## Runs -/

/-- In every run, from the records and groups of an earlier process, that uses an id again only when
its controllers are done, a `DeleteSession` removes its sender's session only. -/
theorem deletes_own (records : AList fun _ : Nat => PersistedRecord) (groups : List Bytes)
    (run : List Action) (hrun : Run.Meets step ReusesDone { records, groups } run) :
    (run.foldl step { records, groups }).DeletesOwn := by
  have h : Owned (run.foldl step { records, groups }) :=
    hrun.invariant (fun _ _ hs ha => hs.step ha) (owned_init records groups)
  exact h.deletesOwn

def sampleDelete : List Action := List.replicate 4 .onDeleteSession

/-- A session with id 7 that is asked to leave. -/
def sampleLeave : List Action :=
  [.create (some 7) 0, .insert 0, .persist 0 none, .onLeaveRequest 0] ++ sampleDelete

def sampleJoin : List Action := [.create (some 7) 0, .insert 1, .persist 1 (some [1])]

/-- The end of the loop comes before the next session. The second `DeleteSession` finds no record,
so that its handling has one part less; that of the second session has come to its group. -/
theorem deletes_own_in_turn :
    let run := sampleLeave ++ [.endLoop 0, .onDeleteSession, .onDeleteSession, .onDeleteSession] ++
      sampleJoin ++ [Action.endLoop 1, .onDeleteSession, .onDeleteSession]
    let s := run.foldl step {}
    s.DeletesOwn ∧ s.pending = [(7, 1)] ∧ s.groups = [[1]] ∧ s.onDeleteSession.groups = [] :=
  ⟨deletes_own ∅ [] _ (by decide +kernel), by decide +kernel, by decide +kernel, by decide +kernel⟩

/-- The end of the loop comes after the next session was created: its notification removes the new
session, its group and its record. -/
theorem deletes_successor :
    let s := (sampleLeave ++ sampleJoin ++ [Action.endLoop 0]).foldl step {}
    let s' := sampleDelete.foldl step s
    s.pending = [(7, 0)] ∧ s.pool.lookup 7 = some 1 ∧ s'.pool.lookup 7 = none ∧
      s'.records.lookup 7 = none ∧ s'.groups = [] ∧ ¬ s.DeletesOwn := by
  refine ⟨by decide +kernel, by decide +kernel, by decide +kernel, by decide +kernel,
    by decide +kernel, fun h => ?_⟩
  obtain hleft | hown := (h 7 0 [] (by decide +kernel)).1 7 1 (by decide +kernel)
  · exact absurd hleft (by decide +kernel)
  · exact absurd hown (by decide)

/-- A session that is created while an earlier one is being deleted loses its record. -/
example :
    let s := (sampleLeave.dropLast ++ sampleJoin).foldl step {}
    s.records.lookup 7 = some ⟨some [1], some 1⟩ ∧ s.onDeleteSession.records.lookup 7 = none := by
  decide +kernel

end Slim.SessionLayer
