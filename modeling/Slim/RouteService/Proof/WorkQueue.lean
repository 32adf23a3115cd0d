import Mathlib.Data.Fintype.Basic
import Slim.Lib.Run
import Slim.RouteService.WorkQueue

/-!
# What the work queue guarantees

An item is queued, being processed, or neither, and each item that is processed has one worker
(`Safe`). Of the calls on `notify`, no `notify_one` is lost: while there is an item in the queue,
the permit is stored, the call is still due, or a worker is not asleep (`Awake.busy`). A
`notify_waiters` is lost on a worker that has found the queue empty and has not called `notified()`
yet.
-/

namespace Slim

variable {W T : Type} [DecidableEq T] {x : T}

/-! ## The queue -/

namespace WorkQueue

variable {q : WorkQueue T}

structure Wf (q : WorkQueue T) : Prop where
  nodup : q.queue.Nodup
  mem_queued : ∀ x, x ∈ q.queued ↔ x ∈ q.queue
  apart : ∀ x ∈ q.queued, x ∉ q.processing
  dirty : q.dirty ⊆ q.processing

/-- `x` waits for a worker, or for the one that has it. -/
def Pending (q : WorkQueue T) (x : T) : Prop := x ∈ q.queue ∨ x ∈ q.dirty ∧ x ∈ q.processing

section
variable (h : q.Wf)
include h

/-- Nothing is in the queue but what is queued, and one item more. -/
theorem Wf.push {r : WorkQueue T} (hqueue : r.queue = q.queue ++ [x])
    (hqueued : r.queued = insert x q.queued) (hproc : r.processing ⊆ q.processing)
    (hdirty : r.dirty ⊆ r.processing) (hx : x ∉ q.queue) (hfree : x ∉ r.processing) : r.Wf where
  nodup := by
    rw [hqueue, List.nodup_append]
    exact ⟨h.nodup, List.nodup_singleton x, fun a ha b hb hab => hx (by simp_all)⟩
  mem_queued y := by
    rw [hqueue, hqueued, Finset.mem_insert, h.mem_queued, List.mem_append, List.mem_singleton,
      or_comm]
  apart y hy hp := by
    rw [hqueued, Finset.mem_insert] at hy
    rcases hy with rfl | hy
    · exact hfree hp
    · exact h.apart y hy (hproc hp)
  dirty := hdirty

theorem Wf.add_cases (x : T) :
    q.add x = (false, q) ∧ (q.shutdown = true ∨ q.Pending x) ∨
    q.add x = (false, { q with dirty := insert x q.dirty }) ∧ x ∈ q.processing ∨
    q.add x = (true, { q with queue := q.queue ++ [x], queued := insert x q.queued }) ∧
      x ∉ q.queue ∧ x ∉ q.processing ∧ q.shutdown = false := by
  unfold add
  by_cases hno : q.shutdown ∨ x ∈ q.queued ∨ x ∈ q.dirty
  · refine .inl ⟨if_pos hno, hno.imp id fun hx => ?_⟩
    exact hx.imp (h.mem_queued x).mp fun hx => ⟨hx, h.dirty hx⟩
  · rw [if_neg hno]
    simp only [not_or, h.mem_queued, Bool.not_eq_true] at hno
    by_cases hx : x ∈ q.processing
    · exact .inr (.inl ⟨if_pos hx, hx⟩)
    · exact .inr (.inr ⟨if_neg hx, hno.2.1, hx, hno.1⟩)

end

end WorkQueue

namespace Workers

open WorkQueue

variable [DecidableEq W] {s : Workers W T} {w v : W}

omit [DecidableEq T] in
theorem setPhase_eq {p p' : Phase T} :
    s.setPhase w p v = p' ↔ v = w ∧ p = p' ∨ v ≠ w ∧ s.phase v = p' := by
  by_cases h : v = w
  · subst h
    simp [setPhase]
  · simp [setPhase, h]

omit [DecidableEq T] in
theorem setPhase_self {p : Phase T} : s.setPhase w p w = p := setPhase_eq.mpr (.inl ⟨rfl, rfl⟩)

omit [DecidableEq T] in
/-- A worker that is not in the new phase is another one. -/
theorem of_setPhase {p p' : Phase T} (hv : s.setPhase w p v = p') (hp : p ≠ p') :
    v ≠ w ∧ s.phase v = p' :=
  (setPhase_eq.mp hv).resolve_left fun h => hp h.2

omit [DecidableEq T] in
theorem of_wake {ws : List W} {p : Phase T} (hv : s.wake ws v = p) (hp : .ready ≠ p) :
    v ∉ ws ∧ s.phase v = p := by
  unfold wake at hv
  split at hv
  · exact absurd hv hp
  · exact ⟨‹_›, hv⟩

/-! ## Safety -/

structure Safe (s : Workers W T) : Prop where
  wf : s.queue.Wf
  held : ∀ {w x}, s.phase w = .holding x → x ∈ s.queue.processing
  unique : ∀ {w w' x}, s.phase w = .holding x → s.phase w' = .holding x → w = w'
  fifo : s.entered = s.popped ++ s.queue.queue
  kept : ∀ x ∈ s.unserved, s.queue.Pending x

theorem Safe.add (h : s.Safe) (x : T) : (s.step (.add x)).Safe := by
  have hkept {q : WorkQueue T} (hx : s.queue.shutdown = true ∨ q.Pending x)
      (hmono : ∀ y, s.queue.Pending y → q.Pending y) :
      ∀ y ∈ if s.queue.shutdown then s.unserved else insert x s.unserved, q.Pending y := by
    intro y hy
    split at hy
    · exact hmono y (h.kept y hy)
    · rename_i hopen
      rcases Finset.mem_insert.mp hy with rfl | hy
      · exact hx.resolve_left hopen
      · exact hmono y (h.kept y hy)
  simp only [step]
  rcases h.wf.add_cases x with ⟨hadd, hx⟩ | ⟨hadd, hx⟩ | ⟨hadd, hx, hfree, -⟩ <;> rw [hadd]
  · exact ⟨h.wf, h.held, h.unique, h.fifo, hkept hx fun _ => id⟩
  · refine ⟨⟨h.wf.nodup, h.wf.mem_queued, h.wf.apart, ?_⟩, h.held, h.unique, h.fifo, hkept ?_ ?_⟩
    · exact Finset.insert_subset hx h.wf.dirty
    · exact .inr (.inr ⟨Finset.mem_insert_self x _, hx⟩)
    · exact fun y hy => hy.imp id fun hy => ⟨Finset.mem_insert_of_mem hy.1, hy.2⟩
  · have hwf := h.wf.push (r := { s.queue with
      queue := s.queue.queue ++ [x], queued := insert x s.queue.queued }) rfl rfl
      (Finset.Subset.refl _) h.wf.dirty hx hfree
    refine ⟨hwf, h.held, h.unique, ?_, hkept ?_ ?_⟩
    · exact (congrArg (· ++ [x]) h.fifo).trans (List.append_assoc _ _ _)
    · exact .inr (.inl (List.mem_append_right _ (List.mem_singleton_self x)))
    · exact fun y hy => hy.imp (List.mem_append_left _) id

theorem Safe.done (h : s.Safe) (w : W) : (s.step (.done w)).Safe := by
  simp only [step]
  split
  · rename_i x hx
    have hproc := h.held hx
    have hqueue : x ∉ s.queue.queue := fun hq => h.wf.apart x ((h.wf.mem_queued x).mpr hq) hproc
    -- those that still hold an item hold another one
    have hheld {v y} (hv : s.setPhase w .ready v = .holding y) :
        y ∈ s.queue.processing.erase x := by
      obtain ⟨hne, hv⟩ := of_setPhase hv nofun
      exact Finset.mem_erase.mpr ⟨fun heq => hne (h.unique hv (heq ▸ hx)), h.held hv⟩
    have hunique {v v' y} (hv : s.setPhase w .ready v = .holding y)
        (hv' : s.setPhase w .ready v' = .holding y) : v = v' :=
      h.unique (of_setPhase hv nofun).2 (of_setPhase hv' nofun).2
    by_cases hdirty : x ∈ s.queue.dirty
    · simp only [WorkQueue.done, hproc, hdirty, not_true_eq_false, ↓reduceIte, enter]
      refine ⟨h.wf.push rfl rfl (Finset.erase_subset _ _) ?_ hqueue (Finset.notMem_erase _ _),
        hheld, hunique, ?_, fun y hy => ?_⟩
      · exact Finset.erase_subset_erase x h.wf.dirty
      · exact (congrArg (· ++ [x]) h.fifo).trans (List.append_assoc _ _ _)
      · by_cases hyx : y = x
        · exact .inl (List.mem_append_right _ (List.mem_singleton.mpr hyx))
        · exact (h.kept y hy).imp (List.mem_append_left _) fun hy =>
            ⟨Finset.mem_erase.mpr ⟨hyx, hy.1⟩, Finset.mem_erase.mpr ⟨hyx, hy.2⟩⟩
    · simp only [WorkQueue.done, hproc, hdirty, not_true_eq_false, ↓reduceIte, enter]
      have hne {y} (hy : y ∈ s.queue.dirty) : y ≠ x := fun heq => hdirty (heq ▸ hy)
      refine ⟨⟨h.wf.nodup, h.wf.mem_queued, ?_, ?_⟩, hheld, hunique, h.fifo, fun y hy => ?_⟩
      · exact fun y hy hp => h.wf.apart y hy (Finset.mem_of_mem_erase hp)
      · exact fun y hy => Finset.mem_erase.mpr ⟨hne hy, h.wf.dirty hy⟩
      · exact (h.kept y hy).imp id fun hy => ⟨hy.1, Finset.mem_erase.mpr ⟨hne hy.1, hy.2⟩⟩
  · exact h

omit [DecidableEq T] [DecidableEq W] in
/-- The queue is as it was, but for the flags, and only workers that hold nothing have moved. -/
theorem Safe.move {s' : Workers W T} (h : s.Safe) {shutdown drain : Bool}
    (hqueue : s'.queue = { s.queue with shutdown, drain })
    (hphase : ∀ v y, s'.phase v = .holding y → s.phase v = .holding y)
    (hlog : (s'.entered, s'.popped, s'.unserved) = (s.entered, s.popped, s.unserved)) :
    s'.Safe := by
  obtain ⟨q, notify, phase, ones, alls, entered, popped, unserved⟩ := s'
  cases hqueue
  cases hlog
  exact ⟨⟨h.wf.nodup, h.wf.mem_queued, h.wf.apart, h.wf.dirty⟩, fun hv => h.held (hphase _ _ hv),
    fun hv hv' => h.unique (hphase _ _ hv) (hphase _ _ hv'), h.fifo, h.kept⟩

theorem Safe.pop (h : s.Safe) (w : W) : (s.step (.pop w)).Safe := by
  simp only [step]
  split
  · cases hqueue : s.queue.queue with
    | cons x queue =>
      simp only [WorkQueue.pop, hqueue]
      have hnodup := h.wf.nodup
      have hmem (y) : y ∈ s.queue.queued ↔ y = x ∨ y ∈ queue := by
        rw [h.wf.mem_queued, hqueue, List.mem_cons]
      rw [hqueue, List.nodup_cons] at hnodup
      have hfree : x ∉ s.queue.processing := h.wf.apart x ((hmem x).mpr (.inl rfl))
      have hheld {v} (hv : s.phase v = .holding x) : False := hfree (h.held hv)
      refine ⟨⟨hnodup.2, fun y => ?_, fun y hy => ?_, ?_⟩, fun {v y} hv => ?_,
        fun {v v' y} hv hv' => ?_, ?_, fun y hy => ?_⟩
      · rw [Finset.mem_erase, hmem]
        exact ⟨fun hy => hy.2.resolve_left hy.1,
          fun hy => ⟨fun heq => hnodup.1 (heq ▸ hy), .inr hy⟩⟩
      · obtain ⟨hne, hy⟩ := Finset.mem_erase.mp hy
        exact fun hp => h.wf.apart y hy (Finset.mem_of_mem_insert_of_ne hp hne)
      · exact h.wf.dirty.trans (Finset.subset_insert _ _)
      · obtain ⟨-, heq⟩ | ⟨-, hv⟩ := setPhase_eq.mp hv
        · cases heq
          exact Finset.mem_insert_self _ _
        · exact Finset.mem_insert_of_mem (h.held hv)
      · obtain ⟨rfl, hy⟩ | ⟨-, hv⟩ := setPhase_eq.mp hv
        · obtain ⟨rfl, -⟩ | ⟨-, hv'⟩ := setPhase_eq.mp hv'
          · rfl
          · cases hy
            exact (hheld hv').elim
        · obtain ⟨-, hy⟩ | ⟨-, hv'⟩ := setPhase_eq.mp hv'
          · cases hy
            exact (hheld hv).elim
          · exact h.unique hv hv'
      · rw [h.fifo, hqueue, List.append_assoc]
        rfl
      · obtain ⟨hne, hy⟩ := Finset.mem_erase.mp hy
        have hpend := h.kept y hy
        rw [Pending, hqueue, List.mem_cons] at hpend
        exact hpend.imp (·.resolve_left hne) fun hy => ⟨hy.1, Finset.mem_insert_of_mem hy.2⟩
    | nil =>
      cases hs : s.queue.shutdown <;>
        simp only [WorkQueue.pop, hqueue, hs, Bool.false_eq_true, ↓reduceIte]
      · exact h.move rfl (fun _ _ hv => (of_setPhase hv nofun).2) rfl
      · exact h.move rfl (fun _ _ hv => (of_setPhase hv nofun).2) rfl
  · exact h

theorem Safe.step (h : s.Safe) (a : WorkerAction W T) : (s.step a).Safe := by
  cases a with
  | add x => exact h.add x
  | pop w => exact h.pop w
  | done w => exact h.done w
  | notified w =>
    simp only [Workers.step]
    split
    · exact h.move rfl (fun _ _ hv => (of_setPhase hv nofun).2) rfl
    · exact h
  | poll w =>
    simp only [Workers.step]
    split
    · refine h.move rfl (fun _ _ hv => (of_setPhase hv ?_).2) rfl
      split <;> nofun
    · exact h
  | notifyOne =>
    simp only [Workers.step]
    split
    · exact h
    · exact h.move rfl (fun _ _ hv => (of_wake hv nofun).2) rfl
  | shutdown => exact h.move rfl (fun _ _ => id) rfl
  | shutdownWithDrain =>
    simp only [Workers.step, beginShutdownWithDrain]
    split
    · exact h.move rfl (fun _ _ => id) rfl
    · exact h.move rfl (fun _ _ => id) rfl
  | notifyWaiters =>
    simp only [Workers.step]
    split
    · exact h
    · exact h.move rfl (fun _ _ hv => (of_wake hv nofun).2) rfl

/-- In every interleaving of producers and workers: the queue holds no item twice, `queued` is what
it holds, `dirty` items are being processed, an item has one worker, items are popped in the order
they were queued, and no update is lost. -/
theorem queue_safe (as : List (WorkerAction W T)) : (as.foldl Workers.step {}).Safe := by
  refine Run.invariant (fun s a h => h.step a) ⟨⟨List.nodup_nil, ?_, ?_, ?_⟩, ?_, ?_, rfl, ?_⟩ as
  · simp
  · simp
  · simp
  · nofun
  · nofun
  · simp

/-! ## Wakeups -/

/-- A worker that goes on by itself, to look into the queue. -/
def Active (s : Workers W T) (w : W) : Prop := s.phase w = .ready ∨ ∃ x, s.phase w = .holding x

/-- No worker and no call on `notify` can take a step. -/
def AtRest (s : Workers W T) : Prop :=
  s.notifyOnes = 0 ∧ s.notifyAlls = 0 ∧ ∀ w, s.phase w = .waiting ∨ s.phase w = .finished

/-- At rest, there is nothing to do, and after `shutdown` every `pop` has returned `None`. -/
def NoLostWakeup (s : Workers W T) : Prop :=
  s.AtRest → s.queue.queue = [] ∧ (s.queue.shutdown = true → ∀ w, s.phase w = .finished)

/-- A worker that the next poll puts to sleep, unless it finds a permit. -/
def Dozing (s : Workers W T) (w : W) : Prop :=
  s.phase w = .checked ∨ s.phase w = .created s.notify.calls

structure Awake (s : Workers W T) : Prop where
  notify : s.notify.Wf
  waiters : ∀ {w}, s.phase w = .waiting → w ∈ s.notify.waiters
  created : ∀ {w c}, s.phase w = .created c → c ≤ s.notify.calls
  busy : s.queue.queue ≠ [] → s.notify.permit = true ∨ 0 < s.notifyOnes ∨ ∃ w, s.Active w
  finished : ∀ {w}, s.phase w = .finished → s.queue.shutdown = true
  staffed : s.queue.queue ≠ [] → ∃ w, s.phase w ≠ .finished
  closed : s.queue.shutdown = true →
    0 < s.notifyAlls ∨ s.notify.waiters = [] ∧ ∀ w, ¬ s.Dozing w

omit [DecidableEq W] in
theorem Awake.noLostWakeup (h : s.Awake) : s.NoLostWakeup := by
  rintro ⟨hones, halls, hrest⟩
  have hasleep (hnone : s.notify.waiters = []) (w : W) : s.phase w = .finished :=
    (hrest w).resolve_left fun hw => List.not_mem_nil (hnone ▸ h.waiters hw)
  refine ⟨?_, fun hshut => ?_⟩
  · by_contra hne
    obtain ⟨w, hw⟩ := h.staffed hne
    rcases h.busy hne with hpermit | hdue | ⟨v, hv | ⟨x, hv⟩⟩
    · exact hw (hasleep (h.notify hpermit) w)
    · omega
    · exact (hrest v).elim (fun h => by rw [hv] at h; cases h) fun h => by rw [hv] at h; cases h
    · exact (hrest v).elim (fun h => by rw [hv] at h; cases h) fun h => by rw [hv] at h; cases h
  · rcases h.closed hshut with hdue | ⟨hnone, -⟩
    · omega
    · exact hasleep hnone

section
variable (h : s.Awake)
include h

omit [DecidableEq T] in
/-- A worker is active now: it got an item, is done with one or was woken. -/
theorem Awake.activate {s' : Workers W T} {p : Phase T} (hp : p = .ready ∨ ∃ x, p = .holding x)
    (hphase : s'.phase = s.setPhase w p) (hshut : s'.queue.shutdown = s.queue.shutdown)
    (halls : s'.notifyAlls = s.notifyAlls) (hnotify : s'.notify.Wf)
    (hcalls : s'.notify.calls = s.notify.calls)
    (hwaiters : s'.notify.waiters = s.notify.waiters ∨ s.notify.waiters = w :: s'.notify.waiters) :
    s'.Awake := by
  have hw : s'.phase w = p := by rw [hphase, setPhase_self]
  have hother {v p'} (hv : s'.phase v = p') (hne : p ≠ p') : v ≠ w ∧ s.phase v = p' :=
    of_setPhase (hphase ▸ hv) hne
  have hidle : p ≠ .waiting ∧ p ≠ .finished ∧ p ≠ .checked ∧ ∀ c, p ≠ .created c := by
    rcases hp with rfl | ⟨x, rfl⟩ <;> simp
  have hnil (hnone : s.notify.waiters = []) : s'.notify.waiters = [] :=
    hwaiters.elim (·.trans hnone) fun heq => by rw [heq] at hnone; cases hnone
  refine ⟨hnotify, fun hv => ?_, fun hv => ?_, fun _ => .inr (.inr ⟨w, ?_⟩), fun hv => ?_,
    fun _ => ⟨w, ?_⟩, fun hs => ?_⟩
  · obtain ⟨hne, hv⟩ := hother hv hidle.1
    rcases hwaiters with heq | heq
    · exact heq ▸ h.waiters hv
    · exact (List.mem_cons.mp (heq ▸ h.waiters hv)).resolve_left hne
  · rw [hcalls]
    exact h.created (hother hv (hidle.2.2.2 _)).2
  · rwa [Active, hw]
  · rw [hshut]
    exact h.finished (hother hv hidle.2.1).2
  · rw [hw]
    exact hidle.2.1
  · rw [halls]
    refine (h.closed (hshut ▸ hs)).imp id fun ⟨hnone, hdozing⟩ => ⟨hnil hnone, fun v hv => ?_⟩
    refine hdozing v (hv.imp (fun hv => (hother hv hidle.2.2.1).2) fun hv => ?_)
    rw [← hcalls]
    exact (hother hv (hidle.2.2.2 _)).2

theorem Awake.add [Nonempty W] (x : T) : (s.step (.add x)).Awake := by
  simp only [step]
  generalize (if s.queue.shutdown then s.unserved else insert x s.unserved) = unserved
  unfold WorkQueue.add
  split
  · exact { h with }
  rename_i hopen
  split
  · exact { h with }
  · refine { h with
      busy := fun _ => .inr (.inl (Nat.succ_pos _))
      staffed := fun _ => ?_ }
    obtain ⟨w⟩ := ‹Nonempty W›
    exact ⟨w, fun hw => hopen (.inl (h.finished hw))⟩

theorem Awake.pop (w : W) : (s.step (.pop w)).Awake := by
  simp only [step]
  split
  · cases hqueue : s.queue.queue with
    | cons x queue =>
      simp only [WorkQueue.pop, hqueue]
      exact h.activate (.inr ⟨x, rfl⟩) rfl rfl rfl h.notify rfl (.inl rfl)
    | nil =>
      cases hs : s.queue.shutdown <;>
        simp only [WorkQueue.pop, hqueue, hs, Bool.false_eq_true, ↓reduceIte]
      · exact ⟨h.notify, fun hv => h.waiters (of_setPhase hv nofun).2,
          fun hv => h.created (of_setPhase hv nofun).2, (absurd hqueue ·),
          fun hv => h.finished (of_setPhase hv nofun).2, (absurd hqueue ·),
          fun hshut => absurd (hs.symm.trans hshut) nofun⟩
      · refine ⟨h.notify, fun hv => h.waiters (of_setPhase hv nofun).2,
          fun hv => h.created (of_setPhase hv nofun).2, (absurd hqueue ·), fun _ => hs,
          (absurd hqueue ·), fun _ => ?_⟩
        refine (h.closed hs).imp id fun ⟨hnone, hdozing⟩ => ⟨hnone, fun v hv => hdozing v ?_⟩
        rcases hv with hv | hv
        · exact .inl (of_setPhase hv nofun).2
        · exact .inr (of_setPhase hv nofun).2
  · exact h

omit [DecidableEq T] in
/-- A worker that was not active goes to sleep, or is about to. -/
theorem Awake.doze {s' : Workers W T} {p : Phase T} (hw : s.Dozing w)
    (hphase : s'.phase = s.setPhase w p) (hp : p = .created s'.notify.calls ∨ p = .waiting)
    (hqueue : s'.queue = s.queue) (hdue : s'.notifyOnes = s.notifyOnes)
    (halls : s'.notifyAlls = s.notifyAlls) (hnotify : s'.notify.Wf)
    (hcalls : s'.notify.calls = s.notify.calls) (hpermit : s'.notify.permit = s.notify.permit)
    (hwaiters : ∀ v, v ∈ s.notify.waiters ∨ v = w ∧ p = .waiting → v ∈ s'.notify.waiters) :
    s'.Awake := by
  have hstill {v} (hv : s.Active v) : v ≠ w := by
    rintro rfl
    rcases hw with hw | hw <;> simp [Active, hw] at hv
  have hidle : p ≠ .finished ∧ p ≠ .checked := by rcases hp with rfl | rfl <;> simp
  have hopen : ¬ (s.notify.waiters = [] ∧ ∀ w, ¬ s.Dozing w) := fun hall => hall.2 w hw
  refine ⟨hnotify, fun {v} hv => ?_, fun {v c} hv => ?_, fun hne => ?_, fun hv => ?_,
    fun _ => ⟨w, ?_⟩, fun hs => ?_⟩
  · rcases setPhase_eq.mp (hphase ▸ hv) with ⟨rfl, hv⟩ | ⟨-, hv⟩
    · exact hwaiters v (.inr ⟨rfl, hv⟩)
    · exact hwaiters v (.inl (h.waiters hv))
  · rcases setPhase_eq.mp (hphase ▸ hv) with ⟨-, rfl⟩ | ⟨-, hv⟩
    · obtain hp | hp := hp <;> cases hp
      exact Nat.le_refl _
    · exact hcalls ▸ h.created hv
  · rw [hpermit, hdue]
    refine (h.busy (hqueue ▸ hne)).imp id fun hbusy => hbusy.imp id fun ⟨v, hv⟩ => ⟨v, ?_⟩
    have hsame : s'.phase v = s.phase v := by
      rw [hphase]
      exact setPhase_eq.mpr (.inr ⟨hstill hv, rfl⟩)
    rwa [Active, hsame]
  · rw [hqueue]
    exact h.finished (of_setPhase (hphase ▸ hv) hidle.1).2
  · rw [hphase, setPhase_self]
    exact hidle.1
  · rw [halls]
    exact .inl ((h.closed (hqueue ▸ hs)).resolve_right hopen)

theorem Awake.notified (w : W) : (s.step (.notified w)).Awake := by
  simp only [step]
  split
  · exact h.doze (.inl ‹_›) rfl (.inl rfl) rfl rfl rfl h.notify rfl rfl
      fun v hv => hv.resolve_right fun hv => by cases hv.2
  · exact h

theorem Awake.poll (w : W) : (s.step (.poll w)).Awake := by
  simp only [step]
  split
  · rename_i c hc
    have hwf := h.notify.poll w c
    rcases s.notify.poll_cases w c with ⟨n, hpoll, hwaiters, hcalls⟩ | ⟨hcalls, hpoll⟩ <;>
      rw [hpoll] at hwf ⊢
    · exact h.activate (.inl rfl) rfl rfl rfl hwf hcalls (.inl hwaiters)
    · refine h.doze (.inr (hc.trans (by rw [hcalls]))) rfl (.inr rfl) rfl rfl rfl hwf rfl rfl
        fun v hv => ?_
      exact hv.elim (List.mem_append_left _) fun hv =>
        List.mem_append_right _ (List.mem_singleton.mpr hv.1)
  · exact h

theorem Awake.done (w : W) : (s.step (.done w)).Awake := by
  simp only [step]
  split
  · simp only [WorkQueue.done]
    split
    · exact h.activate (.inl rfl) rfl rfl rfl h.notify rfl (.inl rfl)
    · split
      · exact h.activate (.inl rfl) rfl rfl rfl h.notify rfl (.inl rfl)
      · exact h.activate (.inl rfl) rfl rfl rfl h.notify rfl (.inl rfl)
  · exact h

omit h [DecidableEq T] in
theorem wake_singleton (s : Workers W T) (w : W) : s.wake [w] = s.setPhase w .ready := by
  funext v
  by_cases hv : v = w <;> simp [wake, setPhase, hv]

theorem Awake.notifyOne : (s.step .notifyOne).Awake := by
  simp only [step]
  split
  · exact h
  · have hwf := h.notify.notifyOne
    unfold Notify.notifyOne at hwf ⊢
    split
    · rename_i w waiters hwaiters
      simp only [hwaiters] at hwf
      exact h.activate (.inl rfl) (wake_singleton s w) rfl rfl hwf rfl (.inr hwaiters)
    · rename_i hnone
      have hsame : s.wake [] = s.phase := by
        funext v
        exact if_neg List.not_mem_nil
      simp only [hsame]
      exact { h with notify := fun _ => hnone, busy := fun _ => .inl rfl }

theorem Awake.notifyWaiters (hc : ∀ w, s.phase w ≠ .checked) : (s.step .notifyWaiters).Awake := by
  simp only [step]
  split
  · exact h
  · refine ⟨Notify.wf_notifyWaiters _, fun hv => ?_, fun hv => ?_, fun hne => ?_,
      fun hv => h.finished (of_wake hv nofun).2, fun hne => ?_, fun _ => .inr ⟨rfl, fun v hv => ?_⟩⟩
    · obtain ⟨hnot, hv⟩ := of_wake hv nofun
      exact absurd (h.waiters hv) hnot
    · exact Nat.le_succ_of_le (h.created (of_wake hv nofun).2)
    · refine (h.busy hne).imp id fun hbusy => hbusy.imp id fun ⟨v, hv⟩ => ⟨v, ?_⟩
      unfold Active wake
      dsimp only
      split
      · exact .inl rfl
      · exact hv
    · obtain ⟨v, hv⟩ := h.staffed hne
      exact ⟨v, fun hf => hv (of_wake hf nofun).2⟩
    · -- a future that exists has counted one call less
      rcases hv with hv | hv
      · exact hc v (of_wake hv nofun).2
      · exact Nat.not_succ_le_self _ (h.created (of_wake hv nofun).2)

end

/-- When `shutdown` wakes the waiters, no worker is about to become one. -/
def Registered (s : Workers W T) : WorkerAction W T → Prop
  | .notifyWaiters => ∀ w, s.phase w ≠ .checked
  | _ => True

instance [Fintype W] (s : Workers W T) : DecidablePred s.Registered
  | .notifyWaiters => inferInstanceAs (Decidable (∀ w, s.phase w ≠ .checked))
  | .add _ | .pop _ | .notified _ | .poll _ | .done _ | .notifyOne | .shutdown
  | .shutdownWithDrain => inferInstanceAs (Decidable True)

theorem Awake.step [Nonempty W] (h : s.Awake) {a : WorkerAction W T} (hc : s.Registered a) :
    (s.step a).Awake := by
  cases a with
  | add x => exact h.add x
  | pop w => exact h.pop w
  | notified w => exact h.notified w
  | poll w => exact h.poll w
  | done w => exact h.done w
  | notifyOne => exact h.notifyOne
  | shutdown => exact { h with finished := fun _ => rfl, closed := fun _ => .inl (Nat.succ_pos _) }
  | shutdownWithDrain =>
    simp only [Workers.step, beginShutdownWithDrain]
    split
    · exact { h with closed := fun _ => .inl (Nat.succ_pos _) }
    · exact { h with finished := fun _ => rfl, closed := fun _ => .inl (Nat.succ_pos _) }
  | notifyWaiters => exact h.notifyWaiters hc

/-- One worker sleeps and one has called `notified()` when `shutdown` wakes the waiters. -/
def shutdownInTime : List (WorkerAction Bool ℕ) :=
  [.pop true, .notified true, .poll true, .add 7, .notifyOne, .pop true, .done true, .pop true,
    .notified true, .poll true, .pop false, .notified false, .shutdown, .notifyWaiters, .poll false,
    .pop true, .pop false]

end Workers

end Slim
