import Mathlib.Combinatorics.SimpleGraph.Walk.Operations
import Mathlib.Logic.Relation
import Slim.Lib.Vec

/-!
# Flooding with hop limits

A message spreads from an origin over a graph. A node that gets a copy notes a route to the sender
and, if hops are left, spawns a task that sends copies to its other neighbours; a node that has sent
copies drops the ones that come later. Copies and tasks are taken in any order.

* `Inv.no_cycle`, `Inv.ends_at_origin`: the routes form no cycle and lead to the origin. A node only
  notes a route to a neighbour that has forwarded, and stops once it has forwarded itself, so the
  order of first forwards decreases along routes.
* `Covers.reached`: with nothing left to do, every node within the hop limit has a route, provided a
  node that drops a copy has a task for at least the hops the copy had left.
-/

namespace Flood

open Vec

variable {V : Type*}

/-- A task of a node: where its copy came from, and how many hops the copies it sends may take. -/
structure Task (V : Type*) where
  node : V
  source : Option V
  ttl : Nat

structure State (V : Type*) where
  /-- `(v, u)`: node `v` has a route to its neighbour `u`. -/
  routes : List (V × V)
  /-- Sender, receiver and hops of the copies on their way. -/
  copies : List (V × V × Nat)
  tasks : List (Task V)
  started : List (Task V)
  /-- Nodes that have sent copies, in the order of their first ones. -/
  order : List V

variable {o v : V} {s : State V} {ttl T : Nat} {nbrs : V → List V} [DecidableEq V]

def init (o : V) (ttl : Nat) : State V := ⟨[], [], [⟨o, none, ttl⟩], [], []⟩

/-- `v` gets a copy from `u`; `copies` are the others. -/
def State.receive (s : State V) (copies : List (V × V × Nat)) (u v : V) (ttl : Nat) : State V :=
  if ttl - 1 = 0 ∨ v ∈ s.order then { s with copies }
  else
    { s with
      copies
      routes := (v, u) :: s.routes
      tasks := if 2 ≤ ttl - 1 then s.tasks ++ [⟨v, some u, ttl - 1⟩] else s.tasks }

def Task.targets (k : Task V) (nbrs : V → List V) : List V :=
  (nbrs k.node).filter fun u => some u ≠ k.source

/-- The task `k` runs; `tasks` are the others. -/
def State.start (nbrs : V → List V) (s : State V) (tasks : List (Task V)) (k : Task V) : State V :=
  { s with
    tasks
    started := k :: s.started
    order := if k.targets nbrs = [] then s.order else pushNew s.order k.node
    copies := s.copies ++ (k.targets nbrs).map fun u => (k.node, u, k.ttl) }

/-! ## Routes -/

/-- Who has sent copies is known, and the origin was the first. -/
structure Inv (o : V) (s : State V) : Prop where
  sender : ∀ u v ttl, (u, v, ttl) ∈ s.copies → u ∈ s.order
  route : ∀ v u, (v, u) ∈ s.routes →
    u ∈ s.order ∧ (v ∈ s.order → s.order.idxOf u < s.order.idxOf v)
  first : s.order = [] ∨ s.order.head? = some o
  task : ∀ k ∈ s.tasks, k.node = o ∨ ∃ u, (k.node, u) ∈ s.routes
  sent : ∀ v ∈ s.order, v = o ∨ ∃ u, (v, u) ∈ s.routes

theorem inv_init (o : V) (ttl : Nat) : Inv o (init o ttl) where
  sender := by simp [init]
  route := by simp [init]
  first := .inl rfl
  task := by simp [init]
  sent := by simp [init]

theorem mem_of_mem_rest {α : Type*} {l r : List α} {a x : α} (h : x ∈ l ++ r) :
    x ∈ l ++ a :: r := by
  simp only [List.mem_append, List.mem_cons] at h ⊢
  cases h with
  | inl h => exact .inl h
  | inr h => exact .inr (.inr h)

theorem Inv.receive (h : Inv o s) {l r : List (V × V × Nat)} {u : V}
    (hc : s.copies = l ++ (u, v, ttl) :: r) : Inv o (s.receive (l ++ r) u v ttl) := by
  have hsub : ∀ x ∈ l ++ r, x ∈ s.copies := fun x hx => hc ▸ mem_of_mem_rest hx
  have hu : u ∈ s.order := h.sender u v ttl (by rw [hc]; simp)
  unfold State.receive
  split
  · exact { h with sender := fun u v t hx => h.sender u v t (hsub _ hx) }
  · rename_i hno
    have hv : v ∉ s.order := fun hv => hno (.inr hv)
    refine ⟨fun u v t hx => h.sender u v t (hsub _ hx), ?_, h.first, ?_, ?_⟩
    · intro v' u' hr
      cases List.mem_cons.mp hr with
      | inl he =>
        cases he
        exact ⟨hu, fun hv' => absurd hv' hv⟩
      | inr hr => exact h.route v' u' hr
    · intro k hk
      have hk' : k ∈ s.tasks ∨ k.node = v := by
        split at hk
        · cases List.mem_append.mp hk with
          | inl hk => exact .inl hk
          | inr hk =>
            rw [List.mem_singleton] at hk
            rw [hk]
            exact .inr rfl
        · exact .inl hk
      cases hk' with
      | inl hk =>
        cases h.task k hk with
        | inl ho => exact .inl ho
        | inr hr =>
          obtain ⟨w, hw⟩ := hr
          exact .inr ⟨w, List.mem_cons_of_mem _ hw⟩
      | inr hk => exact .inr ⟨u, by rw [hk]; exact List.mem_cons_self⟩
    · intro w hw
      cases h.sent w hw with
      | inl ho => exact .inl ho
      | inr hr =>
        obtain ⟨x, hx⟩ := hr
        exact .inr ⟨x, List.mem_cons_of_mem _ hx⟩

theorem head?_pushNew {l : List V} {a x : V} (h : l.head? = some x) :
    (pushNew l a).head? = some x := by
  unfold pushNew
  split
  · exact h
  · cases l with
    | nil => cases h
    | cons y l => exact h

theorem idxOf_pushNew_of_mem {l : List V} {a x : V} (h : x ∈ l) :
    (pushNew l a).idxOf x = l.idxOf x := by
  unfold pushNew
  split
  · rfl
  · exact List.idxOf_append_of_mem h

theorem idxOf_lt_pushNew {l : List V} {a x : V} (hx : x ∈ l) (ha : a ∉ l) :
    (pushNew l a).idxOf x < (pushNew l a).idxOf a := by
  rw [idxOf_pushNew_of_mem hx]
  unfold pushNew
  rw [if_neg ha, List.idxOf_append_of_notMem ha]
  have := List.idxOf_lt_length_of_mem hx
  omega

theorem Inv.start (h : Inv o s) (nbrs : V → List V) {l r : List (Task V)} {k : Task V}
    (hk : s.tasks = l ++ k :: r) : Inv o (s.start nbrs (l ++ r) k) := by
  have hmem : k ∈ s.tasks := by rw [hk]; simp
  have hsub : ∀ x ∈ l ++ r, x ∈ s.tasks := fun x hx => hk ▸ mem_of_mem_rest hx
  unfold State.start
  by_cases ht : k.targets nbrs = []
  · simp only [ht, List.map_nil, List.append_nil]
    exact { h with task := fun x hx => h.task x (hsub x hx) }
  · simp only [ht, if_false]
    refine ⟨?_, ?_, ?_, fun x hx => h.task x (hsub x hx), ?_⟩
    · intro u v t hx
      rw [mem_pushNew]
      cases List.mem_append.mp hx with
      | inl hx => exact .inl (h.sender u v t hx)
      | inr hx =>
        obtain ⟨w, -, hw⟩ := List.mem_map.mp hx
        cases hw
        exact .inr rfl
    · intro v u hr
      obtain ⟨hu, hlt⟩ := h.route v u hr
      refine ⟨mem_pushNew.mpr (.inl hu), fun hv => ?_⟩
      by_cases hv' : v ∈ s.order
      · rw [idxOf_pushNew_of_mem hu, idxOf_pushNew_of_mem hv']
        exact hlt hv'
      · obtain rfl : v = k.node := (mem_pushNew.mp hv).resolve_left hv'
        exact idxOf_lt_pushNew hu hv'
    · -- the first to send is the origin: any other node with a task has a route to one that sent
      cases h.first with
      | inr hf => exact .inr (head?_pushNew hf)
      | inl hnil =>
        cases h.task k hmem with
        | inl ho => exact .inr (by simp [hnil, pushNew, ho])
        | inr hr =>
          obtain ⟨u, hu⟩ := hr
          have := (h.route _ u hu).1
          rw [hnil] at this
          cases this
    · intro v hv
      cases mem_pushNew.mp hv with
      | inl hv => exact h.sent v hv
      | inr hv => rw [hv]; exact h.task k hmem

/-- Along routes, the order of first copies goes down. -/
theorem Inv.transGen (h : Inv o s) {w : V}
    (hr : Relation.TransGen (fun v u => (v, u) ∈ s.routes) v w) :
    w ∈ s.order ∧ (v ∈ s.order → s.order.idxOf w < s.order.idxOf v) := by
  induction hr with
  | single hr => exact h.route _ _ hr
  | tail _ hr ih =>
    obtain ⟨hw, hlt⟩ := h.route _ _ hr
    refine ⟨hw, fun hv => ?_⟩
    have h1 := hlt ih.1
    have h2 := ih.2 hv
    omega

theorem Inv.no_cycle (h : Inv o s) (v : V) :
    ¬ Relation.TransGen (fun v u => (v, u) ∈ s.routes) v v := by
  intro hr
  obtain ⟨hv, hlt⟩ := h.transGen hr
  exact lt_irrefl _ (hlt hv)

theorem Inv.ends_at_origin (h : Inv o s) {w : V}
    (hr : Relation.TransGen (fun v u => (v, u) ∈ s.routes) v w) (hend : ∀ u, (w, u) ∉ s.routes) :
    w = o := by
  cases h.sent w (h.transGen hr).1 with
  | inl ho => exact ho
  | inr hu =>
    obtain ⟨u, hu⟩ := hu
    exact absurd hu (hend u)

/-! ## Reach -/

/-- A task of `v`, run or not, for at least `ttl` hops. -/
def State.Tasked (s : State V) (v : V) (ttl : Nat) : Prop :=
  ∃ k, (k ∈ s.tasks ∨ k ∈ s.started) ∧ k.node = v ∧ ttl ≤ k.ttl

/-- What a copy with `left` hops left brings about at `v`. -/
def State.Reached (o : V) (s : State V) (v : V) (left : Nat) : Prop :=
  (1 ≤ left → v = o ∨ ∃ u, (v, u) ∈ s.routes) ∧ (2 ≤ left → s.Tasked v left)

/-- A copy that is dropped because the receiver has sent copies brings no more hops than a task of
the receiver has. -/
def State.DropKeeps (s : State V) (v : V) (ttl : Nat) : Prop :=
  v ∈ s.order → 2 ≤ ttl - 1 → s.Tasked v (ttl - 1)

structure Covers (nbrs : V → List V) (o : V) (ttl : Nat) (s : State V) : Prop where
  inv : Inv o s
  origin : s.Tasked o ttl
  copied : ∀ u v t, (u, v, t) ∈ s.copies → ∃ k ∈ s.started, k.node = u ∧ k.ttl = t
  source : ∀ k, k ∈ s.tasks ∨ k ∈ s.started → ∀ u, k.source = some u →
    ∃ k' ∈ s.started, k'.node = u ∧ k'.ttl = k.ttl + 1
  routed : ∀ k ∈ s.started, k.node = o ∨ ∃ u, (k.node, u) ∈ s.routes
  next : ∀ k ∈ s.started, ∀ u ∈ k.targets nbrs,
    (k.node, u, k.ttl) ∈ s.copies ∨ s.Reached o u (k.ttl - 1)

theorem covers_init (nbrs : V → List V) (o : V) (ttl : Nat) : Covers nbrs o ttl (init o ttl) where
  inv := inv_init o ttl
  origin := ⟨⟨o, none, ttl⟩, .inl (by simp [init]), rfl, le_refl _⟩
  copied := by simp [init]
  source := by simp [init]
  routed := by simp [init]
  next := by simp [init]

/-- Routes and tasks only come. -/
structure Grows (s s' : State V) : Prop where
  routes : ∀ x ∈ s.routes, x ∈ s'.routes
  tasks : ∀ k, k ∈ s.tasks ∨ k ∈ s.started → k ∈ s'.tasks ∨ k ∈ s'.started

omit [DecidableEq V] in
theorem Grows.tasked {s' : State V} (h : Grows s s') (ht : s.Tasked v ttl) : s'.Tasked v ttl := by
  obtain ⟨k, hk, hv, hle⟩ := ht
  exact ⟨k, h.tasks k hk, hv, hle⟩

omit [DecidableEq V] in
theorem Grows.hasRoute {s' : State V} (h : Grows s s') (hr : v = o ∨ ∃ u, (v, u) ∈ s.routes) :
    v = o ∨ ∃ u, (v, u) ∈ s'.routes := by
  cases hr with
  | inl ho => exact .inl ho
  | inr hr =>
    obtain ⟨u, hu⟩ := hr
    exact .inr ⟨u, h.routes _ hu⟩

omit [DecidableEq V] in
theorem Grows.reached {s' : State V} (h : Grows s s') {left : Nat} (hr : s.Reached o v left) :
    s'.Reached o v left :=
  ⟨fun hl => h.hasRoute (hr.1 hl), fun hl => h.tasked (hr.2 hl)⟩

theorem grows_receive (s : State V) (copies : List (V × V × Nat)) (u v : V) (ttl : Nat) :
    Grows s (s.receive copies u v ttl) := by
  unfold State.receive
  split
  · exact ⟨fun _ hx => hx, fun _ hk => hk⟩
  · refine ⟨fun _ hx => List.mem_cons_of_mem _ hx, fun k hk => ?_⟩
    split
    · exact hk.imp (List.mem_append_left _) id
    · exact hk

@[simp] theorem receive_started (s : State V) (copies : List (V × V × Nat)) (u v : V) (ttl : Nat) :
    (s.receive copies u v ttl).started = s.started := by
  unfold State.receive
  split <;> rfl

@[simp] theorem receive_copies (s : State V) (copies : List (V × V × Nat)) (u v : V) (ttl : Nat) :
    (s.receive copies u v ttl).copies = copies := by
  unfold State.receive
  split <;> rfl

theorem reached_receive (h : Inv o s) (copies : List (V × V × Nat)) (u : V)
    (hd : s.DropKeeps v ttl) : (s.receive copies u v ttl).Reached o v (ttl - 1) := by
  have hg := grows_receive s copies u v ttl
  by_cases hv : v ∈ s.order
  · exact ⟨fun _ => hg.hasRoute (h.sent v hv), fun hl => hg.tasked (hd hv hl)⟩
  · unfold State.receive
    by_cases ht : ttl - 1 = 0
    · exact ⟨fun hl => by omega, fun hl => by omega⟩
    · rw [if_neg (by simp [ht, hv])]
      refine ⟨fun _ => .inr ⟨u, List.mem_cons_self⟩,
        fun hl => ⟨⟨v, some u, ttl - 1⟩, ?_, rfl, le_refl _⟩⟩
      simp [hl]

section
variable (h : Covers nbrs o T s)
include h

theorem Covers.receive {l r : List (V × V × Nat)} {u : V}
    (hc : s.copies = l ++ (u, v, ttl) :: r) (hd : s.DropKeeps v ttl) :
    Covers nbrs o T (s.receive (l ++ r) u v ttl) := by
  have hg := grows_receive s (l ++ r) u v ttl
  refine ⟨h.inv.receive hc, hg.tasked h.origin, ?_, ?_, ?_, ?_⟩
  · intro a b t hx
    rw [receive_copies] at hx
    rw [receive_started]
    exact h.copied a b t (hc ▸ mem_of_mem_rest hx)
  · intro k hk w hw
    rw [receive_started] at hk ⊢
    have hk' : (k ∈ s.tasks ∨ k ∈ s.started) ∨ k = ⟨v, some u, ttl - 1⟩ ∧ 2 ≤ ttl - 1 := by
      cases hk with
      | inr hk => exact .inl (.inr hk)
      | inl hk =>
        unfold State.receive at hk
        split at hk
        · exact .inl (.inl hk)
        · split at hk
          · rename_i hl
            cases List.mem_append.mp hk with
            | inl hk => exact .inl (.inl hk)
            | inr hk => exact .inr ⟨List.mem_singleton.mp hk, hl⟩
          · exact .inl (.inl hk)
    cases hk' with
    | inl hk => exact h.source k hk w hw
    | inr hk =>
      obtain ⟨rfl, hl⟩ := hk
      cases hw
      obtain ⟨k', hk', hn, ht⟩ := h.copied u v ttl (by rw [hc]; simp)
      exact ⟨k', hk', hn, by dsimp only; omega⟩
  · intro k hk
    rw [receive_started] at hk
    exact hg.hasRoute (h.routed k hk)
  · intro k hk w hw
    rw [receive_started] at hk
    rw [receive_copies]
    cases h.next k hk w hw with
    | inr hr => exact .inr (hg.reached hr)
    | inl hx =>
      rw [hc, List.mem_append, List.mem_cons] at hx
      rcases hx with hx | hx | hx
      · exact .inl (List.mem_append_left _ hx)
      · cases hx
        exact .inr (reached_receive h.inv (l ++ r) k.node hd)
      · exact .inl (List.mem_append_right _ hx)

theorem Covers.start {l r : List (Task V)} {k : Task V}
    (hk : s.tasks = l ++ k :: r) : Covers nbrs o T (s.start nbrs (l ++ r) k) := by
  have hmem : k ∈ s.tasks := by rw [hk]; simp
  have hg : Grows s (s.start nbrs (l ++ r) k) := by
    refine ⟨fun _ hx => hx, fun x hx => ?_⟩
    cases hx with
    | inr hx => exact .inr (List.mem_cons_of_mem _ hx)
    | inl hx =>
      rw [hk, List.mem_append, List.mem_cons] at hx
      rcases hx with hx | hx | hx
      · exact .inl (List.mem_append_left _ hx)
      · exact .inr (by rw [hx]; exact List.mem_cons_self)
      · exact .inl (List.mem_append_right _ hx)
  refine ⟨h.inv.start nbrs hk, hg.tasked h.origin, ?_, ?_, ?_, ?_⟩
  · intro u v t hx
    cases List.mem_append.mp hx with
    | inl hx =>
      obtain ⟨k', hk', hkt⟩ := h.copied u v t hx
      exact ⟨k', List.mem_cons_of_mem _ hk', hkt⟩
    | inr hx =>
      obtain ⟨w, -, hw⟩ := List.mem_map.mp hx
      cases hw
      exact ⟨k, List.mem_cons_self, rfl, rfl⟩
  · intro x hx u hu
    have hx' : x ∈ s.tasks ∨ x ∈ s.started := by
      cases hx with
      | inl hx => exact .inl (hk ▸ mem_of_mem_rest hx)
      | inr hx =>
        cases List.mem_cons.mp hx with
        | inl he => exact .inl (he ▸ hmem)
        | inr hx => exact .inr hx
    obtain ⟨k', hk', hkt⟩ := h.source x hx' u hu
    exact ⟨k', List.mem_cons_of_mem _ hk', hkt⟩
  · intro x hx
    cases List.mem_cons.mp hx with
    | inl he => rw [he]; exact h.inv.task k hmem
    | inr hx => exact h.routed x hx
  · intro x hx u hu
    cases List.mem_cons.mp hx with
    | inl he =>
      subst he
      exact .inl (List.mem_append_right _ (List.mem_map.mpr ⟨u, hu, rfl⟩))
    | inr hx =>
      cases h.next x hx u hu with
      | inl hx => exact .inl (List.mem_append_left _ hx)
      | inr hr => exact .inr (hg.reached hr)

/-- With nothing left to do, hops carry over to neighbours. -/
theorem Covers.walk (hcopies : s.copies = []) (htasks : s.tasks = [])
    {G : SimpleGraph V} (hG : ∀ u v, G.Adj u v → v ∈ nbrs u) {w : V} (p : G.Walk v w)
    (ht : s.Tasked v ttl) (hlen : p.length < ttl) : w = o ∨ ∃ u, (w, u) ∈ s.routes := by
  have hstarted : ∀ {x t}, s.Tasked x t → ∃ k ∈ s.started, k.node = x ∧ t ≤ k.ttl := by
    intro x t ⟨k, hk, hkx⟩
    rw [htasks] at hk
    exact ⟨k, hk.resolve_left List.not_mem_nil, hkx⟩
  induction p generalizing ttl with
  | nil =>
    obtain ⟨k, hk, rfl, -⟩ := hstarted ht
    exact h.routed k hk
  | @cons v x w hadj p ih =>
    rw [SimpleGraph.Walk.length_cons] at hlen
    obtain ⟨k, hk, rfl, hle⟩ := hstarted ht
    by_cases hsrc : k.source = some x
    · -- the neighbour is where the copy came from: it had one more hop
      obtain ⟨k', hk', rfl, htt⟩ := h.source k (.inr hk) x hsrc
      exact ih ⟨k', .inr hk', rfl, le_refl _⟩ (by omega)
    · have hx : x ∈ k.targets nbrs := by
        simp only [Task.targets, List.mem_filter, decide_eq_true_eq]
        exact ⟨hG _ _ hadj, fun he => hsrc he.symm⟩
      have hr : s.Reached o x (k.ttl - 1) := by
        have hr := h.next k hk x hx
        rw [hcopies] at hr
        exact hr.resolve_left List.not_mem_nil
      by_cases h2 : 2 ≤ k.ttl - 1
      · exact ih (hr.2 h2) (by omega)
      · cases p with
        | nil => exact hr.1 (by omega)
        | cons _ _ => simp only [SimpleGraph.Walk.length_cons] at hlen; omega

/-- **Reach**: with nothing left to do, every node within the hop limit has a route. -/
theorem Covers.reached (hcopies : s.copies = []) (htasks : s.tasks = [])
    {G : SimpleGraph V} (hG : ∀ u v, G.Adj u v → v ∈ nbrs u) (p : G.Walk o v) (hlen : p.length < T)
    (hv : v ≠ o) : ∃ u, (v, u) ∈ s.routes :=
  (h.walk hcopies htasks hG p h.origin hlen).resolve_left hv

end

/-! ## Range -/

/-- Nothing gets further than the hops of the origin's task: those taken and those left are no
more. -/
structure Ranged (G : SimpleGraph V) (o : V) (T : Nat) (s : State V) : Prop where
  task : ∀ k ∈ s.tasks, ∃ p : G.Walk o k.node, p.length + k.ttl ≤ T
  copy : ∀ u v t, (u, v, t) ∈ s.copies → ∃ p : G.Walk o v, p.length + t ≤ T + 1
  route : ∀ v u, (v, u) ∈ s.routes → ∃ p : G.Walk o v, p.length ≤ T - 1

section
variable {G : SimpleGraph V}

omit [DecidableEq V] in
theorem ranged_init (o : V) (T : Nat) : Ranged G o T (init o T) where
  task := fun k hk => by
    obtain rfl := List.mem_singleton.mp hk
    exact ⟨.nil, by simp⟩
  copy := by simp [init]
  route := by simp [init]

variable (h : Ranged G o T s)
include h

theorem Ranged.receive {l r : List (V × V × Nat)} {u : V} (hc : s.copies = l ++ (u, v, ttl) :: r) :
    Ranged G o T (s.receive (l ++ r) u v ttl) := by
  have hcopy : ∀ u v t, (u, v, t) ∈ l ++ r → ∃ p : G.Walk o v, p.length + t ≤ T + 1 :=
    fun u v t hx => h.copy u v t (hc ▸ mem_of_mem_rest hx)
  obtain ⟨p, hp⟩ := h.copy u v ttl (by rw [hc]; simp)
  unfold State.receive
  split
  · exact { h with copy := hcopy }
  · refine ⟨fun k hk => ?_, hcopy, fun v' u' hr => ?_⟩
    · split at hk
      · obtain hk | hk := List.mem_append.mp hk
        · exact h.task k hk
        · obtain rfl := List.mem_singleton.mp hk
          exact ⟨p, by dsimp only; omega⟩
      · exact h.task k hk
    · obtain he | hr := List.mem_cons.mp hr
      · cases he
        exact ⟨p, by omega⟩
      · exact h.route v' u' hr

theorem Ranged.start (hG : ∀ u v, v ∈ nbrs u → G.Adj u v) {l r : List (Task V)} {k : Task V}
    (hk : s.tasks = l ++ k :: r) : Ranged G o T (s.start nbrs (l ++ r) k) := by
  refine ⟨fun x hx => h.task x (hk ▸ mem_of_mem_rest hx), fun u v t hx => ?_, h.route⟩
  obtain hx | hx := List.mem_append.mp hx
  · exact h.copy u v t hx
  · obtain ⟨w, hw, he⟩ := List.mem_map.mp hx
    cases he
    obtain ⟨p, hp⟩ := h.task k (by rw [hk]; simp)
    refine ⟨p.concat (hG _ _ (List.mem_filter.mp hw).1), ?_⟩
    rw [SimpleGraph.Walk.length_concat]
    omega

end
end Flood
