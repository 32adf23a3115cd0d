import Mathlib.Data.List.MinMax
import Mathlib.Data.List.Nodup
import Mathlib.Data.Nat.Find

/-!
# Shortest walks

A weighted graph is given by its arcs: `arc u v w` says that an arc of weight `w` leads from `u` to
`v`. `Walk arc root v n` is a walk from `root` to `v` of weight `n`, and `IsDist arc root v d` says
that `d` is the least weight of one.

* `IsDist.pred`: the last arc of a shortest walk continues a shortest walk. This is what rebuilds a
  tree from the distances alone.
* `settle`: Dijkstra's search over arcs that are listed at their source. It finds the distance of
  every vertex that can be reached, and nothing else, once it may settle as many vertices as there
  are (`distances_exact`).
-/

namespace ShortestPath

variable {V : Type*}

inductive Walk (arc : V → V → Nat → Prop) (root : V) : V → Nat → Prop
  | nil : Walk arc root root 0
  | snoc {u v : V} {n w : Nat} : Walk arc root u n → arc u v w → Walk arc root v (n + w)

/-- `d` is the least weight of a walk from `root` to `v`. -/
def IsDist (arc : V → V → Nat → Prop) (root v : V) (d : Nat) : Prop :=
  Walk arc root v d ∧ ∀ n, Walk arc root v n → d ≤ n

def Reachable (arc : V → V → Nat → Prop) (root v : V) : Prop := ∃ n, Walk arc root v n

variable {arc : V → V → Nat → Prop} {root u v : V} {d d' n w : Nat}

/-! ## Distances -/

theorem IsDist.unique (h : IsDist arc root v d) (h' : IsDist arc root v d') : d = d' :=
  le_antisymm (h.2 d' h'.1) (h'.2 d h.1)

theorem isDist_root : IsDist arc root root 0 := ⟨.nil, fun n _ => Nat.zero_le n⟩

theorem IsDist.reachable (h : IsDist arc root v d) : Reachable arc root v := ⟨d, h.1⟩

open Classical in
theorem Reachable.exists_isDist (h : Reachable arc root v) : ∃ d, IsDist arc root v d :=
  ⟨Nat.find h, Nat.find_spec h, fun _ hn => Nat.find_min' h hn⟩

/-- A shortest walk that does not end where it starts continues a shortest walk by an arc. -/
theorem IsDist.pred (h : IsDist arc root v d) (hne : v ≠ root) :
    ∃ u w d', arc u v w ∧ IsDist arc root u d' ∧ d' + w = d := by
  obtain ⟨hwalk, hmin⟩ := h
  cases hwalk with
  | nil => exact absurd rfl hne
  | @snoc u _ n w hu harc =>
    obtain ⟨d', hd'⟩ := Reachable.exists_isDist ⟨n, hu⟩
    refine ⟨u, w, d', harc, hd', ?_⟩
    have hle : d' ≤ n := hd'.2 n hu
    have hge : n + w ≤ d' + w := hmin _ (hd'.1.snoc harc)
    omega

/-- The distances are those of the vertices that can be reached, each once. -/
structure Exact (arc : V → V → Nat → Prop) (root : V) (distances : List (V × Nat)) : Prop where
  nodup : (distances.map Prod.fst).Nodup
  mem_iff : ∀ v d, (v, d) ∈ distances ↔ IsDist arc root v d

/-- The sums of a distance and the weight of one more arc stay below `bound`. -/
def SumsBelow (bound : Nat) (arc : V → V → Nat → Prop) (root : V) : Prop :=
  ∀ u v d w, IsDist arc root u d → arc u v w → d + w < bound

/-! ## Association lists -/

section Assoc

variable {κ β γ : Type*} {k : κ} {b : β} {l : List (κ × β)}

theorem lookup_eq_some_iff_mem [BEq κ] [LawfulBEq κ] (hnodup : (l.map Prod.fst).Nodup) :
    l.lookup k = some b ↔ (k, b) ∈ l := by
  induction l with
  | nil => simp
  | cons x l ih =>
    obtain ⟨a, c⟩ := x
    simp only [List.map_cons, List.nodup_cons] at hnodup
    rw [List.lookup_cons]
    by_cases hka : k = a
    · subst hka
      have hnot : (k, b) ∉ l := fun h => hnodup.1 (List.mem_map.mpr ⟨_, h, rfl⟩)
      simp [hnot, eq_comm]
    · have hbeq : (k == a) = false := by simpa using hka
      rw [hbeq]
      simpa [hka] using ih hnodup.2

theorem filterMap_eq_toList (hnodup : (l.map Prod.fst).Nodup) (hmem : (k, b) ∈ l)
    {f : κ × β → Option γ} (hf : ∀ x ∈ l, x.1 ≠ k → f x = none) :
    l.filterMap f = (f (k, b)).toList := by
  induction l with
  | nil => simp at hmem
  | cons x l ih =>
    simp only [List.map_cons, List.nodup_cons] at hnodup
    have hrest : ∀ y ∈ l, y.1 ≠ k → f y = none := fun y hy => hf y (List.mem_cons_of_mem x hy)
    rcases List.mem_cons.mp hmem with rfl | hmem
    · have hnil : l.filterMap f = [] := by
        refine List.filterMap_eq_nil_iff.mpr fun y hy => hrest y hy ?_
        rintro rfl
        exact hnodup.1 (List.mem_map.mpr ⟨y, hy, rfl⟩)
      rw [List.filterMap_cons, hnil]
      cases f (k, b) <;> rfl
    · have hne : x.1 ≠ k := by
        rintro rfl
        exact hnodup.1 (List.mem_map.mpr ⟨_, hmem, rfl⟩)
      rw [List.filterMap_cons, hf x List.mem_cons_self hne]
      exact ih hnodup.2 hmem hrest

theorem Exact.lookup_eq_some [BEq V] [LawfulBEq V] {distances : List (V × Nat)}
    (h : Exact arc root distances) : distances.lookup v = some d ↔ IsDist arc root v d := by
  rw [lookup_eq_some_iff_mem h.nodup, h.mem_iff]

end Assoc

/-! ## Dijkstra's search -/

section Search

variable [DecidableEq V] (out : V → List (V × Nat))

def Listed (u v : V) (w : Nat) : Prop := (v, w) ∈ out u

/-- The vertices that can be settled next, each with the weight of the walk that leads to it. -/
def frontier (done : List (V × Nat)) : List (V × Nat) :=
  done.flatMap fun u => (out u.1).filterMap fun v =>
    if v.1 ∈ done.map Prod.fst then none else some (v.1, u.2 + v.2)

/-- Settle the nearest vertex of the frontier, at most `fuel` times. -/
def settle : Nat → List (V × Nat) → List (V × Nat)
  | 0, done => done
  | fuel + 1, done =>
    match (frontier out done).argmin Prod.snd with
    | none => done
    | some v => settle fuel (v :: done)

/-- The distances from `root`, with at most `size` vertices besides it. -/
def distances (size : Nat) (root : V) : List (V × Nat) := settle out size [(root, 0)]

variable {out} {done : List (V × Nat)} {size : Nat}

theorem mem_frontier {y : V} {c : Nat} : (y, c) ∈ frontier out done ↔
    y ∉ done.map Prod.fst ∧ ∃ u d w, (u, d) ∈ done ∧ (y, w) ∈ out u ∧ d + w = c := by
  simp only [frontier, List.mem_flatMap, List.mem_filterMap, Prod.exists]
  constructor
  · rintro ⟨u, d, hu, v, w, hv, h⟩
    split at h
    · exact absurd h (by simp)
    · next hnot =>
      obtain ⟨rfl, rfl⟩ := h
      exact ⟨hnot, u, d, w, hu, hv, rfl⟩
  · rintro ⟨hnot, u, d, w, hu, hv, rfl⟩
    exact ⟨u, d, hu, y, w, hv, by rw [if_neg hnot]⟩

/-- What was settled has its distance, each vertex once, the root first. -/
structure Settled (out : V → List (V × Nat)) (root : V) (done : List (V × Nat)) : Prop where
  exact : ∀ v d, (v, d) ∈ done → IsDist (Listed out) root v d
  nodup : (done.map Prod.fst).Nodup
  start : (root, 0) ∈ done

/-- A walk to a vertex that is not settled crosses the frontier. -/
theorem Settled.crosses (h : Settled out root done) (hv : Walk (Listed out) root v n)
    (hnot : v ∉ done.map Prod.fst) : ∃ y c, (y, c) ∈ frontier out done ∧ c ≤ n := by
  induction hv with
  | nil => exact absurd (List.mem_map.mpr ⟨_, h.start, rfl⟩) hnot
  | @snoc u v n w hu harc ih =>
    by_cases hmem : u ∈ done.map Prod.fst
    · obtain ⟨⟨_, d⟩, hd, rfl⟩ := List.mem_map.mp hmem
      have hle : d ≤ n := (h.exact _ _ hd).2 n hu
      exact ⟨v, d + w, mem_frontier.mpr ⟨hnot, _, d, w, hd, harc, rfl⟩, by omega⟩
    · obtain ⟨y, c, hy, hc⟩ := ih hmem
      exact ⟨y, c, hy, by omega⟩

theorem Settled.cons (h : Settled out root done)
    (hmin : (v, d) ∈ (frontier out done).argmin Prod.snd) : Settled out root ((v, d) :: done) := by
  have hmem : (v, d) ∈ frontier out done := List.argmin_mem hmin
  obtain ⟨hnot, u, du, w, hu, harc, rfl⟩ := mem_frontier.mp hmem
  refine ⟨?_, ?_, List.mem_cons_of_mem _ h.start⟩
  · intro x dx hx
    rcases List.mem_cons.mp hx with heq | hx
    · obtain ⟨rfl, rfl⟩ := Prod.mk.inj heq
      refine ⟨(h.exact u du hu).1.snoc harc, fun n hn => ?_⟩
      obtain ⟨y, c, hy, hc⟩ := h.crosses hn hnot
      have hle : du + w ≤ c := List.le_of_mem_argmin hy hmin
      omega
    · exact h.exact x dx hx
  · exact List.nodup_cons.mpr ⟨hnot, h.nodup⟩

theorem settled_settle (fuel : Nat) (h : Settled out root done) :
    Settled out root (settle out fuel done) := by
  induction fuel generalizing done with
  | zero => exact h
  | succ fuel ih =>
    unfold settle
    split
    · exact h
    · next v heq => exact ih (h.cons heq)

/-- The search ends with an empty frontier, or has settled as many vertices as it may. -/
theorem settle_length (fuel : Nat) (done : List (V × Nat)) :
    frontier out (settle out fuel done) = [] ∨
      (settle out fuel done).length = done.length + fuel := by
  induction fuel generalizing done with
  | zero => exact .inr rfl
  | succ fuel ih =>
    unfold settle
    split
    · next heq => exact .inl (List.argmin_eq_none.mp heq)
    · next v heq =>
      rcases ih (v :: done) with h | h
      · exact .inl h
      · exact .inr (by simp only [List.length_cons] at h; omega)

theorem Settled.mem_of_walk (h : Settled out root done) (hempty : frontier out done = [])
    (hv : Walk (Listed out) root v n) : v ∈ done.map Prod.fst := by
  by_contra hnot
  obtain ⟨y, c, hy, -⟩ := h.crosses hv hnot
  simp [hempty] at hy

/-- The search finds the distance of every vertex that can be reached and of no other, if there are
at most `size` vertices besides the root. -/
theorem distances_exact (hsize : ∀ l : List V, l.Nodup →
      (∀ v ∈ l, Reachable (Listed out) root v) → l.length ≤ size + 1) :
    Exact (Listed out) root (distances out size root) := by
  have hinit : Settled out root [(root, 0)] :=
    ⟨by simpa using isDist_root, by simp, by simp⟩
  have hdone := settled_settle size hinit
  have hempty : frontier out (distances out size root) = [] := by
    have hlength : frontier out (settle out size [(root, 0)]) = [] ∨ _ :=
      settle_length size [(root, 0)]
    rcases hlength with h | h
    · exact h
    · -- one more vertex would be one too many
      by_contra hne
      obtain ⟨⟨y, c⟩, hy⟩ := List.exists_mem_of_ne_nil _ hne
      obtain ⟨hnot, u, d, w, hu, harc, -⟩ := mem_frontier.mp hy
      have hle := hsize (y :: (distances out size root).map Prod.fst)
        (List.nodup_cons.mpr ⟨hnot, hdone.nodup⟩) ?_
      · simp only [distances, List.length_cons, List.length_map, h] at hle
        omega
      · intro v hv
        rcases List.mem_cons.mp hv with rfl | hv
        · exact ⟨_, (hdone.exact u d hu).1.snoc harc⟩
        · obtain ⟨⟨v, d⟩, hmem, rfl⟩ := List.mem_map.mp hv
          exact (hdone.exact v d hmem).reachable
  refine ⟨hdone.nodup, fun v d => ⟨fun h => hdone.exact v d h, fun h => ?_⟩⟩
  obtain ⟨⟨_, d'⟩, hmem, rfl⟩ := List.mem_map.mp (hdone.mem_of_walk hempty h.1)
  rwa [h.unique (hdone.exact _ d' hmem)]

end Search

end ShortestPath
