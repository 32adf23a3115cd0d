import Mathlib.Data.List.Basic

/-!
# Caches that forget the least recently used entry

`Lru κ ν` is what a program knows of such a cache: its operations, and what a lookup finds after
each of them while there is room. `Lru.list` keeps the entries in a list, the most recent one first.
-/

structure Lru (κ ν : Type) where
  Cache : Type
  new : Nat → Cache
  cap : Cache → Nat
  len : Cache → Nat
  peek : Cache → κ → Option ν
  pop : Cache → κ → Cache
  put : Cache → κ → ν → Cache
  peek_pop_ne : ∀ {c k k'}, k' ≠ k → peek (pop c k) k' = peek c k'
  peek_put_self : ∀ {c k v}, len c < cap c → peek (put c k v) k = some v
  peek_put_ne : ∀ {c k k' v}, len c < cap c → k' ≠ k → peek (put c k v) k' = peek c k'

namespace Lru

variable {κ ν : Type} [DecidableEq κ] {k k' : κ}

theorem lookup_filter_ne (h : k' ≠ k) : ∀ es : List (κ × ν),
    (es.filter fun e => e.1 ≠ k).lookup k' = es.lookup k'
  | [] => rfl
  | (a, b) :: es => by
    have ih := lookup_filter_ne h es
    by_cases ha : a = k
    · subst ha
      have hne : (k' == a) = false := by simpa using h
      simpa [List.lookup_cons, hne] using ih
    · by_cases hk : k' = a
      · simp [ha, hk]
      · have hne : (k' == a) = false := by simpa using hk
        simpa [List.lookup_cons, ha, hne] using ih

theorem take_put {n : Nat} {es : List (κ × ν)} (h : es.length < n) (k : κ) (v : ν) :
    ((k, v) :: es.filter fun e => e.1 ≠ k).take n = (k, v) :: es.filter fun e => e.1 ≠ k := by
  have hle : (es.filter fun e => e.1 ≠ k).length ≤ es.length := List.length_filter_le ..
  exact List.take_of_length_le (by simp only [List.length_cons]; omega)

/-- The capacity and the entries. -/
def list : Lru κ ν where
  Cache := Nat × List (κ × ν)
  new n := (n, [])
  cap c := c.1
  len c := c.2.length
  peek c k := c.2.lookup k
  pop c k := (c.1, c.2.filter fun e => e.1 ≠ k)
  put c k v := (c.1, ((k, v) :: c.2.filter fun e => e.1 ≠ k).take c.1)
  peek_pop_ne h := lookup_filter_ne h _
  peek_put_self h := by
    rw [take_put h]
    simp
  peek_put_ne {c k k' v} hroom h := by
    have hne : (k' == k) = false := by simpa using h
    rw [take_put hroom, List.lookup_cons, hne]
    exact lookup_filter_ne h _

end Lru
