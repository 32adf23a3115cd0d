import Mathlib.Algebra.Group.Nat.Defs
import Slim.Lib.Vec
import Slim.Tables.ConnType

/-!
# The connection pool

`Pool`: elements under ids that are slots of a vector. `activeIndexes` lists the slots that are
taken and every element knows its place there; a slot that was freed is handed out again, the last
one first. A vector has at most `2 ^ 64` slots: an insertion into a pool without a free one fails.
-/

namespace Slim

structure PoolEntry (α : Type) where
  value : α
  /-- Index of the slot in `activeIndexes`. -/
  activePos : Nat
  deriving DecidableEq, Repr

structure Pool (α : Type) where
  pool : List (Option (PoolEntry α)) := []
  activeIndexes : List Nat := []
  /-- The slots to hand out again; the next one first. -/
  freeSlots : List Nat := []
  cursor : Nat := 0
  size_le : pool.length ≤ 2 ^ 64 := by exact Nat.le_of_ble_eq_true rfl

namespace Pool

variable {α : Type}

/-- The next free slot. A slot that `insertAt` has taken meanwhile is skipped. -/
def popFree (pool : List (Option (PoolEntry α))) : List Nat → Option Nat × List Nat
  | [] => (none, [])
  | i :: rest =>
    match pool[i]? with
    | some none => (some i, rest)
    | _ => popFree pool rest

variable (p : Pool α)

/-- The freed slot that the next insertion takes. -/
def nextFree : Option ConnId := (popFree p.pool p.freeSlots).1.map UInt64.ofNat

def insert (element : α) : Option (ConnId × Pool α) :=
  let entry := some ⟨element, p.activeIndexes.length⟩
  match popFree p.pool p.freeSlots with
  | (some i, freeSlots) =>
    some (UInt64.ofNat i,
      { p with
        pool := p.pool.set i entry
        activeIndexes := p.activeIndexes ++ [i]
        freeSlots
        size_le := by rw [List.length_set]; exact p.size_le })
  | (none, freeSlots) =>
    if h : p.pool.length < 2 ^ 64 then
      some (UInt64.ofNat p.pool.length,
        { p with
          pool := p.pool ++ [entry]
          activeIndexes := p.activeIndexes ++ [p.pool.length]
          freeSlots
          size_le := by rw [List.length_append]; exact h })
    else none

/-- `Vec::resize_with`. -/
def grow (pool : List (Option (PoolEntry α))) (n : Nat) : List (Option (PoolEntry α)) :=
  pool ++ List.replicate (n - pool.length) none

theorem length_grow_le (id : ConnId) : (grow p.pool (id.toNat + 1)).length ≤ 2 ^ 64 := by
  have := p.size_le
  have := id.toNat_lt
  simp only [grow, List.length_append, List.length_replicate]
  omega

def insertAt (element : α) (id : ConnId) : Pool α :=
  let idx := id.toNat
  let pool := grow p.pool (idx + 1)
  match pool[idx]? with
  | some (some entry) =>
    { p with
      pool := pool.set idx (some { entry with value := element })
      size_le := by rw [List.length_set]; exact p.length_grow_le id }
  | _ =>
    { p with
      pool := pool.set idx (some ⟨element, p.activeIndexes.length⟩)
      activeIndexes := p.activeIndexes ++ [idx]
      size_le := by rw [List.length_set]; exact p.length_grow_le id }

def len : Nat := p.activeIndexes.length

/-- Every live element with its id; `none` where an `expect` fails. -/
def iterWithIds : Option (List (ConnId × α)) :=
  p.activeIndexes.mapM fun i => p.pool[i]?.join.map fun e => (UInt64.ofNat i, e.value)

/-- The next id of the round robin; the counter behind it wraps. -/
def nextId : Option ConnId × Pool α :=
  let n := p.activeIndexes.length
  if n = 0 then (none, p)
  else
    (p.activeIndexes[p.cursor % n]?.map UInt64.ofNat, { p with cursor := (p.cursor + 1) % 2 ^ 64 })

/-- Returns whether there was an element. The slot that moved in `activeIndexes` learns its new
place. -/
def remove (id : ConnId) : Bool × Pool α :=
  let idx := id.toNat
  match p.pool[idx]? with
  | some (some entry) =>
    let pos := entry.activePos
    let active := Vec.swapRemove p.activeIndexes pos
    let pool :=
      match active[pos]? with
      | some moved => p.pool.modify moved (Option.map fun e => { e with activePos := pos })
      | none => p.pool
    (true,
      { p with
        pool := pool.set idx none
        activeIndexes := active
        freeSlots := idx :: p.freeSlots
        size_le := by
          rw [List.length_set]
          dsimp only [pool]
          split
          · rw [List.length_modify]
            exact p.size_le
          · exact p.size_le })
  | _ => (false, p)

def get (id : ConnId) : Option α :=
  p.pool[id.toNat]?.join.map PoolEntry.value

def update (id : ConnId) (f : α → α) : Pool α :=
  { p with
    pool := p.pool.modify id.toNat (Option.map fun e => { e with value := f e.value })
    size_le := by rw [List.length_modify]; exact p.size_le }

end Pool

end Slim
