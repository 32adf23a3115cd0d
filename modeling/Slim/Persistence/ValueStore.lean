import Slim.Lib.Lookup
import Slim.Lib.Run

/-!
# Values at rest

`SlimKvStore` and `SlimGroupStateStorage` keep their values encrypted in plain SQLite tables, under
one cipher and without associated data. The cipher is ideal: a ciphertext opens to what was sealed
in it, and without the key nobody makes one that opens. A row that SQLite prunes is removed as by
anybody else.
-/

namespace Slim

inductive Slot
  | kv (key : String)
  | state (group : List UInt8)
  | epoch (group : List UInt8) (id : UInt64)
  deriving DecidableEq

/-- The value sealed in a ciphertext, with the place it was made for, which is no part of it;
without them it does not open. -/
abbrev Ciphertext := Option (Slot × List UInt8)

def Ciphertext.decrypt : Ciphertext → Except Unit (List UInt8)
  | some e => .ok e.2
  | none => .error ()

structure ValueStore where
  /-- Every value that was encrypted, and the place it was written to. -/
  log : List (Slot × List UInt8) := []
  rows : AList fun _ : Slot => Ciphertext := ∅

namespace ValueStore

/-- `ValueCipher::encrypt`, and the ciphertext is stored. -/
def write (s : ValueStore) (e : Slot × List UInt8) : ValueStore where
  log := e :: s.log
  rows := s.rows.insert e.1 (some e)

inductive Action
  | put (key : String) (value : List UInt8)
  | delete (key : String)
  /-- `GroupStateStorage::write`: a snapshot, and epochs that are new or updated. -/
  | writeGroup (group data : List UInt8) (epochs : List (UInt64 × List UInt8))
  | remove (slot : Slot)
  /-- A row is given another ciphertext, one that exists or one that does not open. -/
  | replace (slot : Slot) (c : Ciphertext)

def step (s : ValueStore) : Action → ValueStore
  | .put key value => s.write (.kv key, value)
  | .delete key => { s with rows := s.rows.erase (.kv key) }
  | .writeGroup group data epochs =>
    ((.state group, data) :: epochs.map fun e => (.epoch group e.1, e.2)).foldl write s
  | .remove slot => { s with rows := s.rows.erase slot }
  | .replace slot c =>
    if ∀ e ∈ c, e ∈ s.log then { s with rows := s.rows.insert slot c } else s

def get (s : ValueStore) (slot : Slot) : Except Unit (Option (List UInt8)) :=
  (s.rows.lookup slot).mapM Ciphertext.decrypt

/-- `get_by_prefix` of the SQLite storage: the rows of the key-value store whose keys start with a
text, in any order. -/
structure PrefixQuery where
  rows : ValueStore → String → List (String × Ciphertext)
  mem_rows : ∀ {s start key c}, (key, c) ∈ rows s start ↔
    start.toList <+: key.toList ∧ s.rows.lookup (.kv key) = some c

def listPrefix (Q : PrefixQuery) (s : ValueStore) (start : String) :
    Except Unit (List (String × List UInt8)) :=
  (Q.rows s start).mapM fun item => return (item.1, ← item.2.decrypt)

/-! ## Values stay where they were written -/

/-- No ciphertext is moved to another place. -/
def InPlace (_ : ValueStore) : Action → Prop
  | .replace slot c => ∀ e ∈ c, e.1 = slot
  | _ => True

/-- A stored ciphertext was made for its place. -/
def Placed (s : ValueStore) : Prop :=
  ∀ slot e, s.rows.lookup slot = some (some e) → e.1 = slot ∧ e ∈ s.log

variable {s : ValueStore}

theorem Placed.insert (h : Placed s) {slot : Slot} {c : Ciphertext}
    (hc : ∀ e ∈ c, e.1 = slot ∧ e ∈ s.log) : Placed { s with rows := s.rows.insert slot c } := by
  intro slot' e he
  by_cases hslot : slot' = slot
  · rw [hslot, AList.lookup_insert, Option.some_inj] at he
    rw [hslot]
    exact hc e he
  · exact h slot' e (by rwa [AList.lookup_insert_ne hslot] at he)

theorem Placed.write (h : Placed s) (e : Slot × List UInt8) : Placed (s.write e) := by
  have hlog : Placed { s with log := e :: s.log } := fun slot e' he =>
    ⟨(h slot e' he).1, List.mem_cons_of_mem _ (h slot e' he).2⟩
  refine hlog.insert fun e' he => ?_
  cases he
  exact ⟨rfl, List.mem_cons_self⟩

theorem Placed.erase (h : Placed s) (slot : Slot) : Placed { s with rows := s.rows.erase slot } :=
  fun slot' e he => h slot' e (AList.lookup_erase_iff.mp he).2

theorem Placed.step (h : Placed s) {a : Action} (ha : s.InPlace a) : Placed (s.step a) := by
  cases a with
  | put key value => exact h.write _
  | delete key => exact h.erase _
  | writeGroup group data epochs => exact Run.invariant (fun _ e hs => hs.write e) h _
  | remove slot => exact h.erase _
  | replace slot c =>
    rw [ValueStore.step]
    split
    · rename_i hc
      exact h.insert fun e he => ⟨ha e he, hc e he⟩
    · exact h

theorem Placed.get (h : Placed s) {slot : Slot} {value : List UInt8}
    (hget : s.get slot = .ok (some value)) : (slot, value) ∈ s.log := by
  unfold ValueStore.get at hget
  match hrow : s.rows.lookup slot with
  | none =>
    rw [hrow] at hget
    cases hget
  | some none =>
    rw [hrow] at hget
    cases hget
  | some (some e) =>
    rw [hrow] at hget
    cases hget
    obtain ⟨rfl, he⟩ := h slot e hrow
    exact he

theorem Placed.listPrefix (h : Placed s) {Q : PrefixQuery} {start : String}
    {l : List (String × List UInt8)} (hl : s.listPrefix Q start = .ok l) :
    ∀ e ∈ l, (.kv e.1, e.2) ∈ s.log := by
  have hitems : ∀ item ∈ Q.rows s start, ∀ e ∈ item.2, (.kv item.1, e.2) ∈ s.log := by
    intro item hitem e he
    obtain ⟨-, hrow⟩ := Q.mem_rows.mp hitem
    obtain ⟨heq, hlog⟩ := h (.kv item.1) e (hrow.trans (congrArg some he))
    rwa [← heq]
  unfold ValueStore.listPrefix at hl
  generalize Q.rows s start = items at hl hitems
  induction items generalizing l with
  | nil =>
    cases hl
    exact fun e he => nomatch he
  | cons item items ih =>
    obtain ⟨key, _ | e⟩ := item
    · cases hl
    · rw [List.mapM_cons] at hl
      cases hrest : items.mapM fun item => return (item.1, ← item.2.decrypt) with
      | error =>
        rw [hrest] at hl
        cases hl
      | ok rest =>
        rw [hrest] at hl
        cases hl
        obtain ⟨hitem, hitems⟩ := List.forall_mem_cons.mp hitems
        exact List.forall_mem_cons.mpr ⟨hitem e rfl, ih hrest hitems⟩

/-- **A value is read where it was written**, if no ciphertext is moved. -/
theorem get_written (Q : PrefixQuery) (as : List Action) (h : Run.Meets step InPlace {} as) :
    let s := as.foldl step {}
    (∀ slot value, s.get slot = .ok (some value) → (slot, value) ∈ s.log) ∧
      ∀ start l, s.listPrefix Q start = .ok l → ∀ e ∈ l, (.kv e.1, e.2) ∈ s.log := by
  have hs := h.invariant (I := Placed) (fun _ _ hs ha => hs.step ha) fun slot e he => (by cases he)
  exact ⟨fun slot value => hs.get, fun start l => hs.listPrefix⟩

/-- The rows in the order of the table. -/
def PrefixQuery.inOrder : PrefixQuery where
  rows s start := s.rows.entries.filterMap fun row => match row.1 with
    | .kv key => if start.toList <+: key.toList then some (key, row.2) else none
    | _ => none
  mem_rows := by
    intro s start key c
    rw [List.mem_filterMap, ← Option.mem_def, AList.mem_lookup_iff]
    constructor
    · rintro ⟨⟨slot, c'⟩, hrow, hitem⟩
      cases slot with
      | kv key' =>
        obtain ⟨hstart, hitem⟩ := Option.ite_none_right_eq_some.mp hitem
        cases hitem
        exact ⟨hstart, hrow⟩
      | state | epoch => cases hitem
    · rintro ⟨hstart, hrow⟩
      exact ⟨⟨.kv key, c⟩, hrow, if_pos hstart⟩

instance decidableInPlace (s : ValueStore) : ∀ a, Decidable (s.InPlace a)
  | .replace slot c => inferInstanceAs (Decidable (∀ e ∈ c, e.1 = slot))
  | .put .. | .delete _ | .writeGroup .. | .remove _ => .isTrue trivial

/-- An older value of a key is put back, that of another one is spoilt, and a group is written. -/
def putBack : List Action :=
  [.put "a1" [1], .put "a1" [2], .replace (.kv "a1") (some (.kv "a1", [1])), .put "b" [3],
    .replace (.kv "b") none, .writeGroup [7] [4] [(1, [5])], .put "a2" [6]]

theorem get_written_putBack :
    let s := putBack.foldl step {}
    (s.get (.kv "a1") = .ok (some [1]) ∧ s.get (.kv "b") = .error () ∧
      s.get (.epoch [7] 1) = .ok (some [5]) ∧
      s.listPrefix .inOrder "a" = .ok [("a2", [6]), ("a1", [1])]) ∧
    (∀ slot value, s.get slot = .ok (some value) → (slot, value) ∈ s.log) ∧
      ∀ start l, s.listPrefix .inOrder start = .ok l → ∀ e ∈ l, (.kv e.1, e.2) ∈ s.log :=
  ⟨by decide +kernel, get_written .inOrder putBack (by decide +kernel)⟩

def moved : List Action := [.put "a" [1], .put "b" [2], .replace (.kv "b") (some (.kv "a", [1]))]

/-- The value of one key, copied to another, is read there. -/
theorem get_moved : (moved.foldl step {}).get (.kv "b") = .ok (some [1]) ∧
    (Slot.kv "b", [1]) ∉ (moved.foldl step {}).log := by
  decide

end ValueStore

end Slim
