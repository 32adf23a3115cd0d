import Mathlib.Data.List.Nodup
import Mathlib.Data.List.Perm.Basic

/-!
# Tables

A table holds rows whose keys differ (`Table key`, where `key` reads the key of a row). It stands
for a hash map whose values contain their key and for a database table with a primary key. Rows are
kept in the order in which their keys came in.

Membership says everything about a table: `mem_put`, `mem_erase` and `mem_filter` describe the
operations, and `get?_eq_some` reads a lookup as membership.
-/

/-- Rows with pairwise different keys. -/
structure Table {ρ κ : Type*} (key : ρ → κ) where
  rows : List ρ
  nodup : (rows.map key).Nodup

/-- A way to list rows. -/
structure Listing (ρ : Type*) where
  order : List ρ → List ρ := id
  perm : ∀ rows, (order rows).Perm rows := by exact fun rows => .refl rows

namespace Table

variable {ρ κ : Type*} {key : ρ → κ} {t : Table key} {r : ρ} {p : ρ → Bool} {k : κ}

instance : Membership ρ (Table key) := ⟨fun t r => r ∈ t.rows⟩

theorem mem_def : r ∈ t ↔ r ∈ t.rows := Iff.rfl

def empty : Table key := ⟨[], by simp⟩

instance : EmptyCollection (Table key) := ⟨empty⟩

instance {P : ρ → Prop} [DecidablePred P] (t : Table key) : Decidable (∀ r ∈ t, P r) :=
  inferInstanceAs (Decidable (∀ r ∈ t.rows, P r))

instance {P : ρ → Prop} [DecidablePred P] (t : Table key) : Decidable (∃ r ∈ t, P r) :=
  inferInstanceAs (Decidable (∃ r ∈ t.rows, P r))

theorem eq_of_mem {r' : ρ} (h : r ∈ t) (h' : r' ∈ t) (hkey : key r = key r') : r = r' :=
  List.inj_on_of_nodup_map t.nodup h h' hkey

def filter (t : Table key) (p : ρ → Bool) : Table key :=
  ⟨t.rows.filter p, (List.filter_sublist.map key).nodup t.nodup⟩

@[simp] theorem mem_filter : r ∈ t.filter p ↔ r ∈ t ∧ p r = true :=
  List.mem_filter

theorem ext_rows {t' : Table key} (h : t.rows = t'.rows) : t = t' := by
  cases t
  cases t'
  cases h
  rfl

theorem filter_eq_self (h : ∀ r ∈ t, p r = true) : t.filter p = t :=
  ext_rows (List.filter_eq_self.mpr h)

@[simp] theorem not_mem_empty (r : ρ) : r ∉ (∅ : Table key) := List.not_mem_nil

@[simp] theorem rows_empty : (∅ : Table key).rows = [] := rfl

/-- The same rows in another order. -/
def relist (t : Table key) (l : Listing ρ) : Table key :=
  ⟨l.order t.rows, ((l.perm t.rows).map key).nodup_iff.mpr t.nodup⟩

@[simp] theorem mem_relist {l : Listing ρ} : r ∈ t.relist l ↔ r ∈ t := (l.perm t.rows).mem_iff

theorem mem_filter_relist {l : Listing ρ} :
    r ∈ (t.relist l).rows.filter p ↔ r ∈ t ∧ p r = true := by
  rw [List.mem_filter, ← mem_def, mem_relist]

theorem mem_of_find?_relist {l : Listing ρ} (h : (t.relist l).rows.find? p = some r) : r ∈ t :=
  mem_relist.mp (List.mem_of_find?_eq_some h)

variable [DecidableEq κ]

def get? (t : Table key) (k : κ) : Option ρ := t.rows.find? fun r => key r = k

theorem get?_eq_some : t.get? k = some r ↔ r ∈ t ∧ key r = k := by
  constructor
  · intro h
    exact ⟨List.mem_of_find?_eq_some h, by simpa using List.find?_some h⟩
  · rintro ⟨hr, rfl⟩
    have hsome : (t.get? (key r)).isSome := List.find?_isSome.mpr ⟨r, hr, by simp⟩
    obtain ⟨r', hr'⟩ := Option.isSome_iff_exists.mp hsome
    have hkey : key r' = key r := by simpa using List.find?_some hr'
    rw [hr', t.eq_of_mem (List.mem_of_find?_eq_some hr') hr hkey]

theorem get?_of_mem (h : r ∈ t) : t.get? (key r) = some r :=
  get?_eq_some.mpr ⟨h, rfl⟩

theorem get?_eq_none : t.get? k = none ↔ ∀ r ∈ t, key r ≠ k := by
  simp [get?, mem_def]

def erase (t : Table key) (k : κ) : Table key := t.filter fun r => key r ≠ k

@[simp] theorem mem_erase : r ∈ t.erase k ↔ r ∈ t ∧ key r ≠ k := by
  simp [erase]

/-- Put `r` in the place of the row with its key, or after the others. -/
def put (t : Table key) (r : ρ) : Table key :=
  if h : ∃ x ∈ t.rows, key x = key r then
    { rows := t.rows.map fun x => if key x = key r then r else x
      nodup := by
        have hmap : (t.rows.map fun x => if key x = key r then r else x).map key =
            t.rows.map key := by
          rw [List.map_map]
          refine List.map_congr_left fun x _ => ?_
          simp only [Function.comp_apply]
          split
          · next hx => exact hx.symm
          · rfl
        rw [hmap]
        exact t.nodup }
  else
    { rows := t.rows ++ [r]
      nodup := by
        simp only [List.map_append, List.map_cons, List.map_nil]
        refine List.nodup_append.mpr ⟨t.nodup, by simp, ?_⟩
        intro a ha b hb hab
        obtain ⟨x, hx, rfl⟩ := List.mem_map.mp ha
        exact h ⟨x, hx, by rw [hab, List.mem_singleton.mp hb]⟩ }

@[simp] theorem mem_put {x : ρ} : x ∈ t.put r ↔ x = r ∨ x ∈ t ∧ key x ≠ key r := by
  unfold put
  split
  · next h =>
    obtain ⟨y, hy, hkey⟩ := h
    simp only [mem_def, List.mem_map]
    constructor
    · rintro ⟨z, hz, rfl⟩
      split
      · exact .inl rfl
      · next hne => exact .inr ⟨hz, hne⟩
    · rintro (rfl | ⟨hx, hne⟩)
      · exact ⟨y, hy, if_pos hkey⟩
      · exact ⟨x, hx, if_neg hne⟩
  · next h =>
    simp only [mem_def, List.mem_append, List.mem_singleton]
    constructor
    · rintro (hx | rfl)
      · exact .inr ⟨hx, fun hkey => h ⟨x, hx, hkey⟩⟩
      · exact .inl rfl
    · rintro (rfl | ⟨hx, -⟩)
      · exact .inr rfl
      · exact .inl hx

theorem get?_filter_key (t : Table key) (q : κ → Bool) (k : κ) :
    (t.filter fun r => q (key r)).get? k = if q k then t.get? k else none := by
  refine Option.ext fun x => ?_
  rw [get?_eq_some, mem_filter]
  split
  · next hq =>
    rw [get?_eq_some]
    exact ⟨fun h => ⟨h.1.1, h.2⟩, fun h => ⟨⟨h.1, h.2 ▸ hq⟩, h.2⟩⟩
  · next hq => exact ⟨fun h => absurd (h.2 ▸ h.1.2) hq, nofun⟩

theorem get?_erase (t : Table key) (k k' : κ) :
    (t.erase k).get? k' = if k' = k then none else t.get? k' := by
  rw [erase, get?_filter_key t (fun x => decide (x ≠ k))]
  by_cases h : k' = k <;> simp [h]

@[simp] theorem get?_erase_self (t : Table key) (k : κ) : (t.erase k).get? k = none := by
  rw [get?_erase, if_pos rfl]

/-! ## Loops -/

theorem mem_foldl_erase {α : Type*} {f : α → κ} {l : List α} :
    r ∈ l.foldl (fun t a => t.erase (f a)) t ↔ r ∈ t ∧ ∀ a ∈ l, key r ≠ f a := by
  induction l generalizing t with
  | nil => simp
  | cons a l ih =>
    rw [List.foldl_cons, ih, mem_erase, List.forall_mem_cons, and_assoc]

theorem mem_foldl_put {l : List ρ} (h : (l.map key).Nodup) :
    r ∈ l.foldl put t ↔ r ∈ l ∨ r ∈ t ∧ ∀ x ∈ l, key r ≠ key x := by
  induction l generalizing t with
  | nil => simp
  | cons a l ih =>
    rw [List.map_cons, List.nodup_cons] at h
    have hne : ∀ x ∈ l, key a ≠ key x := fun x hx he => h.1 (he ▸ List.mem_map_of_mem hx)
    rw [List.foldl_cons, ih h.2, mem_put, List.mem_cons, List.forall_mem_cons]
    constructor
    · rintro (hr | ⟨rfl | ⟨hr, ha⟩, hl⟩)
      · exact .inl (.inr hr)
      · exact .inl (.inl rfl)
      · exact .inr ⟨hr, ha, hl⟩
    · rintro ((rfl | hr) | ⟨hr, ha, hl⟩)
      · exact .inr ⟨.inl rfl, hne⟩
      · exact .inl hr
      · exact .inr ⟨.inr ⟨hr, ha⟩, hl⟩

end Table
