import Mathlib.Data.List.Perm.Basic
import Mathlib.Data.List.Nodup
import Mathlib.Data.List.Infix
import Mathlib.Data.List.Forall2

/-!
# Vectors edited in place

Lists under the operations of a growable vector whose element order carries no meaning:
`swapRemove` (the last element takes the place of the removed one), `pushNew` (append unless
present) and `removeFirst`. A vector kept duplicate-free by these operations is a finite set, and
the lemmas here read each operation as the operation on that set. Parallel vectors edited at the
same index stay parallel (`zip_swapRemove`). An element taken out at an index splits the list
around it, and a list related to it likewise (`split_eraseIdx`, `split_forall₂`). `FirstOffer`: the
outcome of asking a list of sources in turn until one has something to offer.
-/

namespace Vec

variable {α β : Type*} {i : Nat} {l : List α} {m : List β} {x : α} {R : α → β → Prop}

/-! ## Removal by swapping with the last element -/

/-- The element at `i` leaves and the last element takes its place. -/
def swapRemove (l : List α) (i : Nat) : List α :=
  match l.getLast? with
  | none => []
  | some x => (l.set i x).dropLast

@[simp] theorem length_swapRemove (l : List α) (i : Nat) :
    (swapRemove l i).length = l.length - 1 := by
  unfold swapRemove
  cases h : l.getLast? with
  | none => rw [List.getLast?_eq_none_iff] at h; simp [h]
  | some x => simp

theorem swapRemove_concat_lt (l : List α) (x : α) (h : i < l.length) :
    swapRemove (l ++ [x]) i = l.set i x := by
  simp [swapRemove, h]

theorem swapRemove_concat_length (l : List α) (x : α) :
    swapRemove (l ++ [x]) l.length = l := by
  simp [swapRemove]

theorem set_perm_cons_eraseIdx (h : i < l.length) (x : α) :
    (l.set i x).Perm (x :: l.eraseIdx i) := by
  induction l generalizing i with
  | nil => simp at h
  | cons y l ih =>
    cases i with
    | zero => simp
    | succ i =>
      exact ((ih (by simpa using h)).cons y).trans (List.Perm.swap _ _ _)

theorem swapRemove_perm (h : i < l.length) : (swapRemove l i).Perm (l.eraseIdx i) := by
  rcases List.eq_nil_or_concat l with rfl | ⟨l, x, rfl⟩
  · simp at h
  · rw [List.concat_eq_append] at h ⊢
    rcases Nat.lt_or_ge i l.length with hi | hi
    · rw [swapRemove_concat_lt _ _ hi, List.eraseIdx_append_of_lt_length hi]
      refine (set_perm_cons_eraseIdx hi x).trans ?_
      exact (List.perm_append_singleton x _).symm
    · obtain rfl : i = l.length := by simp at h; omega
      rw [swapRemove_concat_length, List.eraseIdx_append_of_length_le (Nat.le_refl _)]
      simp

theorem getElem?_swapRemove (h : i < l.length) (j : Nat) :
    (swapRemove l i)[j]? =
      if j < l.length - 1 then if j = i then l[l.length - 1]? else l[j]? else none := by
  have hlast : l.getLast? = some (l[l.length - 1]) := by
    rw [List.getLast?_eq_getElem?, List.getElem?_eq_getElem (by omega)]
  simp only [swapRemove, hlast, List.getElem?_dropLast, List.length_set, List.getElem?_set]
  split
  · split <;> rename_i heq
    · rw [if_pos heq.symm, List.getElem?_eq_getElem (by omega)]
    · rw [if_neg fun hj => heq hj.symm]
  · rfl

theorem getElem?_swapRemove_of_lt {j : Nat} (hj : j < i) (hi : i < l.length) :
    (swapRemove l i)[j]? = l[j]? := by
  rw [getElem?_swapRemove hi, if_pos (by omega), if_neg (by omega)]

theorem map_swapRemove (f : α → β) (l : List α) (i : Nat) :
    (swapRemove l i).map f = swapRemove (l.map f) i := by
  unfold swapRemove
  rw [List.getLast?_map]
  cases l.getLast? <;> simp

/-- Parallel vectors edited at the same index stay parallel. -/
theorem zip_swapRemove (h : l.length = m.length) (i : Nat) :
    (swapRemove l i).zip (swapRemove m i) = swapRemove (l.zip m) i := by
  have hl : (l.zip m).map Prod.fst = l := List.map_fst_zip (by omega)
  have hm : (l.zip m).map Prod.snd = m := List.map_snd_zip (by omega)
  refine (List.zip_of_prod ?_ ?_).symm
  · rw [map_swapRemove, hl]
  · rw [map_swapRemove, hm]

theorem cons_swapRemove_perm (h : i < l.length) : (l[i] :: swapRemove l i).Perm l :=
  ((swapRemove_perm h).cons _).trans (List.getElem_cons_eraseIdx_perm h)

theorem mem_of_mem_swapRemove (hx : x ∈ swapRemove l i) : x ∈ l := by
  unfold swapRemove at hx
  split at hx
  · simp at hx
  · rename_i y hy
    rcases List.mem_or_eq_of_mem_set (List.mem_of_mem_dropLast hx) with h | rfl
    · exact h
    · exact List.mem_of_getLast? hy

theorem nodup_swapRemove (h : i < l.length) (hl : l.Nodup) : (swapRemove l i).Nodup :=
  (List.nodup_cons.mp ((cons_swapRemove_perm h).nodup_iff.mpr hl)).2

theorem mem_swapRemove (h : i < l.length) (hl : l.Nodup) :
    x ∈ swapRemove l i ↔ x ∈ l ∧ x ≠ l[i] := by
  have hp := cons_swapRemove_perm h
  have hn := (List.nodup_cons.mp (hp.nodup_iff.mpr hl)).1
  rw [← hp.mem_iff, List.mem_cons]
  constructor
  · exact fun hx => ⟨.inr hx, fun he => hn (he ▸ hx)⟩
  · rintro ⟨rfl | hx, hne⟩
    · exact absurd rfl hne
    · exact hx

/-! ## Duplicate-free vectors as sets -/

section
variable [DecidableEq α]

def pushNew (l : List α) (a : α) : List α := if a ∈ l then l else l ++ [a]

@[simp] theorem mem_pushNew {a : α} : x ∈ pushNew l a ↔ x ∈ l ∨ x = a := by
  unfold pushNew
  split
  · rename_i h
    exact ⟨.inl, fun hx => hx.elim id fun he => he ▸ h⟩
  · simp

theorem nodup_pushNew (a : α) (hl : l.Nodup) : (pushNew l a).Nodup := by
  unfold pushNew
  split
  · exact hl
  · rename_i h
    exact List.nodup_append.mpr ⟨hl, by simp, fun x hx y hy => by
      rw [List.mem_singleton] at hy; rintro rfl; exact h (hy ▸ hx)⟩

/-- Append every element of the second vector that is not present yet. -/
def pushAllNew (l m : List α) : List α := m.foldl pushNew l

@[simp] theorem mem_pushAllNew {m : List α} : x ∈ pushAllNew l m ↔ x ∈ l ∨ x ∈ m := by
  unfold pushAllNew
  induction m generalizing l with
  | nil => simp
  | cons a m ih => simp [ih, or_assoc]

theorem nodup_pushAllNew (m : List α) (hl : l.Nodup) : (pushAllNew l m).Nodup := by
  induction m generalizing l with
  | nil => exact hl
  | cons a m ih => exact ih (nodup_pushNew a hl)

/-- Remove the first occurrence of `a` by swapping (nothing happens when it is absent). -/
def removeFirst (l : List α) (a : α) : List α :=
  match l.finIdxOf? a with
  | some i => swapRemove l i
  | none => l

theorem nodup_removeFirst (a : α) (hl : l.Nodup) : (removeFirst l a).Nodup := by
  unfold removeFirst
  split
  · exact nodup_swapRemove (Fin.isLt _) hl
  · exact hl

theorem mem_removeFirst {a : α} (hl : l.Nodup) : x ∈ removeFirst l a ↔ x ∈ l ∧ x ≠ a := by
  unfold removeFirst
  split
  · rename_i i hi
    rw [mem_swapRemove i.isLt hl]
    simp only [List.finIdxOf?_eq_some_iff] at hi
    rw [show l[i.val] = a from hi.1]
  · rename_i hi
    rw [List.finIdxOf?_eq_none_iff] at hi
    exact ⟨fun hx => ⟨hx, fun he => hi (he ▸ hx)⟩, fun hx => hx.1⟩

end

/-! ## Taking out -/

theorem split_eraseIdx (h : l[i]? = some x) : ∃ a b, l = a ++ x :: b ∧ l.eraseIdx i = a ++ b := by
  induction l generalizing i with
  | nil => simp at h
  | cons y l ih =>
    cases i with
    | zero =>
      obtain rfl : y = x := by simpa using h
      exact ⟨[], l, rfl, rfl⟩
    | succ i =>
      obtain ⟨a, b, hl, he⟩ := ih (by simpa using h)
      exact ⟨y :: a, b, by simp [← hl], by simp [he]⟩

theorem split_forall₂ (h : List.Forall₂ R l m) (hx : l[i]? = some x) :
    ∃ a y b, m = a ++ y :: b ∧ R x y ∧ List.Forall₂ R (l.eraseIdx i) (a ++ b) := by
  induction h generalizing i with
  | nil => simp at hx
  | @cons z w l m hzw hlm ih =>
    cases i with
    | zero =>
      obtain rfl : z = x := by simpa using hx
      exact ⟨[], w, m, rfl, hzw, hlm⟩
    | succ i =>
      obtain ⟨a, y, b, hm, hxy, hr⟩ := ih (by simpa using hx)
      exact ⟨w :: a, y, b, by simp [hm], hxy, .cons hzw hr⟩

theorem exists_of_mem_forall₂ (h : List.Forall₂ R l m) (hx : x ∈ l) : ∃ y ∈ m, R x y := by
  induction h with
  | nil => cases hx
  | cons hzw _ ih =>
    cases List.mem_cons.mp hx with
    | inl he => exact ⟨_, List.mem_cons_self, he ▸ hzw⟩
    | inr hx =>
      obtain ⟨y, hy, hr⟩ := ih hx
      exact ⟨y, List.mem_cons_of_mem _ hy, hr⟩

/-! ## The first offer -/

/-- An offer of the first source that has one. -/
inductive FirstOffer (offers : α → β → Prop) : List α → Option β → Prop
  | nil : FirstOffer offers [] none
  | here {k ks b} (h : offers k b) : FirstOffer offers (k :: ks) (some b)
  | later {k ks r} (h : ∀ b, ¬ offers k b) (hr : FirstOffer offers ks r) :
    FirstOffer offers (k :: ks) r

namespace FirstOffer

variable {offers offers' : α → β → Prop} {ks : List α} {r : Option β}

theorem of_forall_not (h : ∀ k b, ¬ offers k b) (ks : List α) : FirstOffer offers ks none := by
  induction ks with
  | nil => exact .nil
  | cons k ks ih => exact .later (h k) ih

theorem congr (h : FirstOffer offers ks r) (ho : ∀ k b, offers k b ↔ offers' k b) :
    FirstOffer offers' ks r := by
  induction h with
  | nil => exact .nil
  | here hb => exact .here ((ho _ _).mp hb)
  | later hk _ ih => exact .later (fun b hb => hk b ((ho _ b).mpr hb)) ih

theorem of_map {γ : Type*} {f : γ → α} {ks : List γ} (h : FirstOffer offers (ks.map f) r) :
    FirstOffer (fun k => offers (f k)) ks r := by
  induction ks generalizing r with
  | nil => cases h; exact .nil
  | cons k ks ih =>
    cases h with
    | here hb => exact .here hb
    | later hk hr => exact .later hk (ih hr)

theorem eq_none_iff (h : FirstOffer offers ks r) :
    r = none ↔ ∀ k ∈ ks, ∀ b, ¬ offers k b := by
  induction h with
  | nil => simp
  | here hb => exact ⟨fun h => (by cases h), fun h => absurd hb (h _ List.mem_cons_self _)⟩
  | later hk _ ih =>
    rw [ih, List.forall_mem_cons]
    exact (and_iff_right hk).symm

theorem exists_source {b : β} (h : FirstOffer offers ks (some b)) :
    ∃ before k after, ks = before ++ k :: after ∧ offers k b ∧
      ∀ k' ∈ before, ∀ b', ¬ offers k' b' := by
  generalize hr : some b = r at h
  induction h with
  | nil => cases hr
  | here hb =>
    cases hr
    exact ⟨[], _, _, rfl, hb, fun k' hk' => by cases hk'⟩
  | @later k _ _ hk _ ih =>
    obtain ⟨before, k', after, hks, hb, hbefore⟩ := ih hr
    exact ⟨k :: before, k', after, by rw [hks]; rfl, hb, List.forall_mem_cons.mpr ⟨hk, hbefore⟩⟩

end FirstOffer

end Vec
