import Mathlib.Data.List.Perm.Basic

/-!
# Folds over a reordered list

A list is gone through in another order. Where only elements that commute have changed places, a
fold gives the same result (`foldl_reorder`). That two elements have changed places is said with
sublists: `[a, b]` is one of the old list and `[b, a]` one of the new.
-/

namespace List

variable {α β : Type*} {f : β → α → β} {indep : α → α → Prop}

theorem foldl_move (hcomm : ∀ s a b, indep a b → f (f s a) b = f (f s b) a) {a : α}
    {pre : List α} (post : List α) (h : ∀ x ∈ pre, indep x a) (s : β) :
    (pre ++ a :: post).foldl f s = (pre ++ post).foldl f (f s a) := by
  induction pre generalizing s with
  | nil => rfl
  | cons x pre ih =>
    have hx : f (f s x) a = f (f s a) x := hcomm s x a (h x mem_cons_self)
    rw [cons_append, foldl_cons, ih (fun y hy => h y (mem_cons_of_mem x hy)), hx]
    rfl

/-- Only elements that commute have changed places, so the fold is the same. -/
theorem foldl_reorder (hcomm : ∀ s a b, indep a b → f (f s a) b = f (f s b) a) {l l' : List α}
    (hperm : l'.Perm l) (horder : ∀ a b, [a, b].Sublist l → [b, a].Sublist l' → indep a b) (s : β) :
    l'.foldl f s = l.foldl f s := by
  induction l' generalizing l s with
  | nil => rw [hperm.nil_eq]
  | cons a rest ih =>
    obtain ⟨pre, post, rfl⟩ := append_of_mem (hperm.subset mem_cons_self)
    have hrest : rest.Perm (pre ++ post) := (hperm.trans perm_middle).cons_inv
    have hpre : ∀ x ∈ pre, indep x a := by
      intro x hx
      refine horder x a ?_ ((singleton_sublist.mpr ?_).cons_cons a)
      · exact (singleton_sublist.mpr hx).append (singleton_sublist.mpr mem_cons_self)
      · exact hrest.symm.subset (mem_append_left post hx)
    rw [foldl_move hcomm post hpre]
    have hsub : (pre ++ post).Sublist (pre ++ a :: post) :=
      (sublist_cons_self a post).append_left pre
    refine ih hrest (fun x y hxy hyx => ?_) (f s a)
    exact horder x y (hxy.trans hsub) (hyx.cons a)

end List
