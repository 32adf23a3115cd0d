import Mathlib.Logic.Basic

/-!
# Runs of a deterministic system

A system is a function `step` from a state and an action to the next state; a run is a list of
actions. `Meets step cond s as` says that each action of the run from `s` meets `cond` in the state
it is taken in, and `Meets.invariant` is the induction every safety result uses.
-/

namespace Run

variable {σ α : Type*} {step : σ → α → σ} {cond : σ → α → Prop} {I : σ → Prop} {s : σ}

/-- Every action of the run from `s` meets `cond` in the state it is taken in. -/
def Meets (step : σ → α → σ) (cond : σ → α → Prop) : σ → List α → Prop
  | _, [] => True
  | s, a :: as => cond s a ∧ Meets step cond (step s a) as

instance decidableMeets [∀ s a, Decidable (cond s a)] :
    ∀ (s : σ) (as : List α), Decidable (Meets step cond s as)
  | _, [] => .isTrue trivial
  | s, a :: as => @instDecidableAnd _ _ _ (decidableMeets (step s a) as)

/-- What holds at the start and is kept by every step that meets `cond` holds after the run. -/
theorem Meets.invariant (hstep : ∀ s a, I s → cond s a → I (step s a)) {as : List α} (hs : I s)
    (h : Meets step cond s as) : I (as.foldl step s) := by
  induction as generalizing s with
  | nil => exact hs
  | cons a as ih => exact ih (hstep s a hs h.1) h.2

theorem meets_append {as bs : List α} : Meets step cond s (as ++ bs) ↔
    Meets step cond s as ∧ Meets step cond (as.foldl step s) bs := by
  induction as generalizing s with
  | nil => exact ⟨fun h => ⟨trivial, h⟩, And.right⟩
  | cons a as ih =>
    rw [List.cons_append, Meets, Meets, ih, and_assoc]
    rfl

theorem meets_true : ∀ (s : σ) (as : List α), Meets step (fun _ _ => True) s as
  | _, [] => trivial
  | s, a :: as => ⟨trivial, meets_true (step s a) as⟩

/-- The form without a condition. -/
theorem invariant (hstep : ∀ s a, I s → I (step s a)) (hs : I s) (as : List α) :
    I (as.foldl step s) :=
  Meets.invariant (fun s a hi _ => hstep s a hi) hs (meets_true s as)

end Run
