import Mathlib.Data.List.Basic
import Slim.Lib.Run

/-!
# Fibers of atomic steps

A fiber is a task that works on a shared state of type `σ` in atomic steps. Each step reads the
state, changes it and goes on as what it read says; between two steps other fibers may take theirs.
Locks (of type `κ`) are taken and given back by steps of their own.

* `run` is a fiber that runs alone from beginning to end, `run_bind` its rule for sequences.
* `Gives R P`: every step is in the relation `R`, whatever happens in between, and the result is in
  `P`.
-/

inductive Fiber (κ σ α : Type)
  | done (a : α)
  /-- An atomic step: what it makes of the state, and how the fiber goes on. -/
  | step (update : σ → σ) (next : σ → Fiber κ σ α)
  | acquire (lock : κ) (next : Fiber κ σ α)
  | release (lock : κ) (next : Fiber κ σ α)

namespace Fiber

variable {κ σ α β : Type} {l : List β} {s : σ}

def bind : Fiber κ σ α → (α → Fiber κ σ β) → Fiber κ σ β
  | done a, f => f a
  | step update next, f => step update fun s => (next s).bind f
  | acquire lock next, f => acquire lock (next.bind f)
  | release lock next, f => release lock (next.bind f)

instance : Monad (Fiber κ σ) where
  pure := done
  bind := bind

/-- One atomic call: its result and what it makes of the state. -/
def call (f : σ → α × σ) : Fiber κ σ α := step (fun s => (f s).2) fun s => done (f s).1

def read (f : σ → α) : Fiber κ σ α := step id fun s => done (f s)

def modify (f : σ → σ) : Fiber κ σ Unit := step f fun _ => done ()

def lock (k : κ) : Fiber κ σ Unit := acquire k (done ())

def unlock (k : κ) : Fiber κ σ Unit := release k (done ())

def forEach (l : List β) (f : β → Fiber κ σ Unit) : Fiber κ σ Unit :=
  match l with
  | [] => done ()
  | x :: l => (f x).bind fun _ => forEach l f

def foldl (f : α → β → Fiber κ σ α) (a : α) : List β → Fiber κ σ α
  | [] => done a
  | x :: l => (f a x).bind fun a => foldl f a l

/-! ## A fiber that runs alone -/

def run : Fiber κ σ α → σ → α × σ
  | done a, s => (a, s)
  | step update next, s => (next s).run (update s)
  | acquire _ next, s => next.run s
  | release _ next, s => next.run s

@[simp] theorem run_pure (a : α) (s : σ) : (pure a : Fiber κ σ α).run s = (a, s) := rfl

@[simp] theorem run_call (f : σ → α × σ) (s : σ) : (call f : Fiber κ σ α).run s = f s := rfl

@[simp] theorem run_read (f : σ → α) (s : σ) : (read f : Fiber κ σ α).run s = (f s, s) := rfl

@[simp] theorem run_modify (f : σ → σ) (s : σ) :
    (modify f : Fiber κ σ Unit).run s = ((), f s) := rfl

@[simp] theorem run_lock (k : κ) (s : σ) : (lock k : Fiber κ σ Unit).run s = ((), s) := rfl

@[simp] theorem run_bind (t : Fiber κ σ α) (f : α → Fiber κ σ β) (s : σ) :
    (t >>= f).run s = (f (t.run s).1).run (t.run s).2 := by
  induction t generalizing s with
  | done a => rfl
  | step update next ih => exact ih s (update s)
  | acquire lock next ih => exact ih s
  | release lock next ih => exact ih s

theorem run_bind' (t : Fiber κ σ α) (f : α → Fiber κ σ β) (s : σ) :
    (t.bind f).run s = (f (t.run s).1).run (t.run s).2 :=
  run_bind t f s

@[simp] theorem run_forEach_nil (f : β → Fiber κ σ Unit) (s : σ) :
    (forEach [] f : Fiber κ σ Unit).run s = ((), s) := rfl

@[simp] theorem run_forEach_cons (x : β) (l : List β) (f : β → Fiber κ σ Unit) (s : σ) :
    (forEach (x :: l) f).run s = (forEach l f).run ((f x).run s).2 :=
  run_bind' _ _ s

@[simp] theorem run_foldl_nil (f : α → β → Fiber κ σ α) (a : α) (s : σ) :
    (foldl f a []).run s = (a, s) := rfl

@[simp] theorem run_foldl_cons (f : α → β → Fiber κ σ α) (a : α) (x : β) (l : List β) (s : σ) :
    (foldl f a (x :: l)).run s = (foldl f ((f a x).run s).1 l).run ((f a x).run s).2 :=
  run_bind' _ _ s

/-- The rule for loops with an accumulator. -/
theorem run_foldl_induction {P : List β → α → σ → Prop} {f : α → β → Fiber κ σ α} {a : α}
    (h0 : P [] a s)
    (hstep : ∀ pre x post a s, l = pre ++ x :: post → P pre a s →
      P (pre ++ [x]) ((f a x).run s).1 ((f a x).run s).2) :
    P l ((foldl f a l).run s).1 ((foldl f a l).run s).2 := by
  suffices h : ∀ post pre a s, l = pre ++ post → P pre a s →
      P l ((foldl f a post).run s).1 ((foldl f a post).run s).2 from h l [] a s rfl h0
  intro post
  induction post with
  | nil =>
    intro pre a s hl hs
    rw [List.append_nil] at hl
    exact hl ▸ hs
  | cons x post ih =>
    intro pre a s hl hs
    rw [run_foldl_cons]
    exact ih (pre ++ [x]) _ _ (by rw [hl, List.append_assoc]; rfl) (hstep pre x post a s hl hs)

theorem run_forEach_eq (f : β → Fiber κ σ Unit) (l : List β) (s : σ) :
    (forEach l f).run s = (foldl (fun _ x => f x) () l).run s := by
  induction l generalizing s with
  | nil => rfl
  | cons x l ih => rw [run_forEach_cons, run_foldl_cons, ih]

theorem run_forEach_induction {P : List β → σ → Prop} {f : β → Fiber κ σ Unit} (h0 : P [] s)
    (hstep : ∀ pre x post s, l = pre ++ x :: post → P pre s → P (pre ++ [x]) ((f x).run s).2) :
    P l ((forEach l f).run s).2 := by
  rw [run_forEach_eq]
  exact run_foldl_induction (P := fun l _ s => P l s) h0 fun pre x post _ => hstep pre x post

/-! ## What the steps do -/

/-- Every step of the fiber is in `R`, whatever other fibers do in between, and its result is in
`P`. -/
def Gives (R : σ → σ → Prop) (P : α → Prop) : Fiber κ σ α → Prop
  | done a => P a
  | step update next => (∀ s, R s (update s)) ∧ ∀ s, (next s).Gives R P
  | acquire _ next => next.Gives R P
  | release _ next => next.Gives R P

def Within (R : σ → σ → Prop) (t : Fiber κ σ α) : Prop := t.Gives R fun _ => True

section Gives

variable {R : σ → σ → Prop} {P : α → Prop} {Q : β → Prop} {t : Fiber κ σ α} {f : α → Fiber κ σ β}

theorem Gives.bind (h : t.Gives R P) (hf : ∀ a, P a → (f a).Gives R Q) : (t >>= f).Gives R Q := by
  induction t with
  | done a => exact hf a h
  | step update next ih => exact ⟨h.1, fun s => ih s (h.2 s)⟩
  | acquire lock next ih => exact ih h
  | release lock next ih => exact ih h

theorem Within.bind (h : t.Within R) (hf : ∀ a, (f a).Gives R Q) : (t >>= f).Gives R Q :=
  Gives.bind h fun a _ => hf a

theorem within_pure (a : α) : (pure a : Fiber κ σ α).Within R := trivial

theorem gives_forEach {g : β → Fiber κ σ Unit} (h : ∀ x ∈ l, (g x).Within R) :
    (forEach l g).Within R := by
  induction l with
  | nil => trivial
  | cons x l ih =>
    exact (h x List.mem_cons_self).bind fun _ => ih fun y hy => h y (List.mem_cons_of_mem x hy)

theorem gives_foldl {g : α → β → Fiber κ σ α} {a : α} (ha : P a)
    (h : ∀ a, P a → ∀ x ∈ l, (g a x).Gives R P) : (foldl g a l).Gives R P := by
  induction l generalizing a with
  | nil => exact ha
  | cons x l ih =>
    exact (h a ha x List.mem_cons_self).bind fun a ha =>
      ih ha fun a ha y hy => h a ha y (List.mem_cons_of_mem x hy)

theorem Gives.run (h : t.Gives R P) (hrefl : ∀ s, R s s)
    (htrans : ∀ s s' s'', R s s' → R s' s'' → R s s'') (s : σ) :
    R s (t.run s).2 ∧ P (t.run s).1 := by
  induction t generalizing s with
  | done a => exact ⟨hrefl s, h⟩
  | step update next ih =>
    obtain ⟨hR, hP⟩ := ih s (h.2 s) (update s)
    exact ⟨htrans _ _ _ (h.1 s) hR, hP⟩
  | acquire lock next ih => exact ih h s
  | release lock next ih => exact ih h s

end Gives

end Fiber
