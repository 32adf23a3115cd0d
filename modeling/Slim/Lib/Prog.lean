import Mathlib.Logic.Basic

/-!
# Programs over a state

`Prog σ ε α` is a program that runs on a state `σ`. It returns a value, fails with an error, or
panics; the state it leaves is part of the result in all three cases, since a call that fails does
not undo what it did.

Two kinds of facts about a program are stated here, each with one rule for every way to build a
program. `Keeps I x`: `x` takes states with `I` to states with `I`, however it ends; with `I` an
equation of a part of the state this is a frame (`Frame`). `Returns Q x`: what `x` returns satisfies
`Q`.
-/

/-- How a program ends. -/
inductive Outcome (ε α : Type)
  | ok (a : α)
  | err (e : ε)
  | panic (msg : String)
  deriving DecidableEq, Repr

def Prog (σ ε α : Type) : Type := σ → Outcome ε α × σ

namespace Prog

variable {σ τ ε α β γ : Type} {f : σ → β} {x : Prog σ ε α}

instance : Monad (Prog σ ε) where
  pure a := fun s => (.ok a, s)
  bind x f := fun s =>
    match x s with
    | (.ok a, s') => f a s'
    | (.err e, s') => (.err e, s')
    | (.panic msg, s') => (.panic msg, s')

def throw (e : ε) : Prog σ ε α := fun s => (.err e, s)

/-- An `unwrap` or `expect` that found nothing. -/
def panic (msg : String) : Prog σ ε α := fun s => (.panic msg, s)

def read (f : σ → α) : Prog σ ε α := fun s => (.ok (f s), s)

def modify (f : σ → σ) : Prog σ ε Unit := fun s => (.ok (), f s)

/-- A computation that needs no state. -/
def ofExcept : Except ε α → Prog σ ε α
  | .ok a => pure a
  | .error e => throw e

/-- The value of an option, which is expected to be there. -/
def expect (msg : String) : Option α → Prog σ ε α
  | some a => pure a
  | none => panic msg

def okOr (e : ε) : Option α → Prog σ ε α
  | some a => pure a
  | none => throw e

/-- Run `h` on the error of `x` and fail with what it returns; panics are not errors. -/
def mapErr (x : Prog σ ε α) (h : ε → Prog σ ε ε) : Prog σ ε α := fun s =>
  match x s with
  | (.ok a, s') => (.ok a, s')
  | (.err e, s') => (h e >>= throw) s'
  | (.panic msg, s') => (.panic msg, s')

/-- Run `x` on a part of the state. -/
def zoom (get : σ → τ) (set : τ → σ → σ) (x : Prog τ ε α) : Prog σ ε α := fun s =>
  ((x (get s)).1, set (x (get s)).2 s)

def each (f : α → Prog σ ε Unit) : List α → Prog σ ε Unit
  | [] => pure ()
  | a :: as => f a >>= fun _ => each f as

/-- `x`, with an error turned into nothing. -/
def ignoreErr (x : Prog σ ε Unit) : Prog σ ε Unit := fun s =>
  match x s with
  | (.err _, s') => (.ok (), s')
  | r => r

/-! ## What the constructions do -/

section eval
variable (s : σ) (msg : String) (e : ε) (a : α) (f : α → Prog σ ε β) {x : Prog σ ε α} {b : β}
  {c : Prop} {s' : σ} {o : Option α}

@[simp] theorem pure_run : (pure a : Prog σ ε α) s = (.ok a, s) := rfl

@[simp] theorem throw_run : (throw e : Prog σ ε α) s = (.err e, s) := rfl

@[simp] theorem panic_run : (panic msg : Prog σ ε α) s = (.panic msg, s) := rfl

@[simp] theorem read_run (f : σ → α) : (read f : Prog σ ε α) s = (.ok (f s), s) := rfl

@[simp] theorem modify_run (f : σ → σ) : (modify f : Prog σ ε Unit) s = (.ok (), f s) := rfl

theorem bind_run (x : Prog σ ε α) (f : α → Prog σ ε β) :
    (x >>= f) s = match x s with
      | (.ok a, s') => f a s'
      | (.err e, s') => (.err e, s')
      | (.panic msg, s') => (.panic msg, s') := rfl

@[simp] theorem pure_bind_run : ((pure a : Prog σ ε α) >>= f) s = f a s := rfl

@[simp] theorem throw_bind_run : ((throw e : Prog σ ε α) >>= f) s = (.err e, s) := rfl

@[simp] theorem panic_bind_run : ((panic msg : Prog σ ε α) >>= f) s = (.panic msg, s) := rfl

@[simp] theorem read_bind_run (g : σ → α) (f : α → Prog σ ε β) :
    ((read g : Prog σ ε α) >>= f) s = f (g s) s := rfl

@[simp] theorem modify_bind_run (g : σ → σ) (f : Unit → Prog σ ε β) :
    ((modify g : Prog σ ε Unit) >>= f) s = f () (g s) := rfl

@[simp] theorem ite_run [Decidable c] (x y : Prog σ ε α) :
    (if c then x else y) s = if c then x s else y s := by
  split <;> rfl

@[simp] theorem expect_some_bind_run :
    ((expect msg (some a) : Prog σ ε α) >>= f) s = f a s := rfl

@[simp] theorem okOr_some_bind_run : ((okOr e (some a) : Prog σ ε α) >>= f) s = f a s := rfl

@[simp] theorem ofExcept_ok_bind_run :
    ((ofExcept (.ok a) : Prog σ ε α) >>= f) s = f a s := rfl

variable {s msg e a f}

theorem bind_ok (h : x s = (.ok a, s')) (f : α → Prog σ ε β) : (x >>= f) s = f a s' := by
  rw [bind_run, h]

theorem bind_err (h : x s = (.err e, s')) (f : α → Prog σ ε β) :
    (x >>= f) s = (.err e, s') := by
  rw [bind_run, h]

theorem bind_panic (h : x s = (.panic msg, s')) (f : α → Prog σ ε β) :
    (x >>= f) s = (.panic msg, s') := by
  rw [bind_run, h]

theorem bind_eq_ok {s'' : σ} :
    (x >>= f) s = (.ok b, s'') ↔ ∃ a s', x s = (.ok a, s') ∧ f a s' = (.ok b, s'') := by
  constructor
  · intro h
    rw [bind_run] at h
    rcases hx : x s with ⟨a | _ | _, s'⟩ <;> rw [hx] at h
    · exact ⟨a, s', rfl, h⟩
    · cases h
    · cases h
  · rintro ⟨a, s', hx, hf⟩
    rw [bind_ok hx, hf]

theorem expect_bind_eq_ok :
    (expect msg o >>= f) s = (.ok b, s') ↔ ∃ a, o = some a ∧ f a s = (.ok b, s') := by
  cases o <;> simp [expect]

theorem okOr_bind_eq_ok :
    (okOr e o >>= f) s = (.ok b, s') ↔ ∃ a, o = some a ∧ f a s = (.ok b, s') := by
  cases o <;> simp [okOr]

theorem ofExcept_bind_eq_ok {r : Except ε α} :
    (ofExcept r >>= f) s = (.ok b, s') ↔ ∃ a, r = .ok a ∧ f a s = (.ok b, s') := by
  cases r <;> simp [ofExcept]

theorem mapErr_eq_ok {h : ε → Prog σ ε ε} : x.mapErr h s = (.ok a, s') ↔ x s = (.ok a, s') := by
  rw [mapErr]
  rcases x s with ⟨_ | e | _, s₁⟩
  · rfl
  · simp [bind_eq_ok]
  · rfl

theorem ok_of_ite_throw [Decidable c] (h : (if c then throw e else x) s = (.ok a, s')) :
    x s = (.ok a, s') := by
  split at h
  · cases h
  · exact h

theorem mapErr_of_ne_err (hx : ∀ e, (x s).1 ≠ .err e) (h : ε → Prog σ ε ε) :
    x.mapErr h s = x s := by
  rw [mapErr]
  rcases hr : x s with ⟨_ | e | _, s'⟩
  · rfl
  · exact absurd (congrArg Prod.fst hr) (hx e)
  · rfl

end eval

/-! ## Invariants and frames -/

/-- `x` takes states with `I` to states with `I`, however it ends. -/
def Keeps (I : σ → Prop) (x : Prog σ ε α) : Prop := ∀ s, I s → I (x s).2

/-- `x` leaves `f` of the state as it is. -/
def Frame (f : σ → β) (x : Prog σ ε α) : Prop := ∀ s, f (x s).2 = f s

namespace Keeps

variable {I : σ → Prop} {f : α → Prog σ ε β} {x : Prog σ ε α}

theorem pure (a : α) : Keeps I (Pure.pure a : Prog σ ε α) := fun _ h => h

theorem throw (e : ε) : Keeps I (Prog.throw e : Prog σ ε α) := fun _ h => h

theorem panic (msg : String) : Keeps I (Prog.panic msg : Prog σ ε α) := fun _ h => h

theorem read (f : σ → α) : Keeps I (Prog.read f : Prog σ ε α) := fun _ h => h

theorem modify {f : σ → σ} (h : ∀ s, I s → I (f s)) : Keeps I (Prog.modify f : Prog σ ε Unit) := h

theorem ofExcept (r : Except ε α) : Keeps I (Prog.ofExcept r : Prog σ ε α) := by
  cases r with
  | ok a => exact pure a
  | error e => exact throw e

theorem expect (msg : String) (o : Option α) : Keeps I (Prog.expect msg o : Prog σ ε α) := by
  cases o with
  | some a => exact pure a
  | none => exact panic msg

theorem okOr (e : ε) (o : Option α) : Keeps I (Prog.okOr e o : Prog σ ε α) := by
  cases o with
  | some a => exact pure a
  | none => exact throw e

/-- What holds before `x`, what holds of its result, and what holds at the end. -/
theorem bind_returns {Q : σ → Prop} {R : α → Prop} (hx : Keeps I x)
    (hret : ∀ s a s', x s = (.ok a, s') → R a) (hQ : ∀ s, I s → Q s)
    (hf : ∀ a s, R a → I s → Q (f a s).2) {s : σ} (hs : I s) : Q ((x >>= f) s).2 := by
  have h := hx s hs
  rw [bind_run]
  rcases hr : x s with ⟨_ | _ | _, s'⟩ <;> rw [hr] at h
  · exact hf _ s' (hret s _ s' hr) h
  · exact hQ s' h
  · exact hQ s' h

theorem bind_to {Q : σ → Prop} (hx : Keeps I x) (hQ : ∀ s, I s → Q s)
    (hf : ∀ a s, I s → Q (f a s).2) {s : σ} (hs : I s) : Q ((x >>= f) s).2 :=
  bind_returns (R := fun _ => True) hx (fun _ _ _ _ => trivial) hQ (fun a s _ => hf a s) hs

theorem after {s : σ} (hx : I (x s).2) (hf : ∀ a, Keeps I (f a)) : I ((x >>= f) s).2 := by
  rw [bind_run]
  rcases hr : x s with ⟨_ | _ | _, s'⟩ <;> rw [hr] at hx
  · exact hf _ s' hx
  · exact hx
  · exact hx

theorem bind (hx : Keeps I x) (hf : ∀ a, Keeps I (f a)) :
    Keeps I (x >>= f) := fun s hs => after (hx s hs) hf

theorem mapErr {h : ε → Prog σ ε ε} (hx : Keeps I x) (hh : ∀ e, Keeps I (h e)) :
    Keeps I (x.mapErr h) := by
  intro s hs
  have hk := hx s hs
  rw [Prog.mapErr]
  rcases hr : x s with ⟨_ | e | _, s'⟩ <;> rw [hr] at hk
  · exact hk
  · exact bind (hh e) (fun e' => throw e') s' hk
  · exact hk

theorem ite {c : Prop} [Decidable c] {y : Prog σ ε α} (hx : Keeps I x) (hy : Keeps I y) :
    Keeps I (if c then x else y) := by
  split
  · exact hx
  · exact hy

theorem each {f : α → Prog σ ε Unit} (hf : ∀ a, Keeps I (f a)) (as : List α) :
    Keeps I (Prog.each f as) := by
  induction as with
  | nil => exact pure ()
  | cons a as ih => exact bind (hf a) fun _ => ih

theorem ignoreErr {x : Prog σ ε Unit} (hx : Keeps I x) : Keeps I x.ignoreErr := by
  intro s hs
  have h := hx s hs
  rw [Prog.ignoreErr]
  rcases hr : x s with ⟨_ | _ | _, s'⟩ <;> rw [hr] at h <;> exact h

end Keeps

theorem Frame.keeps (h : Frame f x) (P : β → Prop) :
    Keeps (fun s => P (f s)) x := fun s hs => (congrArg P (h s)).mpr hs

theorem frame_iff : Frame f x ↔ ∀ b, Keeps (fun s => f s = b) x :=
  ⟨fun h _ s hs => (h s).trans hs, fun h s => h (f s) s rfl⟩

namespace Frame

variable {δ : Type} {f : σ → δ} {x : Prog σ ε α}

theorem pure (a : α) : Frame f (Pure.pure a : Prog σ ε α) := fun _ => rfl

theorem throw (e : ε) : Frame f (Prog.throw e : Prog σ ε α) := fun _ => rfl

theorem panic (msg : String) : Frame f (Prog.panic msg : Prog σ ε α) := fun _ => rfl

theorem read (g : σ → α) : Frame f (Prog.read g : Prog σ ε α) := fun _ => rfl

theorem modify {g : σ → σ} (h : ∀ s, f (g s) = f s) : Frame f (Prog.modify g : Prog σ ε Unit) := h

theorem ofExcept (r : Except ε α) : Frame f (Prog.ofExcept r : Prog σ ε α) :=
  frame_iff.mpr fun _ => Keeps.ofExcept r

theorem expect (msg : String) (o : Option α) : Frame f (Prog.expect msg o : Prog σ ε α) :=
  frame_iff.mpr fun _ => Keeps.expect msg o

theorem okOr (e : ε) (o : Option α) : Frame f (Prog.okOr e o : Prog σ ε α) :=
  frame_iff.mpr fun _ => Keeps.okOr e o

theorem bind {k : α → Prog σ ε β} (hx : Frame f x) (hk : ∀ a, Frame f (k a)) : Frame f (x >>= k) :=
  frame_iff.mpr fun b => Keeps.bind (frame_iff.mp hx b) fun a => frame_iff.mp (hk a) b

theorem map (g : α → β) (hx : Frame f x) : Frame f (g <$> x) :=
  bind hx fun a => pure (g a)

theorem mapErr {h : ε → Prog σ ε ε} (hx : Frame f x) (hh : ∀ e, Frame f (h e)) :
    Frame f (x.mapErr h) :=
  frame_iff.mpr fun b => Keeps.mapErr (frame_iff.mp hx b) fun e => frame_iff.mp (hh e) b

theorem ite {c : Prop} [Decidable c] {y : Prog σ ε α} (hx : Frame f x) (hy : Frame f y) :
    Frame f (if c then x else y) :=
  frame_iff.mpr fun b => Keeps.ite (frame_iff.mp hx b) (frame_iff.mp hy b)

theorem each {k : α → Prog σ ε Unit} (hk : ∀ a, Frame f (k a)) (as : List α) :
    Frame f (Prog.each k as) :=
  frame_iff.mpr fun b => Keeps.each (fun a => frame_iff.mp (hk a) b) as

theorem ignoreErr {x : Prog σ ε Unit} (hx : Frame f x) : Frame f x.ignoreErr :=
  frame_iff.mpr fun b => Keeps.ignoreErr (frame_iff.mp hx b)

theorem ok (hx : Frame f x) {s s' : σ} {a : α} (h : x s = (.ok a, s')) : f s' = f s := by
  rw [← hx s, h]

theorem comp {γ : Type} (hx : Frame f x) (g : δ → γ) :
    Frame (fun s => g (f s)) x := fun s => congrArg g (hx s)

end Frame

-- one rule for each construction, so that a walk through a program is a search in this set
attribute [grind ←] Keeps.pure Keeps.throw Keeps.panic Keeps.read Keeps.modify Keeps.ofExcept
  Keeps.expect Keeps.okOr Keeps.bind Keeps.mapErr Keeps.each Keeps.ignoreErr
attribute [grind ←] Frame.pure Frame.throw Frame.panic Frame.read Frame.modify Frame.ofExcept
  Frame.expect Frame.okOr Frame.bind Frame.map Frame.each Frame.ignoreErr

/-! ## Results -/

/-- What `x` returns satisfies `Q`. -/
def Returns (Q : α → Prop) (x : Prog σ ε α) : Prop := ∀ s a s', x s = (.ok a, s') → Q a

namespace Returns

variable {Q Q' : α → Prop} {R : β → Prop} {x : Prog σ ε α} {f : α → Prog σ ε β}

theorem pure {a : α} (h : Q a) : Returns Q (Pure.pure a : Prog σ ε α) := by
  intro s a s' heq
  cases heq
  exact h

theorem throw (e : ε) : Returns Q (Prog.throw e : Prog σ ε α) := by
  intro s a s' heq
  cases heq

theorem panic (msg : String) : Returns Q (Prog.panic msg : Prog σ ε α) := by
  intro s a s' heq
  cases heq

theorem bind_of (hx : Returns Q x) (hf : ∀ a, Q a → Returns R (f a)) : Returns R (x >>= f) := by
  intro s b s' heq
  obtain ⟨a, s₁, hrun, h⟩ := bind_eq_ok.mp heq
  exact hf a (hx s a s₁ hrun) s₁ b s' h

theorem bind (x : Prog σ ε α) (hf : ∀ a, Returns R (f a)) : Returns R (x >>= f) :=
  bind_of (Q := fun _ => True) (fun _ _ _ _ => trivial) fun a _ => hf a

theorem ite {c : Prop} [Decidable c] {y : Prog σ ε α} (hx : Returns Q x) (hy : Returns Q y) :
    Returns Q (if c then x else y) := by
  split
  · exact hx
  · exact hy

theorem mapErr {h : ε → Prog σ ε ε} (hx : Returns Q x) : Returns Q (x.mapErr h) :=
  fun s a s' heq => hx s a s' (mapErr_eq_ok.mp heq)

theorem zoom {get : τ → σ} {set : σ → τ → τ} (hx : Returns Q x) :
    Returns Q (Prog.zoom get set x) := by
  intro s a s' heq
  have hrun : (x (get s)).1 = .ok a := congrArg Prod.fst heq
  exact hx (get s) a _ (Prod.ext hrun rfl)

theorem mono (hx : Returns Q x) (h : ∀ a, Q a → Q' a) : Returns Q' x :=
  fun s a s' heq => h a (hx s a s' heq)

end Returns

end Prog
