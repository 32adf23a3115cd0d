/-!
# A notification with one permit

`Notify` wakes the tasks that wait for it, first come first served. A call of `notifyOne` that finds
no waiter leaves a permit, and there is at most one. A call of `notifyWaiters` leaves none: it
reaches the waiters, and the futures that exist already, which have counted the calls before them.
-/

structure Notify (W : Type) where
  permit : Bool := false
  waiters : List W := []
  /-- How often `notifyWaiters` was called. -/
  calls : Nat := 0

namespace Notify

variable {W : Type}

/-- Those that are woken, and the notification afterwards. -/
def notifyOne (n : Notify W) : List W × Notify W :=
  match n.waiters with
  | w :: waiters => ([w], { n with waiters })
  | [] => ([], { n with permit := true })

def notifyWaiters (n : Notify W) : List W × Notify W :=
  (n.waiters, { n with waiters := [], calls := n.calls + 1 })

/-- The first poll of a future that was created after `calls` calls: whether it is ready. -/
def poll (n : Notify W) (w : W) (calls : Nat) : Bool × Notify W :=
  if n.permit then (true, { n with permit := false })
  else if n.calls ≠ calls then (true, n)
  else (false, { n with waiters := n.waiters ++ [w] })

/-- There is no permit while there are waiters. -/
def Wf (n : Notify W) : Prop := n.permit = true → n.waiters = []

variable {n : Notify W}

theorem Wf.notifyOne (h : n.Wf) : n.notifyOne.2.Wf := by
  intro hpermit
  unfold Notify.notifyOne at hpermit ⊢
  split
  · rename_i w waiters hw
    simp only [hw] at hpermit
    rw [h hpermit] at hw
    cases hw
  · assumption

theorem wf_notifyWaiters (n : Notify W) : n.notifyWaiters.2.Wf := fun _ => rfl

theorem poll_cases (n : Notify W) (w : W) (calls : Nat) :
    (∃ n', n.poll w calls = (true, n') ∧ n'.waiters = n.waiters ∧ n'.calls = n.calls) ∨
      n.calls = calls ∧ n.poll w calls = (false, { n with waiters := n.waiters ++ [w] }) := by
  unfold poll
  split
  · exact .inl ⟨_, rfl, rfl, rfl⟩
  · split
    · exact .inl ⟨n, rfl, rfl, rfl⟩
    · rename_i hcalls
      exact .inr ⟨Decidable.not_not.mp hcalls, rfl⟩

theorem Wf.poll (h : n.Wf) (w : W) (calls : Nat) : (n.poll w calls).2.Wf := by
  unfold Notify.poll
  split
  · exact nofun
  · split
    · exact h
    · exact fun hpermit => absurd hpermit ‹_›

end Notify
