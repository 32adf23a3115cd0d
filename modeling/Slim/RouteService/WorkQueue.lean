import Mathlib.Data.Finset.Basic
import Slim.Lib.Notify

/-!
# The work queue of the reconciler

`WorkQueue` is the state behind the lock, and `add`, `pop`, `done` and `shutdown` are the lock
sections of the calls of these names; `pop` is one round of its loop. `Workers` is the queue with
the tasks that use it. Each lock section is one step, and so is each call on the `Notify` after it:
between the two, other tasks run. A worker calls `done` for the item it popped.

The expiry of an `add_after` is an `add`. Left out is `drain_notify`, on which `shutdown_with_drain`
waits for the items that are being processed.
-/

namespace Slim

structure WorkQueue (T : Type) where
  queue : List T := []
  queued : Finset T := ∅
  processing : Finset T := ∅
  /-- Items that were added again while being processed. -/
  dirty : Finset T := ∅
  shutdown : Bool := false
  drain : Bool := false

inductive Popped (T : Type)
  | item (x : T)
  | none
  | wait

namespace WorkQueue

variable {T : Type} [DecidableEq T] (q : WorkQueue T)

/-- The flag says whether `notify_one` is called next. -/
def add (item : T) : Bool × WorkQueue T :=
  if q.shutdown ∨ item ∈ q.queued ∨ item ∈ q.dirty then (false, q)
  else if item ∈ q.processing then (false, { q with dirty := insert item q.dirty })
  else (true, { q with queue := q.queue ++ [item], queued := insert item q.queued })

def pop : Popped T × WorkQueue T :=
  match q.queue with
  | item :: queue =>
    (.item item,
      { q with
        queue
        queued := q.queued.erase item
        processing := insert item q.processing })
  | [] => if q.shutdown then (.none, q) else (.wait, q)

/-- The flags say whether the item was queued again, and whether a drain is complete. -/
def done (item : T) : (Bool × Bool) × WorkQueue T :=
  if item ∉ q.processing then ((false, false), q)
  else
    let q := { q with processing := q.processing.erase item }
    let drainComplete := q.drain && q.processing = ∅
    if item ∈ q.dirty then
      ((true, drainComplete),
        { q with
          dirty := q.dirty.erase item
          queue := q.queue ++ [item]
          queued := insert item q.queued })
    else ((false, drainComplete), q)

def beginShutdown : WorkQueue T := { q with drain := false, shutdown := true }

def beginShutdownWithDrain : WorkQueue T :=
  if q.shutdown then q else { q with drain := true, shutdown := true }

end WorkQueue

inductive Phase (T : Type)
  /-- Before the lock section of `pop`. -/
  | ready
  /-- `pop` found nothing and gave the lock back. -/
  | checked
  /-- The future of `notified()` exists; it has counted the calls of `notify_waiters`. -/
  | created (calls : Nat)
  /-- Registered with `notify`. -/
  | waiting
  | holding (item : T)
  /-- `pop` returned `None`. -/
  | finished
  deriving DecidableEq

structure Workers (W T : Type) where
  queue : WorkQueue T := {}
  notify : Notify W := {}
  phase : W → Phase T := fun _ => .ready
  /-- The calls of `notify_one` and `notify_waiters` that are still to be made. -/
  notifyOnes : Nat := 0
  notifyAlls : Nat := 0
  /-- What was put into the queue and what was popped, in this order. -/
  entered : List T := []
  popped : List T := []
  /-- Items that were added, and not popped since. -/
  unserved : Finset T := ∅

inductive WorkerAction (W T : Type)
  | add (item : T)
  | pop (w : W)
  | notified (w : W)
  | poll (w : W)
  | done (w : W)
  | notifyOne
  | shutdown
  | shutdownWithDrain
  | notifyWaiters

namespace Workers

variable {W T : Type} [DecidableEq W] [DecidableEq T]

def setPhase (s : Workers W T) (w : W) (p : Phase T) : W → Phase T := Function.update s.phase w p

/-- These go back to the lock section of `pop`. -/
def wake (s : Workers W T) (ws : List W) : W → Phase T :=
  fun w => if w ∈ ws then .ready else s.phase w

def enter (s : Workers W T) (item : T) (queue : WorkQueue T) : Bool → Workers W T
  | true => { s with queue, entered := s.entered ++ [item], notifyOnes := s.notifyOnes + 1 }
  | false => { s with queue }

def step (s : Workers W T) : WorkerAction W T → Workers W T
  | .add item =>
    let unserved := if s.queue.shutdown then s.unserved else insert item s.unserved
    { s with unserved }.enter item (s.queue.add item).2 (s.queue.add item).1
  | .pop w =>
    if s.phase w = .ready then
      match s.queue.pop with
      | (.item x, queue) =>
        { s with
          queue
          phase := s.setPhase w (.holding x)
          popped := s.popped ++ [x]
          unserved := s.unserved.erase x }
      | (.none, _) => { s with phase := s.setPhase w .finished }
      | (.wait, _) => { s with phase := s.setPhase w .checked }
    else s
  | .notified w =>
    if s.phase w = .checked then
      { s with phase := s.setPhase w (.created s.notify.calls) }
    else s
  | .poll w =>
    match s.phase w with
    | .created calls =>
      let r := s.notify.poll w calls
      { s with notify := r.2, phase := s.setPhase w (if r.1 then .ready else .waiting) }
    | _ => s
  | .done w =>
    match s.phase w with
    | .holding item =>
      let r := s.queue.done item
      { s with phase := s.setPhase w .ready }.enter item r.2 r.1.1
    | _ => s
  | .notifyOne =>
    if s.notifyOnes = 0 then s
    else
      { s with
        notifyOnes := s.notifyOnes - 1
        notify := s.notify.notifyOne.2
        phase := s.wake s.notify.notifyOne.1 }
  | .shutdown => { s with queue := s.queue.beginShutdown, notifyAlls := s.notifyAlls + 1 }
  | .shutdownWithDrain =>
    { s with queue := s.queue.beginShutdownWithDrain, notifyAlls := s.notifyAlls + 1 }
  | .notifyWaiters =>
    if s.notifyAlls = 0 then s
    else
      { s with
        notifyAlls := s.notifyAlls - 1
        notify := s.notify.notifyWaiters.2
        phase := s.wake s.notify.notifyWaiters.1 }

end Workers

end Slim
