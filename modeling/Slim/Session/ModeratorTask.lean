import Slim.Session.Types

/-!
# The tasks of a moderator

A moderator works on one task at a time. A task goes through phases, each of which is started with
the id of the message that was sent for it and completed by a reply with that id.

A phase function returns the task it leaves and what it sent on the task's channel. A task that does
not have the phase answers `ModeratorTaskUnsupportedPhase`.
-/

namespace Slim

/-- A phase: whether it is done, and the id it waits for. -/
structure PhaseState where
  received : Bool := false
  timerId : Nat := 0
  deriving DecidableEq, Repr

namespace PhaseState

def start (timerId : Nat) : PhaseState := ⟨false, timerId⟩

def complete (p : PhaseState) : PhaseState := { p with received := true }

end PhaseState

structure AddParticipant where
  discovery : PhaseState := {}
  join : PhaseState := {}
  welcome : PhaseState := {}
  commit : PhaseState := {}
  /-- The name the moderator was asked to invite, with or without an id. -/
  invited : Option ProtoName := none
  /-- The full name that answered discovery. -/
  joining : Option ProtoName := none
  ackTx : Option AckTx := none
  deriving DecidableEq, Repr

structure RemoveParticipant where
  commit : PhaseState := {}
  leave : PhaseState := {}
  ackTx : Option AckTx := none
  deriving DecidableEq, Repr

structure NotifyParticipants where
  notify : PhaseState := {}
  ackTx : Option AckTx := none
  deriving DecidableEq, Repr

structure UpdateParticipant where
  proposal : PhaseState := {}
  commit : PhaseState := {}
  ackTx : Option AckTx := none
  deriving DecidableEq, Repr

structure RejoinParticipant where
  welcome : PhaseState := {}
  commit : PhaseState := {}
  deriving DecidableEq, Repr

inductive ModeratorTask
  | Add (task : AddParticipant)
  | Remove (task : RemoveParticipant)
  | Rejoin (task : RejoinParticipant)
  /-- Everybody is told that the session closes, or that somebody left. -/
  | CloseOrDisconnect (task : NotifyParticipants)
  /-- The moderator itself goes online or offline. -/
  | UpdateLocalStatus
  | Update (task : UpdateParticipant)
  deriving DecidableEq, Repr

namespace ModeratorTask

/-- The task after a phase function, and what was sent on its channel. -/
abbrev Result := Except SessionError (ModeratorTask × Acks)

def unsupportedPhase : Result := .error .ModeratorTaskUnsupportedPhase

def asAdd : ModeratorTask → Option AddParticipant
  | Add t => some t
  | _ => none

def ackTx : ModeratorTask → Option AckTx
  | Add t => t.ackTx
  | Remove t => t.ackTx
  | CloseOrDisconnect t => t.ackTx
  | Update t => t.ackTx
  | UpdateLocalStatus => none
  | Rejoin _ => none

def ackTxTake : ModeratorTask → ModeratorTask
  | Add t => Add { t with ackTx := none }
  | Remove t => Remove { t with ackTx := none }
  | CloseOrDisconnect t => CloseOrDisconnect { t with ackTx := none }
  | Update t => Update { t with ackTx := none }
  | UpdateLocalStatus => UpdateLocalStatus
  | Rejoin t => Rejoin t

def failureMessage (err : SessionError) : ModeratorTask → SessionError
  | Add _ => .ModeratorTaskAddFailed err
  | Remove _ => .ModeratorTaskRemoveFailed err
  | Update _ => .ModeratorTaskUpdateFailed err
  | CloseOrDisconnect _ => .ModeratorTaskCloseFailed err
  | _ => .ModeratorTaskUnsupportedPhase

/-- Success, on the channel. -/
def acked (ackTx : Option AckTx) : Acks := (ackTx.map fun tx => (tx, Except.ok ())).toList

/-! ### Phases -/

def discoveryStart (timerId : Nat) : ModeratorTask → Result
  | Add t => .ok (Add { t with discovery := .start timerId }, [])
  | _ => unsupportedPhase

def discoveryComplete (timerId : Nat) : ModeratorTask → Result
  | Add t =>
    if t.discovery.timerId = timerId then
      .ok (Add { t with discovery := t.discovery.complete }, [])
    else .error (.ModeratorTaskUnexpectedTimerId timerId)
  | _ => unsupportedPhase

def joinStart (timerId : Nat) : ModeratorTask → Result
  | Add t => .ok (Add { t with join := .start timerId }, [])
  | _ => unsupportedPhase

def joinComplete (timerId : Nat) : ModeratorTask → Result
  | Add t =>
    if t.join.timerId = timerId then .ok (Add { t with join := t.join.complete }, [])
    else .error (.ModeratorTaskUnexpectedTimerId timerId)
  | _ => unsupportedPhase

def leaveStart (timerId : Nat) : ModeratorTask → Result
  | Remove t => .ok (Remove { t with leave := .start timerId }, [])
  | _ => unsupportedPhase

/-- The removal is reported as done. -/
def leaveComplete (timerId : Nat) : ModeratorTask → Result
  | Remove t =>
    if t.leave.timerId = timerId then
      .ok (Remove { t with leave := t.leave.complete, ackTx := none }, acked t.ackTx)
    else .error (.ModeratorTaskUnexpectedTimerId timerId)
  | _ => unsupportedPhase

def welcomeStart (timerId : Nat) : ModeratorTask → Result
  | Add t => .ok (Add { t with welcome := .start timerId }, [])
  | Rejoin t => .ok (Rejoin { t with welcome := .start timerId }, [])
  | _ => unsupportedPhase

def commitStart (timerId : Nat) : ModeratorTask → Result
  | Add t => .ok (Add { t with commit := .start timerId }, [])
  | Remove t => .ok (Remove { t with commit := .start timerId }, [])
  | Update t => .ok (Update { t with commit := .start timerId }, [])
  | CloseOrDisconnect t => .ok (CloseOrDisconnect { t with notify := .start timerId }, [])
  | Rejoin t => .ok (Rejoin { t with commit := .start timerId }, [])
  | UpdateLocalStatus => unsupportedPhase

/-- The invite is reported as done once both of its last phases are. -/
def addUpdated (t : AddParticipant) : ModeratorTask × Acks :=
  if t.welcome.received ∧ t.commit.received then (Add { t with ackTx := none }, acked t.ackTx)
  else (Add t, [])

def updatePhaseCompleted (timerId : Nat) : ModeratorTask → Result
  | Add t =>
    if t.welcome.timerId = timerId then .ok (addUpdated { t with welcome := t.welcome.complete })
    else if t.commit.timerId = timerId then .ok (addUpdated { t with commit := t.commit.complete })
    else .error (.ModeratorTaskUnexpectedTimerId timerId)
  | Remove t =>
    if t.commit.timerId = timerId then .ok (Remove { t with commit := t.commit.complete }, [])
    else .error (.ModeratorTaskUnexpectedTimerId timerId)
  | Update t =>
    if t.proposal.timerId = timerId then .ok (Update { t with proposal := t.proposal.complete }, [])
    else if t.commit.timerId = timerId then .ok (Update { t with commit := t.commit.complete }, [])
    else .error (.ModeratorTaskUnexpectedTimerId timerId)
  | CloseOrDisconnect t =>
    if t.notify.timerId = timerId then
      .ok (CloseOrDisconnect { notify := t.notify.complete, ackTx := none }, acked t.ackTx)
    else .error (.ModeratorTaskUnexpectedTimerId timerId)
  | Rejoin t =>
    if t.welcome.timerId = timerId then .ok (Rejoin { t with welcome := t.welcome.complete }, [])
    else if t.commit.timerId = timerId then .ok (Rejoin { t with commit := t.commit.complete }, [])
    else .error (.ModeratorTaskUnexpectedTimerId timerId)
  | UpdateLocalStatus => unsupportedPhase

/-! ### How far a task is -/

def taskComplete : ModeratorTask → Bool
  | Add t => t.discovery.received && t.join.received && t.welcome.received && t.commit.received
  | Remove t => t.commit.received && t.leave.received
  | Update t => t.proposal.received && t.commit.received
  | CloseOrDisconnect t => t.notify.received
  | Rejoin t => t.welcome.received && t.commit.received
  | UpdateLocalStatus => true

/-- The goal was reached, though some acknowledgements are missing. -/
def partialSuccess : ModeratorTask → Bool
  | Add t => t.discovery.received && t.join.received && t.welcome.received
  | Remove t => t.leave.received
  | Update t => t.proposal.received && t.commit.received
  | CloseOrDisconnect _ => true
  | Rejoin t => t.welcome.received
  | UpdateLocalStatus => true

end ModeratorTask

end Slim
