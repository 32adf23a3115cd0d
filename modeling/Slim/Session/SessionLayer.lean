import Mathlib.Data.List.AList
import Slim.Proto.Command

/-!
# The sessions of an application

`SessionLayer` keeps the controllers of an application by session id (the pool), and the records and
MLS groups they persisted. A controller is built, with its processing loop running, before the layer
knows whether its id is still free; one that is not put into the pool is dropped, and its loop ends
like any other. The loop tells the layer at its end (`DeleteSession`), and a participant that is
asked to leave does so as well when it is asked. The notification has the session id only. The layer
handles one notification after the other; it holds no lock between the pool, the group and the
record.

Controllers are numbered in the order they are built. Histories: a notification has the number of
its sender, a record the number of the controller it belongs to (`none`: one of an earlier process).
What makes a loop end, and what it does before, is not modelled here: it may end at any time.
-/

namespace Slim

/-- The ids for sessions: `0..(u32::MAX - 1000)`. -/
def SESSION_RANGE : Nat := 2 ^ 32 - 1 - 1000

inductive CreateError
  | InvalidSessionId (id : Nat)
  | SessionIdAlreadyUsed (id : Nat)
  deriving DecidableEq, Repr

structure ControllerState where
  id : Nat
  /-- Whether the call that built it is through with it. -/
  settled : Bool := false
  ended : Bool := false
  deriving DecidableEq, Repr

/-- What the layer reads of a persisted session. -/
structure PersistedRecord where
  groupId : Option Bytes
  owner : Option Nat
  deriving DecidableEq, Repr

/-- What comes next in the handling of a `DeleteSession`, once the session is out of the pool. -/
inductive DeleteStage
  /-- The record is read. -/
  | record
  /-- The group that the record names is deleted. -/
  | group (record : PersistedRecord)
  /-- The record is deleted. -/
  | key
  deriving DecidableEq, Repr

structure SessionLayer where
  /-- Controller numbers by session id. -/
  pool : AList fun _ : Nat => Nat := ∅
  controllers : List ControllerState := []
  records : AList fun _ : Nat => PersistedRecord := ∅
  /-- The ids of the stored MLS groups. -/
  groups : List Bytes := []
  /-- The `DeleteSession`s that wait: the session id and the sender. -/
  notifications : List (Nat × Nat) := []
  /-- The one that is handled: the session id, the sender, and what comes next. -/
  deleting : Option (Nat × Nat × DeleteStage) := none
  /-- The layer still receives. -/
  receiving : Bool := true

namespace SessionLayer

/-! ## Creation -/

variable (s : SessionLayer)

/-- The id of a new session: the one that is asked for, or one that is drawn until it is free. -/
def chooseId (id : Option Nat) (draw : Nat) : Except CreateError (Option Nat) :=
  match id with
  | some id =>
    if SESSION_RANGE ≤ id then .error (.InvalidSessionId id)
    else if (s.pool.lookup id).isSome then .error (.SessionIdAlreadyUsed id)
    else .ok (some id)
  | none => .ok (if draw < SESSION_RANGE ∧ (s.pool.lookup draw).isNone then some draw else none)

/-- Build a controller, which has the next number. -/
def build (id : Nat) : SessionLayer :=
  { s with controllers := s.controllers ++ [{ id }] }

/-- The first part of `create_session_internal`, under the read lock and after it. -/
def create (id : Option Nat) (draw : Nat) : SessionLayer :=
  match s.chooseId id draw with
  | .ok (some id) => s.build id
  | _ => s

/-- The first part of `restore_one`, for the record with this id: the pool is not asked. -/
def restore (id : Nat) : SessionLayer :=
  match s.records.lookup id with
  | none => s
  | some record =>
    { s.build id with
      records := s.records.insert id { record with owner := some s.controllers.length } }

/-- The second part of both, under the write lock: a controller whose id is taken is dropped. -/
def insert (n : Nat) : SessionLayer :=
  match s.controllers[n]? with
  | none => s
  | some c =>
    if c.settled then s
    else
      { s with
        controllers := s.controllers.set n { c with settled := true }
        pool := if (s.pool.lookup c.id).isSome then s.pool else s.pool.insert c.id n }

/-! ## Controllers -/

def running (n : Nat) : Option ControllerState :=
  s.controllers[n]?.filter fun c => !c.ended

/-- The controller persists its state; the MLS library has stored the group. -/
def persist (n : Nat) (groupId : Option Bytes) : SessionLayer :=
  match s.running n with
  | none => s
  | some c =>
    { s with
      records := s.records.insert c.id ⟨groupId, some n⟩
      groups := groupId.toList ++ s.groups }

def notify (c : ControllerState) (n : Nat) : SessionLayer :=
  if s.receiving then { s with notifications := s.notifications ++ [(c.id, n)] } else s

/-- `on_leave_request` of a participant. -/
def onLeaveRequest (n : Nat) : SessionLayer :=
  match s.running n with
  | none => s
  | some c => s.notify c n

def endLoop (n : Nat) : SessionLayer :=
  match s.running n with
  | none => s
  | some c => { s with controllers := s.controllers.set n { c with ended := true } }.notify c n

/-! ## Deletion -/

/-- The next part of the handling of a `DeleteSession` in `listen_from_sessions`. -/
def onDeleteSession : SessionLayer :=
  match s.deleting with
  | none =>
    match s.notifications with
    | [] => s
    | (id, n) :: rest =>
      { s with pool := s.pool.erase id, notifications := rest, deleting := some (id, n, .record) }
  | some (id, n, .record) =>
    match s.records.lookup id with
    | none => { s with deleting := some (id, n, .key) }
    | some record => { s with deleting := some (id, n, .group record) }
  | some (id, n, .group record) =>
    { s with
      groups := s.groups.filter fun g => record.groupId ≠ some g
      deleting := some (id, n, .key) }
  | some (id, _, .key) => { s with records := s.records.erase id, deleting := none }

/-- The process shuts down: nobody receives any more. -/
def shutdown : SessionLayer := { s with notifications := [], receiving := false }

/-! ## Runs -/

inductive Action
  | create (id : Option Nat) (draw : Nat)
  | restore (id : Nat)
  | insert (n : Nat)
  | persist (n : Nat) (groupId : Option Bytes)
  | onLeaveRequest (n : Nat)
  | endLoop (n : Nat)
  | onDeleteSession
  | shutdown

def step (s : SessionLayer) : Action → SessionLayer
  | .create id draw => s.create id draw
  | .restore id => s.restore id
  | .insert n => s.insert n
  | .persist n groupId => s.persist n groupId
  | .onLeaveRequest n => s.onLeaveRequest n
  | .endLoop n => s.endLoop n
  | .onDeleteSession => s.onDeleteSession
  | .shutdown => s.shutdown

end SessionLayer

end Slim
