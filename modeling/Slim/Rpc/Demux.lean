import Mathlib.Data.List.AList
import Slim.Lib.Run
import Slim.Lib.Text

/-!
# The requests of a session

`run_session_demux` starts a handler for each call and gives later messages with the call's id to
its stream, a `RawStream`. Replies are left out.
-/

namespace Slim.Rpc

structure ReceivedMessage where
  metadata : AList fun _ : String => String
  payload : List UInt8
  source : String

namespace ReceivedMessage

variable (m : ReceivedMessage)

/-- `RpcCode::from_metadata_str`: 0 is `Ok`, also of what is no code. -/
def code : Nat :=
  ((m.metadata.lookup "slimrpc-code").bind fun s => Text.parseUnsigned 17 s.toList).getD 0

def isEos : Bool :=
  (m.metadata.lookup "slimrpc-code").isSome && m.code = 0 && m.payload.isEmpty

def field (key : String) : Option String := (m.metadata.lookup key).filter (· ≠ "")

/-- The id of a message that is tagged as a client's; any other is dropped. -/
def rpcId : Option String :=
  if m.metadata.lookup "slimrpc-dir" = some "req" then m.field "rpc-id" else none

end ReceivedMessage

/-- A call and its stream, where the first message is treated like the others. -/
structure Call where
  source : String
  queue : List ReceivedMessage
  /-- The messages that were read; only the last one can have ended the stream. -/
  taken : List ReceivedMessage := []
  done : Bool := false

/-- `RawStream::poll_next`. -/
def Call.pollNext (closed : Bool) (c : Call) : Call :=
  match c.done, c.queue with
  | false, m :: queue => { c with queue, taken := c.taken ++ [m], done := m.isEos || m.code ≠ 0 }
  | false, [] => { c with done := closed }
  | true, _ => c

inductive HandlerInfo
  | Unary
  | Stream

structure Demux where
  calls : List Call := []
  /-- `pending_streams`, to the number of the call. -/
  pending : AList fun _ : String => Nat := ∅
  closed : Bool := false

namespace Demux

/-- `spawn_handler_task`. A unary handler reads the first message only. -/
def spawnHandlerTask (s : Demux) (info : HandlerInfo) (id : String) (m : ReceivedMessage) : Demux :=
  { s with
    calls := s.calls ++ [⟨m.source, [m], [], false⟩]
    pending := match info with
      | .Unary => s.pending
      | .Stream => if m.isEos then s.pending else s.pending.insert id s.calls.length }

/-- An iteration of `run_session_demux`. -/
def onMessage (registry : String → Option HandlerInfo) (s : Demux) (m : ReceivedMessage) : Demux :=
  match m.rpcId with
  | none => s
  | some id =>
    match s.pending.lookup id with
    | some i =>
      { s with
        calls := s.calls.modify i fun c => { c with queue := c.queue ++ [m] }
        pending := if m.isEos then s.pending.erase id else s.pending }
    | none =>
      match m.field "service", m.field "method" with
      | some service, some method =>
        match registry (service ++ "/" ++ method) with
        | some info => s.spawnHandlerTask info id m
        | none => s
      | _, _ => s

inductive Action
  | message (m : ReceivedMessage)
  | poll (i : Nat)
  | close

def step (registry : String → Option HandlerInfo) (s : Demux) : Action → Demux
  | .message m => if s.closed then s else s.onMessage registry m
  | .poll i => { s with calls := s.calls.modify i (·.pollNext (s.pending.entries.all (·.2 ≠ i))) }
  | .close => { s with pending := ∅, closed := true }

/-! ## A stream of one caller -/

/-- A message for a live stream comes from its caller. -/
def Faithful (s : Demux) : Action → Prop
  | .message m => ∀ id ∈ m.rpcId, ∀ i ∈ s.pending.lookup id, ∀ c ∈ s.calls[i]?, m.source = c.source
  | _ => True

instance decidableFaithful (s : Demux) : ∀ a, Decidable (s.Faithful a)
  | .message m => inferInstanceAs (Decidable (∀ id ∈ m.rpcId, ∀ i ∈ s.pending.lookup id,
      ∀ c ∈ s.calls[i]?, m.source = c.source))
  | .poll _ | .close => .isTrue trivial

/-- What a call has received comes from its caller. -/
def Own (c : Call) : Prop := ∀ m ∈ c.taken ++ c.queue, m.source = c.source

theorem Own.pollNext {c : Call} (h : Own c) (closed : Bool) : Own (c.pollNext closed) := by
  unfold Call.pollNext
  split
  · rename_i m queue _ hqueue
    simpa [Own, hqueue] using h
  · exact h
  · exact h

theorem forall_own_modify {calls : List Call} {i : Nat} {f : Call → Call} (h : ∀ c ∈ calls, Own c)
    (hf : ∀ c ∈ calls[i]?, Own c → Own (f c)) : ∀ c ∈ calls.modify i f, Own c := by
  intro c hc
  obtain ⟨j, hj⟩ := List.mem_iff_getElem?.mp hc
  rw [List.getElem?_modify] at hj
  obtain ⟨c', hc', rfl⟩ := Option.map_eq_some_iff.mp hj
  have hown := h c' (List.mem_of_getElem? hc')
  split
  · rename_i hij
    exact hf c' (hij ▸ hc') hown
  · exact hown

variable {registry : String → Option HandlerInfo} {s : Demux}

theorem own_onMessage (h : ∀ c ∈ s.calls, Own c) {m : ReceivedMessage}
    (hm : s.Faithful (.message m)) : ∀ c ∈ (s.onMessage registry m).calls, Own c := by
  unfold onMessage
  split
  · exact h
  rename_i id hid
  split
  · rename_i i hi
    refine forall_own_modify h fun c hc hown => ?_
    rw [Own, ← List.append_assoc]
    exact List.forall_mem_append.mpr ⟨hown, by simpa using hm id hid i hi c hc⟩
  split
  · split
    · exact List.forall_mem_append.mpr ⟨h, by simp [Own]⟩
    · exact h
  · exact h

def request (source id : String) (payload : List UInt8) : ReceivedMessage where
  metadata := [⟨"slimrpc-dir", "req"⟩, ⟨"rpc-id", id⟩, ⟨"service", "s"⟩, ⟨"method", "m"⟩].toAList
  payload
  source

def endOfStream (source id : String) : ReceivedMessage where
  metadata := [⟨"slimrpc-dir", "req"⟩, ⟨"rpc-id", id⟩, ⟨"slimrpc-code", "0"⟩].toAList
  payload := []
  source

/-- The callers, what their handlers have read from whom, and whether the streams have ended. -/
def reads (s : Demux) : List (String × List (String × List UInt8) × Bool) :=
  s.calls.map fun c => (c.source, c.taken.map fun m => (m.source, m.payload), c.done)

/-- Two members with a call each; the first sends twice and ends its stream. -/
def twoCalls : List Action :=
  [.message (request "a" "1" [0]), .poll 0, .message (request "b" "2" [1]),
    .message (request "a" "1" [2]), .poll 1, .poll 0, .message (endOfStream "a" "1"), .poll 0]

end Demux

end Slim.Rpc
