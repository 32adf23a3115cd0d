import Mathlib.Data.List.Rotate
import Slim.Lib.Lookup
import Slim.Lib.Run
import Slim.Session.Sender

/-!
# Runs of a sender

`ProducerBuffer.Holds`: the ring is a queue of at most `capacity` messages, of which a full one
loses the oldest. `Effect` says once what an event does to a sender; the results about
acknowledgements, about who is waited for and about what is flushed are read off it.
-/

namespace Slim

open Prog

/-! ## The ring -/

namespace ProducerBuffer

/-- The messages of the ring are `q`, oldest first. -/
structure Holds (b : ProducerBuffer) (q : List Publish) : Prop where
  size : b.ring.length = b.capacity
  next_lt : b.next < b.capacity
  order : b.ring.rotate b.next =
    List.replicate (b.capacity - q.length) EMPTY_SLOT ++ q.map Publish.id
  nodup : (q.map Publish.id).Nodup
  ids : ∀ m ∈ q, m.id ≠ EMPTY_SLOT
  get : ∀ id m, b.messages.lookup id = some m ↔ m ∈ q ∧ m.id = id

theorem holds_withCapacity {capacity : Nat} (h : 0 < capacity) :
    Holds (withCapacity capacity) [] where
  size := List.length_replicate
  next_lt := h
  order := by simp [withCapacity]
  nodup := List.nodup_nil
  ids := by simp
  get := by simp [withCapacity]

/-- Writing over the oldest slot makes it the newest. -/
theorem rotate_set {l : List Nat} {n : Nat} (hn : n < l.length) (a : Nat) :
    (l.set n a).rotate ((n + 1) % l.length) = (l.rotate n).tail ++ [a] := by
  have hlen : (l.set n a).length = l.length := List.length_set
  rw [← hlen, List.rotate_mod, List.rotate_eq_drop_append_take (by omega),
    List.rotate_eq_drop_append_take hn.le, List.drop_set_of_lt (by omega),
    List.drop_eq_getElem_cons hn, List.cons_append, List.take_set,
      List.take_succ_eq_append_getElem hn, List.set_append_right _ _ (by simp)]
  simp [hn.le]

namespace Holds

variable {b : ProducerBuffer} {q : List Publish} (h : Holds b q)
include h

theorem length_le : q.length ≤ b.capacity := by
  have hlen := congrArg List.length h.order
  simp only [List.length_rotate, h.size, List.length_append, List.length_map] at hlen
  omega

theorem lookup_empty : b.messages.lookup EMPTY_SLOT = none := by
  refine Option.eq_none_iff_forall_not_mem.mpr fun m hm => ?_
  obtain ⟨hq, hid⟩ := (h.get _ m).mp hm
  exact h.ids m hq hid

theorem slots : (List.range b.capacity).map
    (fun i => b.ring.getD ((b.next + i) % b.capacity) EMPTY_SLOT) = b.ring.rotate b.next := by
  refine List.ext_getElem (by simp [h.size]) fun i hi hi' => ?_
  have hlt : (b.next + i) % b.capacity < b.ring.length := by
    rw [h.size]
    exact Nat.mod_lt _ (by have := h.next_lt; omega)
  simp [h.size, Nat.add_comm i, List.getElem?_eq_getElem hlt]

theorem iter_eq : b.iter = q := by
  have hiter : b.iter = (b.ring.rotate b.next).filterMap b.messages.lookup := by
    rw [← h.slots, List.filterMap_map]
    rfl
  rw [hiter, h.order, List.filterMap_append, List.filterMap_map]
  have hempty : (List.replicate (b.capacity - q.length) EMPTY_SLOT).filterMap b.messages.lookup =
      [] := by
    rw [List.filterMap_eq_nil_iff]
    rintro _ hx
    rw [List.eq_of_mem_replicate hx]
    exact h.lookup_empty
  rw [hempty, List.nil_append, List.filterMap_congr, List.filterMap_some]
  exact fun m hm => (h.get m.id m).mpr ⟨hm, rfl⟩

/-- The slot that is written next is empty, or that of the oldest message. -/
theorem oldest : (b.ring.rotate b.next).head? = some (b.ring.getD b.next EMPTY_SLOT) := by
  have hlt : b.next < b.ring.length := h.size ▸ h.next_lt
  rw [List.rotate_eq_drop_append_take hlt.le]
  simp [List.getElem?_eq_getElem hlt]

/-- Without the slot that is written next, the queue has lost its oldest message if it is full. -/
theorem tail : (b.ring.rotate b.next).tail =
      List.replicate (b.capacity - (q.drop (q.length + 1 - b.capacity)).length - 1) EMPTY_SLOT ++
        (q.drop (q.length + 1 - b.capacity)).map Publish.id ∧
    ∀ m, m ∈ q.drop (q.length + 1 - b.capacity) ↔ m ∈ q ∧ m.id ≠ b.ring.getD b.next EMPTY_SLOT := by
  have hold := h.oldest
  rw [h.order] at hold ⊢
  obtain hroom | hfull := Nat.lt_or_eq_of_le h.length_le
  · rw [show q.length + 1 - b.capacity = 0 by omega,
      show b.capacity - q.length = b.capacity - q.length - 1 + 1 by omega,
      List.replicate_succ] at *
    rw [List.cons_append, List.head?_cons, Option.some_inj] at hold
    rw [← hold]
    refine ⟨by simp, fun m => ?_⟩
    exact ⟨fun hm => ⟨hm, h.ids m hm⟩, And.left⟩
  · cases hq : q with
    | nil =>
      have := h.next_lt
      simp [hq] at hfull
      omega
    | cons m₀ q₀ =>
      have hnodup := h.nodup
      simp only [hq, hfull.symm, Nat.sub_self, List.replicate_zero, List.nil_append, List.map_cons,
        List.head?_cons, Option.some_inj, List.nodup_cons] at hold hnodup
      rw [← hold, ← hfull, hq]
      refine ⟨by simp, fun m => ?_⟩
      simp only [Nat.add_sub_cancel_left, List.mem_cons]
      refine ⟨fun hm => ⟨.inr hm, fun hid => hnodup.1 (hid ▸ List.mem_map_of_mem hm)⟩, ?_⟩
      rintro ⟨rfl | hm, hne⟩
      · exact absurd rfl hne
      · exact hm

/-- A new message is the newest, and the oldest one goes if there is no room. -/
theorem push {m : Publish} (hid : m.id ≠ EMPTY_SLOT) (hnew : ∀ m' ∈ q, m'.id ≠ m.id) :
    Holds (b.push m) (q.drop (q.length + 1 - b.capacity) ++ [m]) := by
  have hnone : b.messages.lookup m.id = none :=
    Option.eq_none_iff_forall_not_mem.mpr fun m' hm' =>
      hnew m' ((h.get _ m').mp hm').1 ((h.get _ m').mp hm').2
  have hpush : b.push m =
      { b with
        messages := (b.messages.erase (b.ring.getD b.next EMPTY_SLOT)).insert m.id m
        ring := b.ring.set b.next m.id
        next := (b.next + 1) % b.capacity } := by
    simp [ProducerBuffer.push, hnone]
  have hlt : b.next < b.ring.length := h.size ▸ h.next_lt
  obtain ⟨horder, hmem⟩ := h.tail
  rw [hpush]
  exact {
    size := by simp [h.size]
    next_lt := Nat.mod_lt _ (by have := h.next_lt; omega)
    order := by
      rw [← h.size, rotate_set hlt, horder, h.size]
      simp [Nat.sub_sub]
    nodup := by
      rw [List.map_append]
      refine List.Nodup.append (h.nodup.sublist ((List.drop_sublist _ _).map _)) (by simp) ?_
      rintro _ hx hx'
      obtain ⟨m', hm', rfl⟩ := List.mem_map.mp hx
      exact hnew m' (List.mem_of_mem_drop hm') (by simpa using hx')
    ids := by
      intro m' hm'
      obtain hm' | hm' := List.mem_append.mp hm'
      · exact h.ids m' (List.mem_of_mem_drop hm')
      · rwa [List.mem_singleton.mp hm']
    get := by
      intro id m'
      simp only [List.mem_append, hmem, List.mem_singleton]
      by_cases hid' : id = m.id
      · subst hid'
        rw [AList.lookup_insert]
        refine ⟨fun h => ⟨.inr (Option.some_inj.mp h).symm, by rw [Option.some_inj.mp h]⟩, ?_⟩
        rintro ⟨⟨hm', _⟩ | rfl, hid'⟩
        · exact absurd hid' (hnew m' hm')
        · rfl
      · rw [AList.lookup_insert_ne hid']
        by_cases hev : id = b.ring.getD b.next EMPTY_SLOT
        · rw [hev, AList.lookup_erase]
          refine ⟨fun h => (by cases h), ?_⟩
          rintro ⟨⟨_, hne⟩ | rfl, hkey⟩
          · exact absurd hkey hne
          · exact absurd (hev.trans hkey.symm) hid'
        · rw [AList.lookup_erase_ne hev, h.get]
          refine ⟨fun hm => ⟨.inl ⟨hm.1, hm.2 ▸ hev⟩, hm.2⟩, ?_⟩
          rintro ⟨⟨hm', _⟩ | rfl, hkey⟩
          · exact ⟨hm', hkey⟩
          · exact absurd hkey.symm hid' }

theorem mem_of_push {m : Publish} (hid : m.id ≠ EMPTY_SLOT) :
    ∃ q', Holds (b.push m) q' ∧ ∀ m' ∈ q', m' ∈ q ∨ m' = m := by
  by_cases hnew : ∀ m' ∈ q, m'.id ≠ m.id
  · refine ⟨_, h.push hid hnew, fun m' hm' => ?_⟩
    obtain hm' | hm' := List.mem_append.mp hm'
    · exact .inl (List.mem_of_mem_drop hm')
    · exact .inr (List.mem_singleton.mp hm')
  · obtain ⟨m', hm', hid'⟩ : ∃ m' ∈ q, m'.id = m.id := by simpa using hnew
    have hsame : b.push m = b := by
      rw [ProducerBuffer.push, (h.get m.id m').mpr ⟨hm', hid'⟩]
      rfl
    rw [hsame]
    exact ⟨q, h, fun _ => .inl⟩

end Holds

/-- The new message is there, and so are the others but the one whose slot is written over. -/
theorem get_push (b : ProducerBuffer) (m : Publish) {i : Nat}
    (h : i = m.id ∨ (b.get i).isSome ∧ i ≠ b.ring.getD b.next EMPTY_SLOT) :
    ((b.push m).get i).isSome := by
  unfold push get at *
  split
  · obtain rfl | h := h
    · assumption
    · exact h.1
  · obtain rfl | ⟨h, hne⟩ := h
    · rw [AList.lookup_insert]
      rfl
    · by_cases hi : i = m.id
      · rw [hi, AList.lookup_insert]
        rfl
      · rwa [AList.lookup_insert_ne hi, AList.lookup_erase_ne hne]

/-! ### Runs of the ring -/

inductive Op where
  | push (m : Publish) (hid : m.id < 2 ^ 32)
  | clear

/-- An operation, with the pushes since the last `clear` that found no message of their id. -/
def step : ProducerBuffer × List Publish → Op → ProducerBuffer × List Publish
  | (b, log), .push m _ => (b.push m, if (b.get m.id).isSome then log else log ++ [m])
  | (b, _), .clear => (b.clear, [])

/-- The ring has the last pushes. -/
def Recent (capacity : Nat) (s : ProducerBuffer × List Publish) : Prop :=
  s.1.capacity = capacity ∧ Holds s.1 (s.2.drop (s.2.length - capacity))

theorem Recent.step {capacity : Nat} {s : ProducerBuffer × List Publish} (h : Recent capacity s)
    (op : Op) : Recent capacity (step s op) := by
  obtain ⟨b, log⟩ := s
  obtain ⟨rfl, hb⟩ := h
  dsimp only at hb ⊢
  cases op with
  | push m hid =>
    unfold ProducerBuffer.step Recent
    cases hget : b.messages.lookup m.id with
    | some m' => simpa [get, push, hget] using hb
    | none =>
      have hnew : ∀ m' ∈ log.drop (log.length - b.capacity), m'.id ≠ m.id := by
        intro m' hm' heq
        have := (hb.get m.id m').mpr ⟨hm', heq⟩
        rw [hget] at this
        cases this
      have hpush := hb.push (Nat.ne_of_lt (Nat.lt_of_lt_of_le hid (by decide))) hnew
      have hdrop : log.length - b.capacity +
          (log.length - (log.length - b.capacity) + 1 - b.capacity) =
            log.length + 1 - b.capacity := by omega
      have hpos := hb.next_lt
      rw [List.length_drop, List.drop_drop, hdrop,
        ← List.drop_append_of_le_length (by omega)] at hpush
      refine ⟨by simp [push, hget], ?_⟩
      simpa [get, hget] using hpush
  | clear =>
    have hclear : b.clear = withCapacity b.capacity := by
      rw [clear, hb.size]
      rfl
    have hempty := holds_withCapacity (Nat.zero_lt_of_lt hb.next_lt)
    rw [← hclear] at hempty
    exact ⟨rfl, by simpa [ProducerBuffer.step] using hempty⟩

/-- **The most recent distinct messages**: `iter` yields them in the order they came, `get` finds
what `iter` yields, and no id is yielded twice. -/
theorem iter_recent {capacity : Nat} (h : 0 < capacity) (ops : List Op) :
    let s := ops.foldl step (withCapacity capacity, [])
    s.1.iter = s.2.drop (s.2.length - capacity) ∧
    (∀ id m, s.1.get id = some m ↔ m ∈ s.1.iter ∧ m.id = id) ∧
    (s.1.iter.map Publish.id).Nodup := by
  have hinit : Recent capacity (withCapacity capacity, []) :=
    ⟨rfl, by simpa using holds_withCapacity h⟩
  have hs := (Run.invariant (I := Recent capacity) (fun _ op hs => hs.step op) hinit ops).2
  dsimp only
  rw [hs.iter_eq]
  exact ⟨rfl, hs.get, hs.nodup⟩

def samplePush (i : Fin 4) : Op :=
  .push ⟨⟨none, none⟩, ⟨none, none⟩, "", {}, ⟨0, 0, 1, i⟩, none, []⟩
    (Nat.lt_trans i.isLt (Nat.le_of_ble_eq_true rfl))

/-- What was pushed before a `clear` does not come back. -/
theorem iter_recent_clear :
    ([samplePush 1, samplePush 2, .clear, samplePush 2, samplePush 3].foldl step
      (withCapacity 2, [])).1.iter.map Publish.id = [2, 3] :=
  (congrArg (List.map Publish.id) (iter_recent Nat.two_pos _).1).trans (by decide)

end ProducerBuffer

/-! ## Events -/

inductive SenderEvent
  | message (draw : Nat) (m : Publish) (ackTx : Option AckTx)
  | timerTimeout (id : Nat)
  | timerFailure (id : Nat)
  | slimFailure (error : SessionError)
  | addEndpoint (p : Participant)
  | removeEndpoint (name : ProtoName)
  | startDrain
  | close

namespace SessionSender

/-- What is sent, and the sender after an event. -/
def handle (s : SessionSender) : SenderEvent → SessionOutput × SessionSender
  | .message draw m ackTx => run (onMessage draw m ackTx)
  | .timerTimeout id => run (onTimerTimeout id)
  | .timerFailure id => run (onTimerFailure id)
  | .slimFailure error => run (onSlimFailure error)
  | .addEndpoint p => run (addEndpoint p)
  | .removeEndpoint name => ([], (removeEndpoint name s).2)
  | .startDrain => ([], s.startDrain)
  | .close => ([], s.close)
where
  run (x : M SessionOutput) : SessionOutput × SessionSender :=
    match x s with
    | (.ok out, s') => (out, s')
    | (_, s') => ([], s')

/-- The message as it is sent: numbered, and with the header fields of the session. -/
def stamp (s : SessionSender) (draw : Nat) (m : Publish) : Publish :=
  let isPublishTo := m.containsMetadata PUBLISH_TO
  { m with
    session := { m.session with
      messageId :=
        if isPublishTo then MAX_PUBLISH_ID + 1 + draw % (2 ^ 32 - 1 - (MAX_PUBLISH_ID + 1))
        else (s.nextId + 1) % (MAX_PUBLISH_ID + 1)
      sessionId := s.sessionId
      sessionType := s.sessionType.toWire }
    flags := { m.flags with
      fanout := if isPublishTo then 1 else if s.sessionType = .Multicast then MAX_FANOUT else 1 } }

/-- The message an event publishes, unless it is refused. -/
def published (s : SessionSender) : SenderEvent → Option Publish
  | .message draw m _ =>
    let m' := if s.sessionType = .PointToPoint then m.removeMetadata PUBLISH_TO else m
    if m.type = .Msg ∧ s.drainingState = .NotDraining ∧ (m'.containsMetadata PUBLISH_TO →
        m'.destination.name.any fun e => (s.endpointsList.lookup e).isSome) then some
          (s.stamp draw m')
    else none
  | _ => none

/-- Who a message is sent to. -/
def receivers (s : SessionSender) (m : Publish) : List EncodedName :=
  if m.containsMetadata PUBLISH_TO then m.destination.name.toList else s.endpointsList.keys

/-- A reliable sender waits for those it sends a message to. -/
def awaiting (s : SessionSender) (m : Publish) : SessionSender :=
  if s.reliable then
    { s with
      pendingAcks := s.pendingAcks.insert m.id
        { missingTimers := s.receivers m
          message := if m.containsMetadata PUBLISH_TO then some m else none }
      pendingAcksPerEndpoint := track m.id (s.receivers m) s.pendingAcksPerEndpoint }
  else s

/-- Sent again, but the message is not there any more. -/
def GivenUp (s : SessionSender) (id : Nat) : Prop :=
  if MAX_PUBLISH_ID < id then (s.pendingAcks.lookup id).bind GroupTimer.message = none
  else s.buffer.get id = none

/-- By this event nothing is to come from `n` for message `i` any more: `n` acknowledges it or
leaves, or the message is given up. -/
def Settles (s : SessionSender) (e : SenderEvent) (i : Nat) (n : EncodedName) : Prop :=
  match e with
  | .message _ m _ => (m.type = .MsgAck ∨ m.type = .RtxRequest) ∧ i = m.id ∧ m.source.name = some n
  | .timerTimeout id => i = id ∧ s.GivenUp id
  | .timerFailure id => i = id
  | .slimFailure error => ∃ ctx ∈ error.sessionContext, i = ctx.messageId
  | .removeEndpoint name => name.name = some n
  | .close => True
  | _ => False

end SessionSender

/-- Whether new messages may be sent. -/
def SenderEvent.delivers : SenderEvent → Bool
  | message _ m _ => m.type = .Msg
  | addEndpoint _ => true
  | _ => false

namespace SessionSender

variable {m p : Publish} {e : SenderEvent} {out : SessionOutput} {es : List EncodedName}
  (s : SessionSender) (draw : Nat) (ackTx : Option AckTx) (error : SessionError)

/-! ## What an event does -/

/-- What holds in every run: only the application's messages to all are in the ring, and what is
held back waits for the first endpoint. -/
structure Sound (s : SessionSender) : Prop where
  ring : ∃ q, s.buffer.Holds q ∧
    ∀ m ∈ q, m.containsMetadata PUBLISH_TO = false ∧ m.id ≤ MAX_PUBLISH_ID ∧ m.type = .Msg
  held : s.toFlush = true → s.endpointsList.keys = []
  unreliable : s.reliable = false → ∀ i, s.pendingAcks.lookup i = none
  missing_nodup : ∀ i p, s.pendingAcks.lookup i = some p → p.missingTimers.Nodup
  ids_nodup : ∀ e ids, s.pendingAcksPerEndpoint.lookup e = some ids → ids.Nodup

/-- The ids each endpoint is waited for, without `id` for `es`. -/
def unindex (id : Nat) (es : List EncodedName)
    (perEndpoint : AList fun _ : EncodedName => List Nat) : AList fun _ : EncodedName => List Nat :=
  es.foldl
    (fun m enc =>
      match m.lookup enc with
      | some ids => m.insert enc (ids.erase id)
      | none => m) perEndpoint

inductive Effect (s : SessionSender) : SenderEvent → SessionOutput → SessionSender → Prop
  /-- Nothing that counts; what a reliable sender may send is an answer or sent again. -/
  | quiet {e : SenderEvent} {out : SessionOutput} (acks : Acks)
      (hpub : s.published e = none)
      (hsettles : ∀ i n, s.Settles e i n → s.reliable = false ∨ s.drainingState = .Completed)
      (hsends : e.delivers = true ∨ s.reliable = false → out.slim = []) :
      Effect s e out { s with acks }
  | hold {draw : Nat} {m p : Publish} {ackTx : Option AckTx}
      (notifiers : AList fun _ : Nat => AckTx)
      (acks : Acks) (hpub : s.published (.message draw m ackTx) = some p)
      (hnone : s.endpointsList.keys = []) (hnot : ∀ i ∈ notifiers, i = p.id ∨ i ∈ s.ackNotifiers) :
      Effect s (.message draw m ackTx) []
        { s with
          nextId := p.id
          ackNotifiers := notifiers
          buffer := s.buffer.push p
          toFlush := true
          acks }
  | send {draw : Nat} {m p : Publish} {ackTx : Option AckTx}
      (notifiers : AList fun _ : Nat => AckTx)
      (acks : Acks) (nextId : Nat) (buffer : ProducerBuffer)
      (hpub : s.published (.message draw m ackTx) = some p) (hsome : s.endpointsList.keys ≠ [])
      (hnot : ∀ i ∈ notifiers, i = p.id ∨ i ∈ s.ackNotifiers)
      (hnext : nextId = if p.containsMetadata PUBLISH_TO then s.nextId else p.id)
      (hbuffer : buffer = s.buffer ∨ p.containsMetadata PUBLISH_TO = false ∧
        buffer = s.buffer.push p) :
      Effect s (.message draw m ackTx) [.toSlim p]
        (awaiting { s with nextId, ackNotifiers := notifiers, buffer, acks } p)
  | ack {draw : Nat} {m : Publish} {ackTx : Option AckTx} {out : SessionOutput} {src : EncodedName}
      (notifiers : AList fun _ : Nat => AckTx) (acks : Acks)
      (htype : m.type = .MsgAck ∨ m.type = .RtxRequest) (hrel : s.reliable = true)
      (hsrc : m.source.name = some src)
      (hnot : ∀ i ∈ notifiers, i ∈ s.ackNotifiers ∧
        (i ∈ s.pendingAcks → i ∈ forgetEndpoint src [m.id] s.pendingAcks)) :
      Effect s (.message draw m ackTx) out
        { s with
          pendingAcks := forgetEndpoint src [m.id] s.pendingAcks
          pendingAcksPerEndpoint := unindex m.id [src] s.pendingAcksPerEndpoint
          ackNotifiers := notifiers
          acks }
  | fail {e : SenderEvent} {id : Nat} (acks : Acks) (hpub : s.published e = none)
      (hsettles : ∀ i n, s.Settles e i n ↔ i = id) (hsends : e.delivers = false) :
      Effect s e []
        { s with
          pendingAcks := s.pendingAcks.erase id
          pendingAcksPerEndpoint := unindex id (((s.pendingAcks.lookup id).map
            GroupTimer.missingTimers).getD []) s.pendingAcksPerEndpoint
          ackNotifiers := s.ackNotifiers.erase id
          acks }
  | join {p : Participant} (enc : EncodedName) (name : ProtoName) (hheld : s.toFlush = false) :
      Effect s (.addEndpoint p) []
        { s with endpointsList := s.endpointsList.insert enc name }
  | flush {p : Participant} {q : List Publish} (enc : EncodedName) (name : ProtoName)
      (hheld : s.toFlush = true) (hq : s.buffer.Holds q)
      (hall : ∀ m ∈ q, m.containsMetadata PUBLISH_TO = false) :
      Effect s (.addEndpoint p) (q.map .toSlim)
        (q.foldl awaiting
          { s with endpointsList := s.endpointsList.insert enc name, toFlush := false })
  | leave {name : ProtoName} {key : EncodedName} (hkey : name.name = some key) :
      Effect s (.removeEndpoint name) []
        { s with
          pendingAcks :=
            forgetEndpoint key ((s.pendingAcksPerEndpoint.lookup key).getD []) s.pendingAcks
          pendingAcksPerEndpoint := s.pendingAcksPerEndpoint.erase key
          endpointsList := s.endpointsList.erase key }
  | startDrain : Effect s .startDrain [] s.startDrain
  | close : Effect s .close [] s.close

theorem setTimerAndSend_eq
    (hdst : m.containsMetadata PUBLISH_TO → m.destination.name.isSome) :
    setTimerAndSend m s = (.ok [.toSlim m], s.awaiting m) := by
  unfold setTimerAndSend awaiting receivers
  cases hto : m.containsMetadata PUBLISH_TO with
  | false => by_cases hrel : s.reliable <;> simp [hrel]
  | true =>
    obtain ⟨enc, henc⟩ := Option.isSome_iff_exists.mp (hdst hto)
    by_cases hrel : s.reliable
    · rw [read_bind_run, id_eq, if_pos hrel, if_pos hrel, henc]
      rfl
    · simp [hrel]

theorem flush_eq (q : List Publish) (s : SessionSender)
    (hall : ∀ m ∈ q, m.containsMetadata PUBLISH_TO = false) :
    flush q s = (.ok (q.map .toSlim), q.foldl awaiting s) := by
  induction q generalizing s with
  | nil => rfl
  | cons m q ih =>
    have hm := hall m List.mem_cons_self
    rw [flush, bind_ok (setTimerAndSend_eq s (by simp [hm])),
      bind_ok (ih _ fun m hm => hall m (List.mem_cons_of_mem _ hm))]
    rfl

/-- A message that is not refused is numbered, and then held back or sent. -/
theorem onPublishMessage_eq
    (hdst : m.containsMetadata PUBLISH_TO →
      m.destination.name.any fun e => (s.endpointsList.lookup e).isSome) :
    ∃ notifiers acks, (∀ i ∈ notifiers, i = (s.stamp draw m).id ∨ i ∈ s.ackNotifiers) ∧
      onPublishMessage draw m ackTx s =
        let s' := { s with
          nextId := if m.containsMetadata PUBLISH_TO then s.nextId else (s.stamp draw m).id
          ackNotifiers := notifiers
          acks }
        if s.endpointsList.keys = [] then
          (.ok [], { s' with
            buffer :=
              if m.containsMetadata PUBLISH_TO then s.buffer else s.buffer.push (s.stamp draw m)
            toFlush := true })
        else setTimerAndSend (s.stamp draw m) { s' with
          buffer := if s.reliable ∧ !m.containsMetadata PUBLISH_TO then
            s.buffer.push (s.stamp draw m) else s.buffer } := by
  obtain ⟨buffer, reliable, _, _, endpoints, _, _, sessionType, _, _, _, _⟩ := s
  unfold onPublishMessage
  simp only [read_bind_run, id_eq]
  simp only [stamp, Publish.id, List.isEmpty_iff]
  cases hto : m.containsMetadata PUBLISH_TO with
  | false =>
    cases reliable <;> cases ackTx <;> by_cases hempty : endpoints.keys = []
    all_goals
      simp only [hempty, if_true, if_false]
      refine ⟨_, _, ?_, rfl⟩
      simp +contextual [AList.mem_insert]
  | true =>
    obtain ⟨enc, henc, hin⟩ := (Option.any_eq_true _ _).mp (hdst hto)
    obtain ⟨name, hname⟩ := Option.isSome_iff_exists.mp hin
    have hempty : endpoints.keys ≠ [] :=
      List.ne_nil_of_mem (AList.mem_keys.mp (AList.lookup_isSome.mp hin))
    simp only [henc, if_true, expect_some_bind_run, pure_bind_run, hname,
      Option.isNone_some, Bool.false_eq_true, if_false, idAndFanout, hempty]
    cases reliable <;> cases ackTx
    all_goals
      refine ⟨_, _, ?_, rfl⟩
      simp +contextual [AList.mem_insert]

theorem fail_effect {s : SessionSender} {id : Nat}
    (hpub : s.published e = none) (hsettles : ∀ i n, s.Settles e i n ↔ i = id)
    (hsends : e.delivers = false) : Effect s e [] (onFailure id error s).2 := by
  have hrun : ∃ acks, (onFailure id error s).2 =
      { s with
        pendingAcks := s.pendingAcks.erase id
        pendingAcksPerEndpoint := unindex id (((s.pendingAcks.lookup id).map
          GroupTimer.missingTimers).getD []) s.pendingAcksPerEndpoint
        ackNotifiers := s.ackNotifiers.erase id
        acks } := by
    simp only [onFailure, modify_bind_run]
    cases s.pendingAcks.lookup id with
    | none => exact ⟨_, rfl⟩
    | some p => exact ⟨_, rfl⟩
  obtain ⟨acks, hrun⟩ := hrun
  rw [hrun]
  exact .fail acks hpub hsettles hsends

theorem onAckMessage_eq {src : EncodedName} (hsrc : m.source.name = some src) :
    ∃ notifiers acks, (onAckMessage m s).2 =
      { s with
        pendingAcks := forgetEndpoint src [m.id] s.pendingAcks
        pendingAcksPerEndpoint := unindex m.id [src] s.pendingAcksPerEndpoint
        ackNotifiers := notifiers
        acks } ∧
      ∀ i ∈ notifiers, i ∈ s.ackNotifiers ∧
        (i ∈ s.pendingAcks → i ∈ forgetEndpoint src [m.id] s.pendingAcks) := by
  simp only [onAckMessage, hsrc, expect_some_bind_run, modify_run, forgetEndpoint, unindex,
    List.foldl_cons, List.foldl_nil]
  cases hp : s.pendingAcks.lookup m.id with
  | none =>
    cases s.pendingAcksPerEndpoint.lookup src <;>
      exact ⟨_, _, rfl, fun i hi => ⟨hi, fun h => h⟩⟩
  | some p =>
    by_cases hlast : (p.missingTimers.erase src).isEmpty
    · simp only [hlast, if_true]
      cases s.pendingAcksPerEndpoint.lookup src
      all_goals
        refine ⟨_, _, rfl, fun i hi => ?_⟩
        rw [AList.mem_erase] at hi ⊢
        exact ⟨hi.2, fun h => ⟨hi.1, h⟩⟩
    · simp only [hlast, Bool.false_eq_true, if_false]
      cases s.pendingAcksPerEndpoint.lookup src
      all_goals
        exact ⟨_, _, rfl, fun i hi => ⟨hi, fun h => (AList.mem_insert _).mpr (.inr h)⟩⟩

theorem run_ok {s s' : SessionSender} {x : M SessionOutput} (h : x s = (.ok out, s')) :
    handle.run s x = (out, s') := by
  rw [handle.run, h]

theorem publish_effect {m' : Publish}
    (htype : m.type = .Msg) (hdrain : s.drainingState = .NotDraining)
    (hm' : m' = if s.sessionType = .PointToPoint then m.removeMetadata PUBLISH_TO else m) :
    Effect s (.message draw m ackTx) (handle.run s (onPublishMessage draw m' ackTx)).1
      (handle.run s (onPublishMessage draw m' ackTx)).2 := by
  by_cases hdst : m'.containsMetadata PUBLISH_TO →
      m'.destination.name.any fun e => (s.endpointsList.lookup e).isSome
  · have hpub : s.published (.message draw m ackTx) = some (s.stamp draw m') := by
      simp only [published, ← hm']
      exact if_pos ⟨htype, hdrain, hdst⟩
    obtain ⟨notifiers, acks, hnot, hrun⟩ := onPublishMessage_eq s draw ackTx hdst
    by_cases hnone : s.endpointsList.keys = []
    · -- a message to one is refused where there is none
      have hto : m'.containsMetadata PUBLISH_TO = false := by
        refine Bool.eq_false_iff.mpr fun hto => ?_
        obtain ⟨enc, _, hin⟩ := (Option.any_eq_true _ _).mp (hdst hto)
        exact List.ne_nil_of_mem (AList.mem_keys.mp (AList.lookup_isSome.mp hin)) hnone
      simp only [if_pos hnone, hto] at hrun
      rw [run_ok hrun]
      exact .hold notifiers acks hpub hnone hnot
    · simp only [if_neg hnone] at hrun
      rw [setTimerAndSend_eq _ fun hto => ?_] at hrun
      · rw [run_ok hrun]
        refine .send notifiers acks _ _ hpub hnone hnot rfl ?_
        by_cases hring : s.reliable = true ∧ (!m'.containsMetadata PUBLISH_TO) = true
        · exact .inr ⟨(Bool.not_eq_true' _).mp hring.2, if_pos hring⟩
        · exact .inl (if_neg hring)
      · obtain ⟨enc, henc, _⟩ := (Option.any_eq_true _ _).mp (hdst hto)
        exact Option.isSome_of_eq_some henc
  · have hpub : s.published (.message draw m ackTx) = none := by
      simp only [published, ← hm']
      exact if_neg fun h => hdst h.2.2
    have hrun : handle.run s (onPublishMessage draw m' ackTx) = ([], s) := by
      obtain ⟨hto, hdst⟩ := Classical.not_imp.mp hdst
      cases hname : m'.destination.name with
      | none => simp [handle.run, onPublishMessage, hto, hname, expect]
      | some enc =>
        have hunknown : s.endpointsList.lookup enc = none := by simpa [hname] using hdst
        simp [handle.run, onPublishMessage, hto, hname, hunknown]
    rw [hrun]
    exact .quiet s.acks hpub (fun i n h => by simp [Settles, htype] at h) fun _ => rfl

theorem run_snd (x : M SessionOutput) : (handle.run s x).2 = (x s).2 := by
  unfold handle.run
  rcases x s with ⟨_ | _ | _, _⟩ <;> rfl

theorem onRtxMessage_frame (m : Publish) : Frame (fun s => s) (onRtxMessage m) := by
  refine .bind (.expect _ _) fun _ => .bind (.read _) fun s => ?_
  cases s.buffer.get m.id with
  | none => exact .pure _
  | some msg => exact .pure _

theorem message_effect (m : Publish) (ackTx : Option AckTx) :
    Effect s (.message draw m ackTx)
      (s.handle (.message draw m ackTx)).1 (s.handle (.message draw m ackTx)).2 := by
  have hnotify (r) : ∃ acks, notify ackTx r s = (.ok (), { s with acks }) := by
    cases ackTx with
    | none => exact ⟨s.acks, rfl⟩
    | some tx => exact ⟨_, rfl⟩
  have hrefused (hrun : onMessage draw m ackTx s =
        (notify ackTx (.error .SessionDrainingDrop) >>= fun _ => Prog.throw .SessionDrainingDrop) s)
      (hdrain : s.drainingState ≠ .NotDraining)
      (hack : s.drainingState = .Completed ∨ m.type = .Msg) :
      Effect s (.message draw m ackTx)
        (s.handle (.message draw m ackTx)).1 (s.handle (.message draw m ackTx)).2 := by
    obtain ⟨acks, h⟩ := hnotify (.error .SessionDrainingDrop)
    rw [bind_ok h] at hrun
    simp only [handle, handle.run, hrun]
    refine .quiet acks (by simp [published, hdrain]) (fun i n h => .inr ?_) fun _ => rfl
    obtain h' | h' := hack
    · exact h'
    · simp [Settles, h'] at h
  by_cases hcompleted : s.drainingState = .Completed
  · exact hrefused (by simp [onMessage, hcompleted]) (by simp [hcompleted]) (.inl hcompleted)
  obtain ⟨acks, hn⟩ := hnotify (.ok ())
  -- any other message: the application is told, and no message is published
  have hother {x : M SessionOutput}
      (hrun : onMessage draw m ackTx s = (notify ackTx (.ok ()) >>= fun _ => x) s)
      (hx : Effect s (.message draw m ackTx) (handle.run { s with acks } x).1
        (handle.run { s with acks } x).2) :
      Effect s (.message draw m ackTx)
        (s.handle (.message draw m ackTx)).1 (s.handle (.message draw m ackTx)).2 := by
    rw [bind_ok hn] at hrun
    simp only [handle, handle.run, hrun]
    exact hx
  have hquiet (htype : m.type ≠ .Msg) (h : (m.type = .MsgAck ∨ m.type = .RtxRequest) →
      s.reliable = false) : Effect s (.message draw m ackTx) [] { s with acks } :=
    .quiet acks (by simp [published, htype]) (fun i n hs => .inl (h hs.1)) fun _ => rfl
  have hack {k : M SessionOutput} (hk : ∀ s, (k s).2 = s)
      (htype : m.type = .MsgAck ∨ m.type = .RtxRequest)
      (hrun : onMessage draw m ackTx s = (notify ackTx (.ok ()) >>= fun _ =>
        if !s.reliable then pure [] else onAckMessage m >>= fun _ => k) s) :
      Effect s (.message draw m ackTx)
        (s.handle (.message draw m ackTx)).1 (s.handle (.message draw m ackTx)).2 := by
    have hne : m.type ≠ .Msg := by
      rintro h
      simp [h] at htype
    refine hother hrun ?_
    by_cases hrel : s.reliable = true
    · rw [if_neg (by simp [hrel])]
      cases hsrc : m.source.name with
      | none =>
        have hrun : handle.run { s with acks } (onAckMessage m >>= fun _ => k) =
            ([], { s with acks }) := by
          simp [handle.run, onAckMessage, hsrc, expect, bind_run]
        rw [hrun]
        exact .quiet acks (by simp [published, hne]) (fun i n h => by simp [Settles, hsrc] at h)
          fun _ => rfl
      | some src =>
        obtain ⟨notifiers, acks', hst, hnot⟩ := onAckMessage_eq { s with acks } hsrc
        have hrun : onAckMessage m { s with acks } = (.ok (), _) := Prod.ext (by
          simp [onAckMessage, hsrc]) hst
        rw [run_snd, bind_ok hrun, hk]
        exact .ack notifiers acks' htype hrel hsrc hnot
    · rw [if_pos (by simp [hrel])]
      exact hquiet hne fun _ => Bool.eq_false_iff.mpr hrel
  cases htype : m.type with
  | Msg =>
    cases hdrain : s.drainingState with
    | Completed => exact absurd hdrain hcompleted
    | Initiated =>
      exact hrefused (by simp [onMessage, hdrain, htype]) (by simp [hdrain]) (.inr htype)
    | NotDraining =>
      have hrun : s.handle (.message draw m ackTx) = handle.run s (onPublishMessage draw
          (if s.sessionType = .PointToPoint then m.removeMetadata PUBLISH_TO else m) ackTx) := by
        simp [handle, handle.run, onMessage, hdrain, htype]
      rw [hrun]
      exact publish_effect s draw ackTx htype hdrain rfl
  | MsgAck =>
    exact hack (k := pure []) (fun _ => rfl) (.inl htype) (by simp [onMessage, hcompleted, htype])
  | RtxRequest =>
    exact hack (onRtxMessage_frame m) (.inr htype) (by simp [onMessage, hcompleted, htype])
  | _ =>
    refine hother (x := pure []) (by simp [onMessage, hcompleted, htype]) ?_
    exact hquiet (by simp [htype]) (by simp [htype])

theorem addEndpoint_effect {s : SessionSender} (hs : s.Sound) (p : Participant) :
    Effect s (.addEndpoint p) (s.handle (.addEndpoint p)).1 (s.handle (.addEndpoint p)).2 := by
  have hquiet (h : s.handle (.addEndpoint p) = ([], s)) :
      Effect s (.addEndpoint p) (s.handle (.addEndpoint p)).1 (s.handle (.addEndpoint p)).2 := by
    rw [h]
    exact .quiet s.acks rfl (fun _ _ h => h.elim) fun _ => rfl
  cases hset : p.settings with
  | none => exact hquiet (by simp [handle, handle.run, addEndpoint, hset, okOr])
  | some settings =>
    cases hname : p.name with
    | none => exact hquiet (by simp [handle, handle.run, addEndpoint, hset, hname, okOr])
    | some name =>
      cases hrecv : settings.receivesData with
      | false => exact hquiet (by simp [handle, handle.run, addEndpoint, hset, hname, hrecv])
      | true =>
        cases henc : name.name with
        | none =>
          exact hquiet (by simp [handle, handle.run, addEndpoint, hset, hname, hrecv, henc, expect])
        | some enc =>
          obtain ⟨q, hq, hall⟩ := hs.ring
          have hall := fun m hm => (hall m hm).1
          cases hheld : s.toFlush with
          | false =>
            have hrun : s.handle (.addEndpoint p) =
                ([], { s with endpointsList := s.endpointsList.insert enc name }) := by
              simp [handle, handle.run, addEndpoint, hset, hname, hrecv, henc, hheld]
            rw [hrun]
            exact .join enc name hheld
          | true =>
            have hrun : s.handle (.addEndpoint p) = (q.map .toSlim, q.foldl awaiting
                { s with endpointsList := s.endpointsList.insert enc name, toFlush := false }) := by
              simp [handle, handle.run, addEndpoint, hset, hname, hrecv, henc, hheld, hs.held hheld,
                hq.iter_eq, flush_eq q _ hall]
            rw [hrun]
            exact .flush enc name hheld hq hall

theorem timerTimeout_effect {s : SessionSender} (hs : s.Sound) (id : Nat) :
    Effect s (.timerTimeout id) (s.handle (.timerTimeout id)).1
      (s.handle (.timerTimeout id)).2 := by
  have hfail (hgone : s.GivenUp id) (hrun : onTimerTimeout id s = onTimerFailure id s) :
      Effect s (.timerTimeout id) (s.handle (.timerTimeout id)).1
        (s.handle (.timerTimeout id)).2 := by
    unfold handle handle.run
    simp only [hrun]
    exact fail_effect (.MessageSendRetryFailed id) rfl
      (fun _ _ => and_iff_left hgone) rfl
  have hquiet {out : SessionOutput} (hgone : ¬ s.GivenUp id)
      (hrun : onTimerTimeout id s = (.ok out, s)) (hout : s.reliable = false → out.slim = []) :
      Effect s (.timerTimeout id) (s.handle (.timerTimeout id)).1
        (s.handle (.timerTimeout id)).2 := by
    unfold handle handle.run
    simp only [hrun]
    refine .quiet s.acks rfl (fun _ _ h => absurd h.2 hgone) fun h => hout (h.resolve_left ?_)
    simp [SenderEvent.delivers]
  by_cases hid : MAX_PUBLISH_ID < id
  · cases hmsg : (s.pendingAcks.lookup id).bind GroupTimer.message with
    | none => exact hfail (by simp [GivenUp, hid, hmsg]) (by simp [onTimerTimeout, hid, hmsg])
    | some msg =>
      refine hquiet (by simp [GivenUp, hid, hmsg]) (by simp [onTimerTimeout, hid, hmsg]; rfl)
        fun h => ?_
      simp [hs.unreliable h] at hmsg
  · cases hmsg : s.buffer.get id with
    | none => exact hfail (by simp [GivenUp, hid, hmsg]) (by simp [onTimerTimeout, hid, hmsg])
    | some msg =>
      cases hp : s.pendingAcks.lookup id with
      | none =>
        exact hquiet (by simp [GivenUp, hid, hmsg]) (by simp [onTimerTimeout, hid, hmsg, hp]; rfl)
          fun _ => rfl
      | some p =>
        refine hquiet (by simp [GivenUp, hid, hmsg]) (by simp [onTimerTimeout, hid, hmsg, hp]; rfl)
          fun h => ?_
        simp [hs.unreliable h] at hp

theorem slimFailure_effect :
    Effect s (.slimFailure error) (s.handle (.slimFailure error)).1
      (s.handle (.slimFailure error)).2 := by
  cases hctx : error.sessionContext with
  | none =>
    have hrun : s.handle (.slimFailure error) = ([], s) := by
      simp [handle, handle.run, onSlimFailure, hctx]
    rw [hrun]
    exact .quiet s.acks rfl (fun i n h => by simp [Settles, hctx] at h) fun _ => rfl
  | some ctx =>
    have hrun : s.handle (.slimFailure error) = ([], (onFailure ctx.messageId error s).2) := by
      simp only [handle, onSlimFailure, hctx]
      rfl
    rw [hrun]
    exact fail_effect error rfl (fun i n => by simp [Settles, hctx]) rfl

theorem handle_effect {s : SessionSender} (hs : s.Sound) (e : SenderEvent) :
    Effect s e (s.handle e).1 (s.handle e).2 := by
  cases e with
  | message draw m ackTx => exact message_effect s draw m ackTx
  | timerTimeout id => exact timerTimeout_effect hs id
  | timerFailure id =>
    exact fail_effect (.MessageSendRetryFailed id) rfl (fun _ _ => Iff.rfl) rfl
  | slimFailure error => exact slimFailure_effect s error
  | addEndpoint p => exact addEndpoint_effect hs p
  | removeEndpoint name =>
    cases hkey : name.name with
    | none =>
      have hrun : s.handle (.removeEndpoint name) = ([], s) := by
        simp [handle, removeEndpoint, hkey, expect]
      rw [hrun]
      exact .quiet s.acks rfl (fun i n h => by simp [Settles, hkey] at h) fun _ => rfl
    | some key => simpa [handle, removeEndpoint, hkey] using Effect.leave hkey
  | startDrain => exact .startDrain
  | close => exact .close

/-! ## Every run -/

theorem lookup_foldl {K V : Type} [DecidableEq K] {f : Option V → Option V}
    {step : AList (fun _ : K => V) → K → AList (fun _ : K => V)}
    (hstep : ∀ m k j, (step m k).lookup j = if j = k then f (m.lookup j) else m.lookup j)
    {ks : List K} (h : ks.Nodup) (m : AList (fun _ : K => V)) (j : K) :
    (ks.foldl step m).lookup j = if j ∈ ks then f (m.lookup j) else m.lookup j := by
  induction ks generalizing m with
  | nil => rfl
  | cons k ks ih =>
    rw [List.nodup_cons] at h
    rw [List.foldl_cons, ih h.2, hstep]
    by_cases hk : j = k
    · simp [hk, h.1]
    · simp [hk]

theorem track_lookup (h : es.Nodup) (i : Nat) (m : AList fun _ : EncodedName => List Nat)
    (e : EncodedName) : (track i es m).lookup e =
      if e ∈ es then some (((m.lookup e).getD []).insert i) else m.lookup e := by
  refine lookup_foldl (f := fun ids => some ((ids.getD []).insert i)) (fun m k j => ?_) h m e
  split
  · subst j
    rw [AList.lookup_insert]
  · rw [AList.lookup_insert_ne ‹_›]

theorem unindex_lookup (h : es.Nodup) (i : Nat) (m : AList fun _ : EncodedName => List Nat)
    (e : EncodedName) : (unindex i es m).lookup e =
      if e ∈ es then (m.lookup e).map (List.erase · i) else m.lookup e := by
  refine lookup_foldl (fun m k j => ?_) h m e
  by_cases hj : j = k
  · subst j
    cases hk : m.lookup k <;> simp [hk]
  · cases m.lookup k <;> simp [hj]

/-- An acknowledgement without `key`, if it waits for others. -/
def without (key : EncodedName) (p : GroupTimer) : Option GroupTimer :=
  if (p.missingTimers.erase key).isEmpty then none
  else some { p with missingTimers := p.missingTimers.erase key }

theorem forgetEndpoint_lookup {ids : List Nat} (h : ids.Nodup) (key : EncodedName)
    (m : AList fun _ : Nat => GroupTimer) (i : Nat) : (forgetEndpoint key ids m).lookup i =
      if i ∈ ids then (m.lookup i).bind (without key) else m.lookup i := by
  refine lookup_foldl (f := fun p => p.bind (without key)) (fun m k j => ?_) h m i
  by_cases hj : j = k
  · subst j
    cases hk : m.lookup k with
    | none => simp [hk]
    | some p => by_cases hlast : p.missingTimers.erase key = [] <;> simp [without, hlast]
  · cases hk : m.lookup k with
    | none => simp [hj]
    | some p => by_cases hlast : p.missingTimers.erase key = [] <;> simp [hj, hlast]

theorem receivers_nodup (m : Publish) : (s.receivers m).Nodup := by
  unfold receivers
  split
  · cases m.destination.name <;> simp
  · exact s.endpointsList.keys_nodup

theorem published_spec {s : SessionSender} (h : s.published e = some p) :
    (s.drainingState = .NotDraining ∧ e.delivers = true ∧ ∀ i n, ¬ s.Settles e i n) ∧
      (∀ n ∈ s.receivers p, n ∈ s.endpointsList) ∧
      (p.containsMetadata PUBLISH_TO = true → MAX_PUBLISH_ID < p.id ∧ s.receivers p ≠ []) ∧
      (p.containsMetadata PUBLISH_TO = false → p.id = (s.nextId + 1) % (MAX_PUBLISH_ID + 1)) := by
  cases e with
  | message draw m ackTx =>
    obtain ⟨⟨htype, hdrain, hdst⟩, heq⟩ := Option.ite_none_right_eq_some.mp h
    have hevent : s.drainingState = .NotDraining ∧ (SenderEvent.message draw m ackTx).delivers =
        true ∧ ∀ i n, ¬ s.Settles (.message draw m ackTx) i n :=
      ⟨hdrain, by simp [SenderEvent.delivers, htype], by simp [Settles, htype]⟩
    generalize (if s.sessionType = .PointToPoint then m.removeMetadata PUBLISH_TO else m) = m'
      at hdst heq
    obtain rfl := Option.some_inj.mp heq
    have hto : (s.stamp draw m').containsMetadata PUBLISH_TO = m'.containsMetadata PUBLISH_TO := rfl
    unfold receivers
    rw [hto]
    cases hto : m'.containsMetadata PUBLISH_TO with
    | false => exact ⟨hevent, fun _ hn => hn, fun h => (by cases h),
        fun _ => by simp [stamp, Publish.id, hto]⟩
    | true =>
      obtain ⟨enc, henc, hin⟩ := (Option.any_eq_true _ _).mp (hdst hto)
      have hdst : (s.stamp draw m').destination.name = some enc := henc
      rw [hdst]
      refine ⟨hevent, fun n hn => ?_, fun _ => ⟨?_, by simp⟩, fun h => (by cases h)⟩
      · rw [List.mem_singleton.mp hn]
        exact AList.lookup_isSome.mp hin
      · simp only [stamp, Publish.id, hto, if_true]
        omega
  | _ => cases h

theorem published_type {s : SessionSender} (h : s.published e = some p) : p.type = .Msg := by
  cases e with
  | message draw m ackTx =>
    obtain ⟨⟨htype, -⟩, heq⟩ := Option.ite_none_right_eq_some.mp h
    obtain rfl := Option.some_inj.mp heq
    split <;> exact htype
  | _ => cases h

/-- Where there is no endpoint, only messages to all are published. -/
theorem published_to {s : SessionSender} (hpub : s.published e = some p)
    (hempty : s.endpointsList.keys = []) : p.containsMetadata PUBLISH_TO = false := by
  refine Bool.eq_false_iff.mpr fun hto => ?_
  obtain ⟨n, hn⟩ := List.exists_mem_of_ne_nil _ ((published_spec hpub).2.2.1 hto).2
  have hin := AList.mem_keys.mp ((published_spec hpub).2.1 n hn)
  simp [hempty] at hin

theorem Sound.push {s : SessionSender} (hs : s.Sound) (hp : s.published e = some p)
    (hto : p.containsMetadata PUBLISH_TO = false) :
    ∃ q, (s.buffer.push p).Holds q ∧
      ∀ m ∈ q, m.containsMetadata PUBLISH_TO = false ∧ m.id ≤ MAX_PUBLISH_ID ∧ m.type = .Msg := by
  obtain ⟨q, hq, hall⟩ := hs.ring
  have hid : p.id ≤ MAX_PUBLISH_ID := by
    rw [(published_spec hp).2.2.2 hto]
    exact Nat.lt_succ_iff.mp (Nat.mod_lt _ (Nat.succ_pos _))
  have hslot : p.id ≠ ProducerBuffer.EMPTY_SLOT := by
    have : MAX_PUBLISH_ID < ProducerBuffer.EMPTY_SLOT := by decide
    omega
  obtain ⟨q', hq', hmem⟩ := hq.mem_of_push hslot
  refine ⟨q', hq', fun m hm => ?_⟩
  obtain hm | rfl := hmem m hm
  · exact hall m hm
  · exact ⟨hto, hid, published_type hp⟩

theorem forgetEndpoint_nodup {P : AList fun _ : Nat => GroupTimer}
    (h : ∀ i p, P.lookup i = some p → p.missingTimers.Nodup) {ids : List Nat} (hids : ids.Nodup)
    (key : EncodedName) {i : Nat} {p : GroupTimer}
    (hp : (forgetEndpoint key ids P).lookup i = some p) : p.missingTimers.Nodup := by
  rw [forgetEndpoint_lookup hids] at hp
  split at hp
  · obtain ⟨p₀, hp₀, hw⟩ := Option.bind_eq_some_iff.mp hp
    obtain ⟨_, hw⟩ := Option.ite_none_left_eq_some.mp hw
    obtain rfl := Option.some_inj.mp hw
    exact (h i p₀ hp₀).erase key
  · exact h i p hp

theorem unindex_nodup {E : AList fun _ : EncodedName => List Nat}
    (h : ∀ e ids, E.lookup e = some ids → ids.Nodup) (hes : es.Nodup) (id : Nat) {e : EncodedName}
    {ids : List Nat} (hids : (unindex id es E).lookup e = some ids) : ids.Nodup := by
  rw [unindex_lookup hes] at hids
  split at hids
  · obtain ⟨ids₀, h₀, rfl⟩ := Option.map_eq_some_iff.mp hids
    exact (h e ids₀ h₀).erase id
  · exact h e ids hids

theorem Sound.awaiting {s : SessionSender} (hs : s.Sound) (m : Publish) : (s.awaiting m).Sound := by
  unfold SessionSender.awaiting
  split
  · exact { hs with
      unreliable := fun h => absurd h (by simp [‹s.reliable = true›])
      missing_nodup := fun i p h => by
        obtain ⟨-, rfl⟩ | ⟨-, h⟩ := AList.lookup_insert_iff.mp h
        · exact receivers_nodup s m
        · exact hs.missing_nodup i p h
      ids_nodup := fun e ids h => by
        rw [track_lookup (receivers_nodup s m)] at h
        split at h
        · rw [← Option.some_inj.mp h]
          refine List.Nodup.insert ?_
          cases hids : s.pendingAcksPerEndpoint.lookup e with
          | none => exact List.nodup_nil
          | some ids => exact hs.ids_nodup e ids hids
        · exact hs.ids_nodup e ids h }
  · exact hs

section
variable (q : List Publish) (s : SessionSender)

theorem awaiting_frame : ∃ P E, q.foldl awaiting s =
    { s with pendingAcks := P, pendingAcksPerEndpoint := E } := by
  induction q generalizing s with
  | nil => exact ⟨_, _, rfl⟩
  | cons m q ih =>
    obtain ⟨P, E, h⟩ := ih (s.awaiting m)
    refine ⟨P, E, h.trans ?_⟩
    unfold awaiting
    split <;> rfl

theorem awaiting_reliable : (q.foldl awaiting s).reliable = s.reliable := by
  obtain ⟨P, E, h⟩ := awaiting_frame q s
  rw [h]

theorem awaiting_endpoints : (q.foldl awaiting s).endpointsList = s.endpointsList := by
  obtain ⟨P, E, h⟩ := awaiting_frame q s
  rw [h]

theorem awaiting_receivers (m : Publish) : (q.foldl awaiting s).receivers m = s.receivers m := by
  rw [receivers, receivers, awaiting_endpoints]

theorem awaiting_drain : (q.foldl awaiting s).drainingState = s.drainingState := by
  obtain ⟨P, E, h⟩ := awaiting_frame q s
  rw [h]

end

theorem Effect.reliable {s s' : SessionSender} (h : Effect s e out s') :
    s'.reliable = s.reliable := by
  cases h with
  | send => exact awaiting_reliable [_] _
  | flush => exact awaiting_reliable _ _
  | _ => rfl

theorem Sound.missing {s : SessionSender} (hs : s.Sound) (i : Nat) :
    (((s.pendingAcks.lookup i).map GroupTimer.missingTimers).getD []).Nodup := by
  cases h : s.pendingAcks.lookup i with
  | none => exact List.nodup_nil
  | some p => exact hs.missing_nodup i p h

theorem Sound.ids {s : SessionSender} (hs : s.Sound) (e : EncodedName) :
    ((s.pendingAcksPerEndpoint.lookup e).getD []).Nodup := by
  cases h : s.pendingAcksPerEndpoint.lookup e with
  | none => exact List.nodup_nil
  | some ids => exact hs.ids_nodup e ids h

theorem Effect.sound {s s' : SessionSender} (hs : s.Sound) (h : Effect s e out s') : s'.Sound := by
  have hnone {key : EncodedName} {ids : List Nat} (hids : ids.Nodup) (hrel : s.reliable = false)
      (i : Nat) : (forgetEndpoint key ids s.pendingAcks).lookup i = none := by
    rw [forgetEndpoint_lookup hids, hs.unreliable hrel, Option.bind_none, ite_self]
  cases h with
  | quiet => exact { hs with }
  | hold notifiers acks hpub hempty hnot =>
    exact { hs with ring := hs.push hpub (published_to hpub hempty), held := fun _ => hempty }
  | @send draw m p ackTx notifiers acks nextId buffer hpub hsome hnot hnext hbuffer =>
    refine Sound.awaiting (s := { s with nextId, ackNotifiers := notifiers, buffer, acks })
      { hs with ring := ?_ } p
    obtain rfl | ⟨hto, rfl⟩ := hbuffer
    · exact hs.ring
    · exact hs.push hpub hto
  | ack notifiers acks htype hrel hsrc hnot =>
    exact { hs with
      unreliable := hnone (List.nodup_singleton _)
      missing_nodup := fun _ _ => forgetEndpoint_nodup hs.missing_nodup (List.nodup_singleton _) _
      ids_nodup := fun _ _ => unindex_nodup hs.ids_nodup (List.nodup_singleton _) _ }
  | @fail e id acks hpub hsettles hsends =>
    exact { hs with
      unreliable := fun hrel i => Option.eq_none_iff_forall_not_mem.mpr fun p hp =>
        (by simpa [hs.unreliable hrel] using (AList.lookup_erase_iff.mp hp).2)
      missing_nodup := fun i p h => hs.missing_nodup i p (AList.lookup_erase_iff.mp h).2
      ids_nodup := fun _ _ => unindex_nodup hs.ids_nodup (hs.missing id) id }
  | join enc name hheld => exact { hs with held := fun h => absurd h (by simp [hheld]) }
  | @flush p q enc name hheld hq hall =>
    refine List.foldlRecOn q awaiting ?_ fun s hs m _ => hs.awaiting m
    exact { hs with held := fun h => (by cases h) }
  | @leave name key hkey =>
    exact { hs with
      held := fun h => by simp [hs.held h]
      unreliable := hnone (hs.ids key)
      missing_nodup := fun _ _ => forgetEndpoint_nodup hs.missing_nodup (hs.ids key) key
      ids_nodup := fun e ids h => hs.ids_nodup e ids (AList.lookup_erase_iff.mp h).2 }
  | startDrain => exact { hs with }
  | close => exact { hs with
      unreliable := fun _ _ => rfl
      missing_nodup := fun _ _ h => (by cases h)
      ids_nodup := fun _ _ h => (by cases h) }

end SessionSender

end Slim
