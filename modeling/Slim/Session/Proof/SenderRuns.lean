import Slim.Session.Proof.Sender

/-!
# Acknowledgements and held back messages

`SenderHistory` is a sender with what its run was: which acknowledgements are to come, what was sent
and what was published since the last endpoint left.
-/

namespace Slim

open ProducerBuffer SessionOutput

structure SenderHistory where
  sender : SessionSender
  /-- Message `i` went out to `n`, and since then `n` neither acknowledged it nor left, and it was
  not given up. An unreliable sender asks for no acknowledgement. -/
  owed : Nat → EncodedName → Prop
  out : List Publish
  /-- Published since the list of endpoints last became empty. -/
  since : List Publish

def SenderEvent.leaves : SenderEvent → Option EncodedName
  | removeEndpoint name => name.name
  | _ => none

namespace SenderHistory

open SessionSender

variable {s : SessionSender} {m : Publish} {i : Nat} {q : List Publish} {t : SenderHistory}
  {e : SenderEvent}

def new (reliable : Bool) (sessionId : Nat) (sessionType : SessionType) : SenderHistory :=
  ⟨.new reliable sessionId sessionType, fun _ _ => False, [], []⟩

/-- The history after an event that sent `out` and left `s'`. -/
def after (t : SenderHistory) (e : SenderEvent) (out : SessionOutput) (s' : SessionSender) :
    SenderHistory where
  sender := s'
  owed i n := t.owed i n ∧ ¬ t.sender.Settles e i n ∨ t.sender.reliable ∧ e.delivers ∧
    ∃ m ∈ out.slim, m.id = i ∧ n ∈ s'.receivers m
  out := t.out ++ out.slim
  since :=
    (if t.sender.endpointsList.keys ≠ [] ∧ s'.endpointsList.keys = [] then [] else t.since) ++
    (t.sender.published e).toList

def step (t : SenderHistory) (e : SenderEvent) : SenderHistory :=
  t.after e (t.sender.handle e).1 (t.sender.handle e).2

theorem sound_new (reliable : Bool) (sessionId : Nat) (sessionType : SessionType) :
    (SessionSender.new reliable sessionId sessionType).Sound where
  ring := ⟨[], holds_withCapacity (by decide), by simp⟩
  held h := by cases h
  unreliable _ _ := rfl
  missing_nodup _ _ h := by cases h
  ids_nodup _ _ h := by cases h

/-- Whatever is published, acknowledged, asked for again or timed out and whoever comes and goes, a
sender stays sound. -/
theorem sender_sound (reliable : Bool) (sessionId : Nat) (sessionType : SessionType)
    (run : List SenderEvent) : (run.foldl step (new reliable sessionId sessionType)).sender.Sound :=
  Run.invariant (I := fun t : SenderHistory => t.sender.Sound)
    (fun _ e hs => (handle_effect hs e).sound hs) (sound_new reliable sessionId sessionType) run

theorem slim_map (q : List Publish) : slim (q.map .toSlim) = q := by
  simp [slim]

/-! ## Who is told -/

/-- The application can still be told of message `i`: an acknowledgement is waited for, or it is
held back. -/
def Told (s : SessionSender) (i : Nat) : Prop :=
  i ∈ s.pendingAcks ∨ s.toFlush = true ∧ (s.buffer.get i).isSome

/-- Who leaves is not the last to acknowledge a message the application waits for, and no such
message is written over while it is held back. -/
def NotLast (t : SenderHistory) (e : SenderEvent) : Prop :=
  (∀ key ∈ e.leaves, ∀ i ∈ t.sender.ackNotifiers.keys, ∀ p ∈ t.sender.pendingAcks.lookup i,
      p.missingTimers.erase key ≠ []) ∧
    ((t.sender.published e).isSome → t.sender.endpointsList.keys = [] →
      t.sender.buffer.ring.getD t.sender.buffer.next EMPTY_SLOT ∉
        t.sender.ackNotifiers)

theorem awaiting_told (h : i ∈ s.pendingAcks) : i ∈ (s.awaiting m).pendingAcks := by
  unfold awaiting
  split
  · exact (AList.mem_insert _).mpr (.inr h)
  · exact h

theorem flushed_told (hrel : s.reliable = true) (h : i ∈ s.pendingAcks ∨ ∃ m ∈ q, m.id = i) :
    i ∈ (q.foldl awaiting s).pendingAcks := by
  induction q generalizing s with
  | nil => simpa using h
  | cons m q ih =>
    refine ih ((awaiting_reliable [m] s).trans hrel) ?_
    obtain h | ⟨m', hm', rfl⟩ := h
    · exact .inl (awaiting_told h)
    · obtain rfl | hm' := List.mem_cons.mp hm'
      · left
        rw [awaiting, if_pos hrel]
        exact (AList.mem_insert _).mpr (.inl rfl)
      · exact .inr ⟨m', hm', rfl⟩

theorem told_step
    (h : t.sender.Sound ∧ t.sender.reliable = true ∧ ∀ i ∈ t.sender.ackNotifiers, Told t.sender i)
    (hc : NotLast t e) : (t.step e).sender.Sound ∧ (t.step e).sender.reliable = true ∧
      ∀ i ∈ (t.step e).sender.ackNotifiers, Told (t.step e).sender i := by
  obtain ⟨hs, hrel, htold⟩ := h
  have heff := handle_effect hs e
  refine ⟨heff.sound hs, ?_⟩
  change (t.sender.handle e).2.reliable = true ∧
    ∀ i ∈ (t.sender.handle e).2.ackNotifiers, Told (t.sender.handle e).2 i
  generalize (t.sender.handle e).1 = out at heff
  generalize (t.sender.handle e).2 = s' at heff ⊢
  cases heff with
  | quiet => exact ⟨hrel, htold⟩
  | hold notifiers acks hpub hempty hnot =>
    have hslot := hc.2 (Option.isSome_of_eq_some hpub) hempty
    refine ⟨hrel, fun i hi => ?_⟩
    obtain rfl | hi := hnot i hi
    · exact .inr ⟨rfl, get_push _ _ (.inl rfl)⟩
    · exact (htold i hi).imp_right fun h =>
        ⟨rfl, get_push _ _ (.inr ⟨h.2, fun heq => hslot (heq ▸ hi)⟩)⟩
  | send notifiers acks nextId buffer hpub hsome hnot =>
    rw [awaiting, if_pos hrel]
    refine ⟨hrel, fun i hi => .inl ((AList.mem_insert _).mpr ?_)⟩
    -- nothing is held back, so all the others are waited for
    exact (hnot i hi).imp_right fun hi => (htold i hi).resolve_right fun h => hsome (hs.held h.1)
  | ack notifiers acks htype _ hsrc hnot =>
    refine ⟨hrel, fun i hi => (htold i (hnot i hi).1).imp (hnot i hi).2 fun h => h⟩
  | fail acks hpub hsettles hsends =>
    refine ⟨hrel, fun i hi => ?_⟩
    rw [AList.mem_erase] at hi
    exact (htold i hi.2).imp (fun h => AList.mem_erase.mpr ⟨hi.1, h⟩) fun h => h
  | join enc name hheld =>  exact ⟨hrel, htold⟩
  | @flush p q enc name hheld hq hall =>
    let s :=
      { t.sender with endpointsList := t.sender.endpointsList.insert enc name, toFlush := false }
    have hin {i : Nat} (hi : i ∈ t.sender.ackNotifiers) : i ∈ (q.foldl awaiting s).pendingAcks := by
      refine flushed_told (s := s) hrel ((htold i hi).imp_right fun ⟨_, h⟩ => ?_)
      obtain ⟨m, hm⟩ := Option.isSome_iff_exists.mp h
      exact ⟨m, (hq.get i m).mp hm⟩
    obtain ⟨P, E, hframe⟩ := awaiting_frame q s
    change (q.foldl awaiting s).reliable = true ∧ ∀ i ∈ (q.foldl awaiting s).ackNotifiers, _
    rw [hframe] at hin ⊢
    exact ⟨hrel, fun i hi => .inl (hin hi)⟩
  | @leave name key hkey =>
    refine ⟨hrel, fun i hi => (htold i hi).imp_left fun h => ?_⟩
    obtain ⟨p, hp⟩ := Option.isSome_iff_exists.mp (AList.lookup_isSome.mpr h)
    have hmore : without key p = some _ :=
      if_neg (by simpa using hc.1 key hkey i (AList.mem_keys.mp hi) p hp)
    rw [← AList.lookup_isSome, forgetEndpoint_lookup (hs.ids key), hp, Option.bind_some, hmore]
    split <;> rfl
  | startDrain => exact ⟨hrel, htold⟩
  | close => exact ⟨hrel, fun i hi => (by cases hi)⟩

def sampleEndpoint (n : UInt64) : ProtoName :=
  { name := some ⟨1, 2, n, none⟩, strName := some ⟨"org", "ns", "app"⟩ }

def samplePeer (n : UInt64) : Participant := ⟨some (sampleEndpoint n), some ⟨true, true⟩, 0⟩

def sampleJoin (n : UInt64) : SenderEvent := .addEndpoint (samplePeer n)

def sampleMessage (t : SessionMessageType) (id : Nat) (n : UInt64) (ackTx : Option AckTx) :
    SenderEvent :=
  .message 0
    { source := sampleEndpoint n
      destination := sampleEndpoint 0
      session := ⟨SessionType.Multicast.toWire, t.toWire, 7, id⟩
      payload := none } ackTx

/-- Every message the application waits for is waited for by the sender, or held back. -/
theorem notifiers_told (sessionId : Nat) (sessionType : SessionType) (run : List SenderEvent)
    (h : Run.Meets step NotLast (new true sessionId sessionType) run) :
    ∀ i ∈ (run.foldl step (new true sessionId sessionType)).sender.ackNotifiers,
      Told (run.foldl step (new true sessionId sessionType)).sender i :=
  (Run.Meets.invariant (I := fun t => t.sender.Sound ∧ t.sender.reliable = true ∧
    ∀ i ∈ t.sender.ackNotifiers, Told t.sender i) (fun _ _ => told_step)
    ⟨sound_new _ _ _, rfl, fun i hi => (by cases hi)⟩ h).2.2

instance decidableNotLast (t : SenderHistory) (e : SenderEvent) : Decidable (NotLast t e) :=
  inferInstanceAs (Decidable (_ ∧ _))

instance decidableTold (s : SessionSender) (i : Nat) : Decidable (Told s i) :=
  inferInstanceAs (Decidable (_ ∨ _))

/-- One of two endpoints leaves before it acknowledges the message. -/
theorem notifiers_told_two :
    let run := [sampleJoin 1, sampleJoin 2, sampleMessage .Msg 0 9 (some 5),
      .removeEndpoint (sampleEndpoint 1)]
    ∀ i ∈ (run.foldl step (new true 7 .Multicast)).sender.ackNotifiers,
      Told (run.foldl step (new true 7 .Multicast)).sender i :=
  notifiers_told 7 .Multicast _ (by decide +kernel)

/-- The only endpoint leaves: nobody is waited for, nothing is held back, and the application is not
told. -/
theorem notifier_forgotten :
    let run := [sampleJoin 1, sampleMessage .Msg 0 9 (some 5), .removeEndpoint (sampleEndpoint 1)]
    ∃ i ∈ (run.foldl step (new true 7 .Multicast)).sender.ackNotifiers,
      ¬ Told (run.foldl step (new true 7 .Multicast)).sender i :=
  ⟨1, by decide +kernel, by decide +kernel⟩

/-! ## Who is waited for -/

/-- An acknowledgement of message `i` is waited for from `n`. -/
def Waits (s : SessionSender) (i : Nat) (n : EncodedName) : Prop :=
  ∃ p, s.pendingAcks.lookup i = some p ∧ n ∈ p.missingTimers

/-- Message `i` is among those noted for `n`. -/
def Noted (s : SessionSender) (i : Nat) (n : EncodedName) : Prop :=
  ∃ ids, s.pendingAcksPerEndpoint.lookup n = some ids ∧ i ∈ ids

/-- Both sides of the relation say the same, of endpoints in the session only. -/
structure Consistent (s : SessionSender) : Prop where
  noted : ∀ i n, Noted s i n ↔ Waits s i n
  missing : ∀ i p, s.pendingAcks.lookup i = some p → p.missingTimers ≠ []
  known : ∀ i n, Waits s i n → n ∈ s.endpointsList

/-- A message is sent whose receivers are in the session, to all that are waited for already. -/
theorem Consistent.awaiting (h : Consistent s) (hin : ∀ n ∈ s.receivers m, n ∈ s.endpointsList)
    (hne : s.receivers m ≠ []) (hold : ∀ n, Waits s m.id n → n ∈ s.receivers m) :
    Consistent (s.awaiting m) ∧ ∀ i n, Waits (s.awaiting m) i n ↔
      Waits s i n ∨ s.reliable = true ∧ m.id = i ∧ n ∈ s.receivers m := by
  by_cases hrel : s.reliable = true
  · rw [SessionSender.awaiting, if_pos hrel]
    generalize hs' : ({ s with pendingAcks := _, pendingAcksPerEndpoint := _ } : SessionSender) = s'
    have hwaits : ∀ i n, Waits s' i n ↔ Waits s i n ∨ m.id = i ∧ n ∈ s.receivers m := by
      intro i n
      subst hs'
      unfold Waits
      by_cases hi : i = m.id
      · subst hi
        simp only [AList.lookup_insert, Option.some_inj, exists_eq_left', true_and]
        exact ⟨.inr, fun h => h.elim (hold n) id⟩
      · simp [AList.lookup_insert_ne hi, Ne.symm hi]
    have hnoted : ∀ i n, Noted s' i n ↔ Noted s i n ∨ m.id = i ∧ n ∈ s.receivers m := by
      intro i n
      subst hs'
      unfold Noted
      simp only [track_lookup (receivers_nodup s m)]
      by_cases hn : n ∈ s.receivers m
      · cases s.pendingAcksPerEndpoint.lookup n <;> simp [hn, eq_comm, or_comm]
      · simp [hn]
    refine ⟨⟨fun i n => ?_, fun i p hp => ?_, fun i n hw => ?_⟩, ?_⟩
    · rw [hnoted, hwaits, h.noted]
    · subst hs'
      obtain ⟨-, rfl⟩ | ⟨-, hp⟩ := AList.lookup_insert_iff.mp hp
      · exact hne
      · exact h.missing i p hp
    · have : n ∈ s.endpointsList := ((hwaits i n).mp hw).elim (h.known i n) fun h => hin n h.2
      rwa [← hs']
    · simpa [hrel] using hwaits
  · rw [SessionSender.awaiting, if_neg hrel]
    exact ⟨h, by simp [hrel]⟩

theorem Consistent.settle {s' : SessionSender} (h : Consistent s) {C : Nat → EncodedName → Prop}
    (hwaits : ∀ i n, Waits s' i n ↔ Waits s i n ∧ ¬ C i n)
    (hnoted : ∀ i n, Noted s' i n ↔ Noted s i n ∧ ¬ (C i n ∧ Waits s i n))
    (hmissing : ∀ i p, s'.pendingAcks.lookup i = some p → p.missingTimers ≠ [])
    (hknown : ∀ n ∈ s.endpointsList, n ∈ s'.endpointsList ∨ ∀ i, C i n) : Consistent s' where
  noted i n := by
    rw [hnoted, hwaits, h.noted]
    exact ⟨fun ⟨hw, hc⟩ => ⟨hw, fun hC => hc ⟨hC, hw⟩⟩, fun ⟨hw, hC⟩ => ⟨hw, fun h => hC h.1⟩⟩
  missing := hmissing
  known i n hw := by
    obtain ⟨hw, hC⟩ := (hwaits i n).mp hw
    exact (hknown n (h.known i n hw)).resolve_right fun h => hC (h i)

theorem Consistent.flush (h : Consistent s) (hq : ∀ m ∈ q, m.containsMetadata PUBLISH_TO = false)
    (hne : s.endpointsList.keys ≠ []) :
    Consistent (q.foldl SessionSender.awaiting s) ∧ ∀ i n, Waits
      (q.foldl SessionSender.awaiting s) i n ↔
      Waits s i n ∨ s.reliable = true ∧ ∃ m ∈ q, m.id = i ∧ n ∈ s.receivers m := by
  induction q generalizing s with
  | nil => exact ⟨h, by simp⟩
  | cons m q ih =>
    have hto : s.receivers m = s.endpointsList.keys := if_neg (by simp [hq m List.mem_cons_self])
    obtain ⟨hm, hwaits⟩ :=
      h.awaiting (m := m) (fun n hn => AList.mem_keys.mpr (hto ▸ hn)) (hto ▸ hne)
      fun n hw => hto ▸ AList.mem_keys.mp (h.known _ n hw)
    obtain ⟨hc, hw⟩ := ih hm (fun m' hm' => hq m' (List.mem_cons_of_mem _ hm'))
      ((awaiting_endpoints [m] s).symm ▸ hne)
    refine ⟨hc, fun i n => ?_⟩
    rw [List.foldl_cons, hw, hwaits, show (s.awaiting m).reliable = _ from awaiting_reliable [m] s]
    simp only [show (s.awaiting m).receivers _ = _ from awaiting_receivers [m] s _, List.mem_cons,
      exists_eq_or_imp]
    tauto

section settle
variable {s s' : SessionSender} {key : EncodedName} {ids : List Nat}

theorem waits_forget (hs : s.Sound) (hids : ids.Nodup)
    (hP : s'.pendingAcks = forgetEndpoint key ids s.pendingAcks) (i : Nat) (n : EncodedName) :
    Waits s' i n ↔ Waits s i n ∧ ¬ (i ∈ ids ∧ n = key) := by
  unfold Waits
  rw [hP, forgetEndpoint_lookup hids]
  by_cases hi : i ∈ ids
  · cases hp : s.pendingAcks.lookup i with
    | none => simp
    | some p =>
      have hmem := (hs.missing_nodup i p hp).mem_erase_iff (a := n) (b := key)
      by_cases hlast : p.missingTimers.erase key = []
      · simpa [hi, without, hlast, and_comm] using hmem
      · simpa [hi, without, hlast, and_comm] using hmem
  · simp [hi]

theorem missing_forget (h : ∀ i p, s.pendingAcks.lookup i = some p → p.missingTimers ≠ [])
    (hids : ids.Nodup) (i : Nat) (p : GroupTimer)
    (hp : (forgetEndpoint key ids s.pendingAcks).lookup i = some p) : p.missingTimers ≠ [] := by
  rw [forgetEndpoint_lookup hids] at hp
  split at hp
  · obtain ⟨p₀, _, hw⟩ := Option.bind_eq_some_iff.mp hp
    obtain ⟨hne, hw⟩ := Option.ite_none_left_eq_some.mp hw
    obtain rfl := Option.some_inj.mp hw
    simpa using hne
  · exact h i p hp

theorem noted_unindex (hs : s.Sound) {id : Nat} {es : List EncodedName} (hes : es.Nodup)
    (hE : s'.pendingAcksPerEndpoint = unindex id es s.pendingAcksPerEndpoint) (i : Nat)
    (n : EncodedName) : Noted s' i n ↔ Noted s i n ∧ ¬ (i = id ∧ n ∈ es) := by
  unfold Noted
  rw [hE, unindex_lookup hes]
  by_cases hn : n ∈ es
  · cases hids : s.pendingAcksPerEndpoint.lookup n with
    | none => simp
    | some ids => simp [hn, (hs.ids_nodup n ids hids).mem_erase_iff, and_comm]
  · simp [hn]

end settle

/-- What is waited for is what is to come; nothing is to come once a sender has drained. -/
structure Ledger (t : SenderHistory) : Prop where
  sound : t.sender.Sound
  consistent : Consistent t.sender
  owed : ∀ i n, t.owed i n ↔ Waits t.sender i n
  completed : t.sender.drainingState = .Completed → ∀ i n, ¬ Waits t.sender i n

def addsEndpoint : SenderEvent → Bool
  | .addEndpoint _ => true
  | _ => false

/-- A new message gets an id that is not waited for, and nothing is held back when an endpoint is
added to a sender that has drained. -/
def Orderly (t : SenderHistory) (e : SenderEvent) : Prop :=
  (∀ p ∈ t.sender.published e, p.id ∉ t.sender.pendingAcks) ∧
    (addsEndpoint e = true → t.sender.drainingState = .Completed → t.sender.toFlush = false)

theorem Consistent.nobody_iff (h : Consistent s) :
    s.pendingAcks.keys.isEmpty = true ↔ ∀ i n, ¬ Waits s i n := by
  rw [List.isEmpty_iff, List.eq_nil_iff_forall_not_mem]
  refine forall_congr' fun i => ?_
  rw [← AList.mem_keys, ← AList.lookup_isSome, Option.isSome_iff_exists]
  refine ⟨fun hi n ⟨p, hp, _⟩ => hi ⟨p, hp⟩, fun hi ⟨p, hp⟩ => ?_⟩
  obtain ⟨n, hn⟩ := List.exists_mem_of_ne_nil _ (h.missing i p hp)
  exact hi n ⟨p, hp, hn⟩

/-- An event settles what it settles, and what it sends is waited for. -/
structure Accounted (s : SessionSender) (e : SenderEvent) (out : SessionOutput)
    (s' : SessionSender) : Prop where
  consistent : Consistent s'
  completed : s'.drainingState = .Completed → ∀ i n, ¬ Waits s' i n
  waits : ∀ i n, Waits s' i n ↔ Waits s i n ∧ ¬ s.Settles e i n ∨
    s.reliable = true ∧ e.delivers = true ∧ ∃ m ∈ out.slim, m.id = i ∧ n ∈ s'.receivers m

theorem Ledger.effect (h : Ledger t) {out : SessionOutput} {s' : SessionSender}
    (heff : Effect t.sender e out s') (hc : Orderly t e) : Accounted t.sender e out s' := by
  have hcons := h.consistent
  -- where nothing new is sent
  have hsilent {e : SenderEvent} {out : SessionOutput} {s' : SessionSender} (hs' : Consistent s')
      (hdrain : s'.drainingState = t.sender.drainingState ∨
        (s'.drainingState = .Completed → ∀ i n, ¬ Waits s' i n))
      (hout : out.slim = [] ∨ e.delivers = false)
      (hw : ∀ i n, Waits s' i n ↔ Waits t.sender i n ∧ ¬ t.sender.Settles e i n) :
      Accounted t.sender e out s' := by
    refine ⟨hs', fun hd i n h' => ?_, fun i n => ?_⟩
    · obtain hdrain | hdrain := hdrain
      · exact h.completed (hdrain.symm.trans hd) i n ((hw i n).mp h').1
      · exact hdrain hd i n h'
    · rw [hw]
      obtain hout | hout := hout <;> simp [hout]
  cases heff with
  | quiet acks hpub hsettles hsends =>
    refine hsilent { hcons with } (.inl rfl) ?_ fun i n => (and_iff_left_of_imp ?_).symm
    · cases hd : e.delivers with
      | false => exact .inr rfl
      | true => exact .inl (hsends (.inl hd))
    · rintro hw hset
      obtain hrel | hdrained := hsettles i n hset
      · obtain ⟨p, hp, _⟩ := hw
        simp [h.sound.unreliable hrel] at hp
      · exact h.completed hdrained i n hw
  | hold notifiers acks hpub =>
    obtain ⟨hdrain, -, hnot⟩ := (published_spec hpub).1
    exact hsilent { hcons with } (.inl rfl) (.inl rfl) fun i n => (and_iff_left (hnot i n)).symm
  | @send draw m p ackTx notifiers acks nextId buffer hpub hsome =>
    obtain ⟨⟨hdrain, hdel, hnot⟩, hin, hto, -⟩ := published_spec hpub
    have hne : t.sender.receivers p ≠ [] := by
      cases hp : p.containsMetadata PUBLISH_TO with
      | true => exact (hto hp).2
      | false => simpa [receivers, hp] using hsome
    obtain ⟨hcons', hw⟩ := Consistent.awaiting
      (s := { t.sender with nextId, ackNotifiers := notifiers, buffer, acks }) { hcons with } hin
        hne
      fun n hw => hw.elim fun q hq =>
        absurd (AList.lookup_isSome.mp (Option.isSome_of_eq_some hq.1)) (hc.1 p hpub)
    refine ⟨hcons', fun hd => ?_, fun i n => (hw i n).trans ?_⟩
    · have hd' := (awaiting_drain [p] _).symm.trans hd
      exact absurd (hdrain.symm.trans hd') (by simp)
    · rw [show (SessionSender.awaiting _ p).receivers = _ from funext (awaiting_receivers [p] _)]
      simp [hnot, hdel, slim, Waits, receivers]
  | @ack draw m ackTx out src notifiers acks htype hrel hsrc hnot =>
    have hset (i : Nat) (n : EncodedName) : t.sender.Settles (.message draw m ackTx) i n ↔
        i ∈ [m.id] ∧ n = src := by
      simp only [Settles, hsrc, Option.some_inj, List.mem_singleton, eq_comm (a := src)]
      exact and_iff_right htype
    have hdel : (SenderEvent.message draw m ackTx).delivers = false := by
      obtain h | h := htype <;> simp [SenderEvent.delivers, h]
    have hnd := List.nodup_singleton m.id
    refine hsilent (hcons.settle (waits_forget h.sound hnd rfl) (fun i n => ?_)
      (missing_forget hcons.missing hnd) fun n => .inl) (.inl rfl) (.inr hdel) fun i n => ?_
    · rw [noted_unindex h.sound (List.nodup_singleton src) rfl, hcons.noted]
      simp only [List.mem_singleton]
      tauto
    · rw [waits_forget h.sound hnd rfl, hset]
  | @fail e id acks hpub hsettles hsends =>
    have hw (i : Nat) (n : EncodedName) : Waits ({ t.sender with
        pendingAcks := t.sender.pendingAcks.erase id } : SessionSender) i n ↔
        Waits t.sender i n ∧ ¬ i = id := by
      simp only [Waits, AList.lookup_erase_iff]
      tauto
    refine hsilent (hcons.settle hw (fun i n => ?_) (fun i p hp => ?_) fun n => .inl) (.inl rfl)
      (.inr hsends) fun i n => (hw i n).trans (by rw [hsettles])
    · rw [noted_unindex h.sound (h.sound.missing id) rfl, hcons.noted]
      refine and_congr_right fun hwaits => not_congr (and_congr_right fun hi => ?_)
      obtain ⟨p, hp, hn⟩ := hwaits
      subst hi
      simp [hp, hn, Waits]
    · exact hcons.missing i p (AList.lookup_erase_iff.mp hp).2
  | join enc name hheld =>
    exact hsilent { hcons with
      known := fun i n hw => (AList.mem_insert _).mpr (.inr (hcons.known i n hw)) }
      (.inl rfl) (.inl rfl) fun i n => (and_iff_left id).symm
  | @flush p q enc name hheld hq hall =>
    obtain ⟨hcons', hw⟩ := Consistent.flush (s := { t.sender with
        endpointsList := t.sender.endpointsList.insert enc name
        toFlush := false })
      { hcons with known := fun i n hw => (AList.mem_insert _).mpr (.inr (hcons.known i n hw)) }
        hall
      (by simp [AList.keys_insert])
    refine ⟨hcons', fun hd => ?_, fun i n => (hw i n).trans ?_⟩
    · have hd' := (awaiting_drain q _).symm.trans hd
      simp [hc.2 rfl hd'] at hheld
    · simp [slim_map, awaiting_receivers, Settles, SenderEvent.delivers, Waits]
  | @leave name key hkey =>
    have hids := h.sound.ids key
    have hin {i : Nat} (hw : Waits t.sender i key) :
        i ∈ (t.sender.pendingAcksPerEndpoint.lookup key).getD [] := by
      obtain ⟨ids, hids, hi⟩ := (hcons.noted i key).mpr hw
      simpa [hids] using hi
    have hw (i : Nat) (n : EncodedName) : Waits ({ t.sender with
        pendingAcks := forgetEndpoint key ((t.sender.pendingAcksPerEndpoint.lookup key).getD [])
          t.sender.pendingAcks } : SessionSender) i n ↔ Waits t.sender i n ∧ ¬ n = key := by
      rw [waits_forget h.sound hids rfl]
      refine and_congr_right fun hw => not_congr (and_iff_right_of_imp ?_)
      rintro rfl
      exact hin hw
    refine hsilent
      (hcons.settle hw (fun i n => ?_) (missing_forget hcons.missing hids) fun n hn => ?_)
      (.inl rfl) (.inl rfl) fun i n => (hw i n).trans ?_
    · rw [← hcons.noted i n]
      by_cases hn : n = key <;> simp [Noted, AList.lookup_erase_iff, hn]
    · by_cases hn' : n = key
      · exact .inr fun _ => hn'
      · exact .inl (AList.mem_erase.mpr ⟨hn', hn⟩)
    · simp [Settles, hkey, eq_comm]
  | startDrain =>
    refine hsilent (show Consistent t.sender.startDrain from { hcons with }) (.inr fun hd => ?_)
      (.inl rfl) fun i n => (and_iff_left id).symm
    refine hcons.nobody_iff.mp ?_
    by_contra hne
    simp [SessionSender.startDrain, hne] at hd
  | close =>
    have hnone (i : Nat) (n : EncodedName) : ¬ Waits t.sender.close i n := by
      rintro ⟨_, hp, _⟩
      cases hp
    refine hsilent (show Consistent t.sender.close from ⟨fun i n => ?_, fun i p hp => (by cases hp),
      fun i n hw => absurd hw (hnone i n)⟩) (.inr fun _ => hnone) (.inl rfl) fun i n => ?_
    · refine iff_of_false ?_ (hnone i n)
      rintro ⟨_, hp, _⟩
      cases hp
    · exact iff_of_false (hnone i n) fun h => h.2 trivial

theorem Ledger.step (h : Ledger t) (hc : Orderly t e) : Ledger (t.step e) := by
  have heff := handle_effect h.sound e
  obtain ⟨hcons, hcompleted, hwaits⟩ := h.effect heff hc
  refine ⟨heff.sound h.sound, hcons, fun i n => ?_, hcompleted⟩
  rw [show Waits (t.step e).sender i n ↔ _ from hwaits i n, ← h.owed]
  exact Iff.rfl

/-- Both sides of what is waited for agree, of endpoints in the session, and a sender has drained
once nothing is to come. -/
theorem acks_consistent (reliable : Bool) (sessionId : Nat) (sessionType : SessionType)
    (run : List SenderEvent) (h : Run.Meets step Orderly (new reliable sessionId sessionType) run) :
    let t := run.foldl step (new reliable sessionId sessionType)
    (∀ i n, Noted t.sender i n ↔ Waits t.sender i n) ∧
      (∀ i p, t.sender.pendingAcks.lookup i = some p → p.missingTimers ≠ []) ∧
      (∀ i n, Waits t.sender i n → n ∈ t.sender.endpointsList) ∧
      (t.sender.drainingState ≠ .NotDraining →
        (t.sender.drainCompleted = true ↔ ∀ i n, ¬ t.owed i n)) := by
  intro t
  have hnew : Ledger (new reliable sessionId sessionType) := by
    have hnone (i n) : ¬ Waits (new reliable sessionId sessionType).sender i n :=
      fun ⟨_, hp, _⟩ => (by cases hp)
    refine ⟨sound_new _ _ _,
      ⟨fun i n => ?_, fun i p hp => (by cases hp), fun i n hw => absurd hw (hnone i n)⟩,
      fun i n => iff_of_false id (hnone i n), fun hd => (by cases hd)⟩
    exact iff_of_false (fun ⟨_, hp, _⟩ => by cases hp) (hnone i n)
  have hl : Ledger t := Run.Meets.invariant (fun _ _ hl hc => hl.step hc) hnew h
  refine ⟨hl.consistent.noted, hl.consistent.missing, hl.consistent.known, fun hd => ?_⟩
  simp only [hl.owed, ← hl.consistent.nobody_iff, drainCompleted]
  cases hstate : t.sender.drainingState with
  | NotDraining => exact absurd hstate hd
  | Initiated => simp
  | Completed => simpa using hl.consistent.nobody_iff.mpr (hl.completed hstate)

instance decidableOrderly (t : SenderHistory) (e : SenderEvent) : Decidable (Orderly t e) :=
  inferInstanceAs (Decidable (_ ∧ _))

/-- A message is acknowledged by one of two endpoints, the other one leaves, and the sender
drains. -/
theorem acks_consistent_drained :
    let run := [sampleJoin 1, sampleJoin 2, sampleMessage .Msg 0 9 none, .startDrain,
      sampleMessage .MsgAck 1 2 none, .removeEndpoint (sampleEndpoint 1)]
    let t := run.foldl step (new true 7 .Multicast)
    t.sender.drainCompleted = true ∧ ∀ i n, ¬ t.owed i n := by
  have hdrained : (([sampleJoin 1, sampleJoin 2, sampleMessage .Msg 0 9 none, .startDrain,
      sampleMessage .MsgAck 1 2 none, .removeEndpoint (sampleEndpoint 1)]).foldl step
        (new true 7 .Multicast)).sender.drainCompleted = true := by
    decide +kernel
  exact ⟨hdrained, ((acks_consistent true 7 .Multicast _ (by decide +kernel)).2.2.2
    (by decide +kernel)).mp hdrained⟩

/-- A message is held back when the sender drains, and goes out to an endpoint that is added then.
The sender has drained, and the acknowledgement is to come. -/
theorem drained_unacknowledged :
    let t :=
  [sampleMessage .Msg 0 9 none, .startDrain, sampleJoin 1].foldl step (new true 7 .Multicast)
    (t.sender.drainingState ≠ .NotDraining ∧ t.sender.drainCompleted = true) ∧
      t.owed 1 ⟨1, 2, 1, none⟩ := by
  refine ⟨by decide +kernel, .inr ⟨by decide +kernel, rfl, ?_⟩⟩
  decide +kernel

/-! ## What is flushed -/

/-- The ids have not come round, and the ring holds nothing older when the first message is held
back. -/
def HoldsNothingOlder (t : SenderHistory) (e : SenderEvent) : Prop :=
  ∀ p ∈ t.sender.published e, p.containsMetadata PUBLISH_TO = false →
    t.sender.nextId < MAX_PUBLISH_ID ∧ (t.sender.endpointsList.keys = [] →
      t.sender.toFlush = true ∨ t.sender.buffer.messages.keys = [])

/-- A sender that sent `out`, and was to publish `since` since the last endpoint left. -/
structure InOrder (s : SessionSender) (out since : List Publish) : Prop where
  sound : s.Sound
  ring : ∀ m ∈ s.buffer.iter, m.id ≤ s.nextId
  /-- While there is no endpoint, the ring is the end of what was published since. -/
  since : s.endpointsList.keys = [] →
    (since.map Publish.id).Pairwise (· < ·) ∧ (∀ m ∈ since, m.id ≤ s.nextId) ∧
      if s.toFlush then s.buffer.iter <:+ since else since = []
  sent : s.reliable = false → ∀ m ∈ out, m.id ≤ MAX_PUBLISH_ID → m.id ≤ s.nextId
  once : s.reliable = false → ((out.filter (·.id ≤ MAX_PUBLISH_ID)).map Publish.id).Nodup
  unsent : s.reliable = false → s.toFlush = true →
    ∀ m ∈ s.buffer.iter, ∀ m' ∈ out, m'.id ≠ m.id

section inOrder
variable {t : SenderHistory} {e : SenderEvent} {out : SessionOutput} {s' : SessionSender}

/-- An event that publishes nothing, and with which an unreliable sender sends nothing. -/
theorem InOrder.still (h : InOrder t.sender t.out t.since) (hs' : s'.Sound)
    (hbuffer : s'.buffer = t.sender.buffer) (hflush : s'.toFlush = t.sender.toFlush)
    (hnext : s'.nextId = t.sender.nextId) (hrel : s'.reliable = t.sender.reliable)
    (hpub : t.sender.published e = none) (hout : t.sender.reliable = false → out.slim = []) :
    InOrder s' (t.after e out s').out (t.after e out s').since where
  sound := hs'
  ring := by
    rw [hbuffer, hnext]
    exact h.ring
  since hkeys := by
    by_cases hempty : t.sender.endpointsList.keys = []
    · simpa [after, hpub, hempty, hbuffer, hflush, hnext] using h.since hempty
    · have hheld : t.sender.toFlush = false :=
        Bool.eq_false_iff.mpr fun h' => hempty (h.sound.held h')
      simp [after, hpub, hempty, hkeys, hflush, hheld]
  sent hr := by
    rw [after, hnext, hout (hrel ▸ hr), List.append_nil]
    exact h.sent (hrel ▸ hr)
  once hr := by
    rw [after, hout (hrel ▸ hr), List.append_nil]
    exact h.once (hrel ▸ hr)
  unsent hr hf := by
    rw [after, hbuffer, hout (hrel ▸ hr), List.append_nil]
    exact h.unsent (hrel ▸ hr) (hflush ▸ hf)

theorem published_id {p : Publish} (hpub : t.sender.published e = some p)
    (hto : p.containsMetadata PUBLISH_TO = false) (hc : HoldsNothingOlder t e) :
    p.id = t.sender.nextId + 1 ∧ p.id ≤ MAX_PUBLISH_ID ∧ p.id ≠ EMPTY_SLOT := by
  have hlt := (hc p hpub hto).1
  have hid : p.id = t.sender.nextId + 1 :=
    ((published_spec hpub).2.2.2 hto).trans (Nat.mod_eq_of_lt (by omega))
  have : MAX_PUBLISH_ID < EMPTY_SLOT := by decide
  omega

section
variable (h : InOrder t.sender t.out t.since)
include h

/-- What is published without endpoints is held back behind the others. -/
theorem InOrder.hold {p : Publish}
    (hpub : t.sender.published e = some p) (hempty : t.sender.endpointsList.keys = [])
    (hc : HoldsNothingOlder t e) (hs' : s'.Sound) (hbuffer : s'.buffer = t.sender.buffer.push p)
    (hflush : s'.toFlush = true) (hnext : s'.nextId = p.id)
    (hrel : s'.reliable = t.sender.reliable) : InOrder s' t.out (t.since ++ [p]) := by
  obtain ⟨q, hq, hall⟩ := h.sound.ring
  have hring := h.ring
  have hto := published_to hpub hempty
  obtain ⟨hid, hmax, hslot⟩ := published_id hpub hto hc
  obtain ⟨hlt, hle, hsuf⟩ := h.since hempty
  rw [hq.iter_eq] at hring hsuf
  have hpush := hq.push hslot fun m' hm' => by have := hring m' hm'; omega
  have hmem {m' : Publish} (hm' : m' ∈ s'.buffer.iter) : m' = p ∨ m' ∈ q := by
    rw [hbuffer, hpush.iter_eq] at hm'
    exact (List.mem_append.mp hm').symm.imp List.mem_singleton.mp List.mem_of_mem_drop
  -- older messages are in the ring only if they are held back too
  have hnew : t.sender.toFlush = true ∨ q = [] :=
    ((hc p hpub hto).2 hempty).imp_right fun hnone => List.eq_nil_iff_forall_not_mem.mpr
      fun m' hm' => by
      have hin :=
        AList.lookup_isSome.mp (Option.isSome_of_eq_some ((hq.get m'.id m').mpr ⟨hm', rfl⟩))
      simp [AList.mem_keys, hnone] at hin
  have hpre : ∀ m' ∈ t.since ++ [p], m'.id ≤ p.id := by
    intro m' hm'
    obtain hm' | hm' := List.mem_append.mp hm'
    · have := hle m' hm'
      omega
    · rw [List.mem_singleton.mp hm']
  refine ⟨hs', fun m' hm' => ?_, fun _ => ⟨?_, hnext ▸ hpre, ?_⟩, fun hr m' hm' hmax' => ?_,
    fun hr => h.once (hrel ▸ hr), fun hr _ m' hm' m'' hm'' => ?_⟩
  · rw [hnext]
    obtain rfl | hm' := hmem hm'
    · exact le_rfl
    · have := hring m' hm'
      omega
  · rw [List.map_append, List.pairwise_append]
    refine ⟨hlt, List.pairwise_singleton _ _, ?_⟩
    simp only [List.mem_map, List.map_cons, List.map_nil, List.mem_singleton]
    rintro _ ⟨m', hm', rfl⟩ _ rfl
    have := hle m' hm'
    omega
  · rw [hflush, if_pos rfl, hbuffer, hpush.iter_eq]
    obtain hf | rfl := hnew
    · rw [hf, if_pos rfl] at hsuf
      obtain ⟨pre, hpre⟩ := (List.drop_suffix _ q).trans hsuf
      exact ⟨pre, by rw [← List.append_assoc, hpre]⟩
    · exact ⟨t.since, by simp⟩
  · have := h.sent (hrel ▸ hr) m' hm' hmax'
    omega
  · obtain rfl | hm' := hmem hm'
    · intro heq
      have := h.sent (hrel ▸ hr) m'' hm'' (by omega)
      omega
    · obtain hf | rfl := hnew
      · exact h.unsent (hrel ▸ hr) hf m' (hq.iter_eq ▸ hm') m'' hm''
      · cases hm'

theorem InOrder.send (hs' : s'.Sound) (hsome : s'.endpointsList.keys ≠ [])
    (hflush : s'.toFlush = false) (hnext : t.sender.nextId ≤ s'.nextId)
    (hring : ∀ m ∈ s'.buffer.iter, m.id ≤ s'.nextId) (hrel : s'.reliable = t.sender.reliable)
    (hq : (q.map Publish.id).Nodup) (hle : ∀ m ∈ q, m.id ≤ MAX_PUBLISH_ID → m.id ≤ s'.nextId)
    (hnew : t.sender.reliable = false → ∀ m ∈ q, ∀ m' ∈ t.out, m.id ≤ MAX_PUBLISH_ID → m'.id ≠ m.id)
    (since : List Publish) : InOrder s' (t.out ++ q) since where
  sound := hs'
  ring := hring
  since h := absurd h hsome
  sent hr m hm hmax := by
    obtain hm | hm := List.mem_append.mp hm
    · exact (h.sent (hrel ▸ hr) m hm hmax).trans hnext
    · exact hle m hm hmax
  once hr := by
    rw [List.filter_append, List.map_append]
    refine (h.once (hrel ▸ hr)).append (hq.sublist (List.filter_sublist.map _)) ?_
    rintro _ hx hy
    obtain ⟨m', hm', rfl⟩ := List.mem_map.mp hx
    obtain ⟨m, hm, heq⟩ := List.mem_map.mp hy
    rw [List.mem_filter, decide_eq_true_eq] at hm hm'
    exact hnew (hrel ▸ hr) m hm.1 m' hm'.1 hm.2 heq.symm
  unsent _ hf := absurd hf (by simp [hflush])

theorem InOrder.effect (heff : Effect t.sender e out s')
    (hc : HoldsNothingOlder t e) : InOrder s' (t.after e out s').out (t.after e out s').since := by
  have hs' := heff.sound h.sound
  cases heff with
  | quiet acks hpub hsettles hsends =>
    exact h.still hs' rfl rfl rfl rfl hpub fun hr => hsends (.inr hr)
  | @hold draw m p ackTx notifiers acks hpub hempty =>
    simp only [after, hempty, hpub, slim, List.filterMap_nil, List.append_nil, ne_eq,
      not_true_eq_false, false_and, if_false, Option.toList_some]
    exact h.hold hpub hempty hc hs' rfl rfl rfl rfl
  | @send draw m p ackTx notifiers acks nextId buffer hpub hsome hnot hnext hbuffer =>
    obtain ⟨P, E, hframe⟩ :=
      awaiting_frame [p] { t.sender with nextId, ackNotifiers := notifiers, buffer, acks }
    change SessionSender.awaiting _ p = _ at hframe
    rw [hframe] at hs' ⊢
    have hheld : t.sender.toFlush = false := Bool.eq_false_iff.mpr fun h' => hsome (h.sound.held h')
    rw [after, show slim [.toSlim p] = [p] from rfl]
    obtain hto | hto := Bool.eq_false_or_eq_true (p.containsMetadata PUBLISH_TO)
    · have hmax := ((published_spec hpub).2.2.1 hto).1
      rw [hto, if_pos rfl] at hnext
      obtain rfl := hbuffer.resolve_right (by simp [hto])
      refine h.send (q := [p]) hs' hsome hheld hnext.ge (hnext ▸ h.ring) rfl (by simp) ?_ ?_ _
      · simp only [List.mem_singleton, forall_eq]
        omega
      · simp only [List.mem_singleton, forall_eq]
        omega
    · obtain ⟨hid, hmax, hslot⟩ := published_id hpub hto hc
      obtain ⟨q, hq, hall⟩ := h.sound.ring
      have hring := h.ring
      rw [hq.iter_eq] at hring
      obtain ⟨q', hq', hmem⟩ := hq.mem_of_push hslot
      rw [hto, if_neg Bool.false_ne_true] at hnext
      have hmem' {m' : Publish} (hm' : m' ∈ buffer.iter) : m' ∈ q ∨ m' = p := by
        obtain rfl | ⟨-, rfl⟩ := hbuffer
        · exact .inl (hq.iter_eq ▸ hm')
        · exact hmem m' (hq'.iter_eq ▸ hm')
      refine h.send (q := [p]) hs' hsome hheld (by simp only; omega) (fun m' hm' => ?_) rfl
        (by simp) (by simp [hnext]) ?_ _
      · obtain hm' | rfl := hmem' hm'
        · have := hring m' hm'
          simp only
          omega
        · exact hnext.ge
      · simp only [List.mem_singleton, forall_eq]
        intro hr m' hm' _ heq
        have := h.sent hr m' hm' (by omega)
        omega
  | @ack draw m ackTx out src notifiers acks htype hrel hsrc hnot =>
    refine h.still hs' rfl rfl rfl rfl ?_ fun hr => absurd hrel (by simp [hr])
    obtain h | h := htype <;> simp [published, h]
  | fail acks hpub hsettles hsends => exact h.still hs' rfl rfl rfl rfl hpub fun _ => rfl
  | join enc name hheld => exact h.still hs' rfl rfl rfl rfl rfl fun _ => rfl
  | @flush p q enc name hheld hq hall =>
    obtain ⟨P, E, hframe⟩ := awaiting_frame q
      { t.sender with endpointsList := t.sender.endpointsList.insert enc name, toFlush := false }
    rw [hframe] at hs' ⊢
    rw [after, slim_map]
    have hring := h.ring
    refine h.send hs' (by simp) rfl le_rfl hring rfl hq.nodup (fun m hm _ => ?_)
      (fun hr m hm m' hm' _ => ?_) _
    · exact hring m (hq.iter_eq ▸ hm)
    · exact h.unsent hr hheld m (hq.iter_eq ▸ hm) m' hm'
  | @leave name key hkey => exact h.still hs' rfl rfl rfl rfl rfl fun _ => rfl
  | startDrain => exact h.still hs' rfl rfl rfl rfl rfl fun _ => rfl
  | close => exact h.still hs' rfl rfl rfl rfl rfl fun _ => rfl

end

end inOrder

/-- An unreliable sender sends no id twice, and when the first endpoint comes all that was published
since the last one left and is still in the ring is sent, in order. -/
theorem flush_exact (reliable : Bool) (sessionId : Nat) (sessionType : SessionType)
    (run : List SenderEvent)
    (h : Run.Meets step HoldsNothingOlder (new reliable sessionId sessionType) run) :
    let t := run.foldl step (new reliable sessionId sessionType)
    (reliable = false → ((t.out.filter (·.id ≤ MAX_PUBLISH_ID)).map Publish.id).Nodup) ∧
      ∀ p, (t.sender.handle (.addEndpoint p)).1.slim =
        if t.sender.endpointsList.keys = [] ∧
            (t.sender.handle (.addEndpoint p)).2.endpointsList.keys ≠ [] then
          t.since.filter fun m => t.sender.buffer.get m.id = some m
        else [] := by
  intro t
  have hnew : InOrder (new reliable sessionId sessionType).sender [] [] := by
    have hiter : (new reliable sessionId sessionType).sender.buffer.iter = [] :=
      (holds_withCapacity (by decide)).iter_eq
    refine ⟨sound_new _ _ _, ?_,
      fun _ => ⟨List.Pairwise.nil, by simp, rfl⟩, by simp, by simp, by simp⟩
    simp [hiter]
  have hi : InOrder t.sender t.out t.since ∧ t.sender.reliable = reliable :=
    Run.Meets.invariant
      (I := fun t => InOrder t.sender t.out t.since ∧ t.sender.reliable = reliable)
      (fun t e hi hc => ⟨hi.1.effect (handle_effect hi.1.sound e) hc,
        (handle_effect hi.1.sound e).reliable.trans hi.2⟩) ⟨hnew, rfl⟩ h
  refine ⟨fun hr => hi.1.once (hi.2.trans hr), fun p => ?_⟩
  have hi := hi.1
  have heff := handle_effect hi.sound (.addEndpoint p)
  generalize (t.sender.handle (.addEndpoint p)).1 = out at heff ⊢
  generalize (t.sender.handle (.addEndpoint p)).2 = s' at heff ⊢
  cases heff with
  | quiet acks hpub hsettles hsends =>
    rw [hsends (.inl rfl), if_neg fun h => h.2 h.1]
  | fail acks hpub hsettles hsends => cases hsends
  | join enc name hheld =>
    split
    · rename_i hkeys
      have hnone := (hi.since hkeys.1).2.2
      rw [hheld, if_neg Bool.false_ne_true] at hnone
      rw [hnone]
      rfl
    · rfl
  | @flush p q enc name hheld hq hall =>
    obtain ⟨P, E, hframe⟩ := awaiting_frame q
      { t.sender with endpointsList := t.sender.endpointsList.insert enc name, toFlush := false }
    have hempty := hi.sound.held hheld
    obtain ⟨hlt, -, hsuf⟩ := hi.since hempty
    rw [hheld, if_pos rfl, hq.iter_eq] at hsuf
    rw [slim_map, hframe, if_pos ⟨hempty, by simp⟩]
    -- what is not in the ring any more has another id than what is
    obtain ⟨pre, hpre⟩ := hsuf
    have hin (m : Publish) : t.sender.buffer.get m.id = some m ↔ m ∈ q :=
      (hq.get m.id m).trans (and_iff_left rfl)
    rw [← hpre, List.filter_append, List.filter_eq_nil_iff.mpr, List.nil_append,
      List.filter_eq_self.mpr]
    · exact fun m hm => decide_eq_true ((hin m).mpr hm)
    · intro m hm hget
      rw [← hpre, List.map_append, List.pairwise_append] at hlt
      exact absurd (hlt.2.2 m.id (List.mem_map_of_mem hm) m.id
        (List.mem_map_of_mem ((hin m).mp (of_decide_eq_true hget)))) (lt_irrefl _)

instance decidableHoldsNothingOlder (t : SenderHistory) (e : SenderEvent) :
    Decidable (HoldsNothingOlder t e) :=
  inferInstanceAs (Decidable (∀ p ∈ t.sender.published e, _))

/-- Two messages are held back, and sent when an endpoint comes. -/
theorem flush_exact_two :
    let t := [sampleMessage .Msg 0 9 none, sampleMessage .Msg 0 9 none].foldl step
      (new false 7 .Multicast)
    (t.sender.handle (.addEndpoint (samplePeer 1))).1.slim = if t.sender.endpointsList.keys = [] ∧
        (t.sender.handle (.addEndpoint (samplePeer 1))).2.endpointsList.keys ≠ [] then
      t.since.filter fun m => t.sender.buffer.get m.id = some m else [] :=
  (flush_exact false 7 .Multicast [sampleMessage .Msg 0 9 none, sampleMessage .Msg 0 9 none]
    (by decide +kernel)).2 (samplePeer 1)

/-- The endpoint leaves and comes back, with a message published in between: the first message,
which it has, is sent again. -/
theorem flushed_twice :
    let run := [sampleMessage .Msg 0 9 none, sampleJoin 1, .removeEndpoint (sampleEndpoint 1),
      sampleMessage .Msg 0 9 none]
    let t := run.foldl step (new false 7 .Multicast)
    ¬ (((t.step (sampleJoin 1)).out.filter (·.id ≤ MAX_PUBLISH_ID)).map Publish.id).Nodup ∧
      (t.sender.handle (sampleJoin 1)).1.slim ≠
        t.since.filter fun m => t.sender.buffer.get m.id = some m := by
  decide +kernel

end SenderHistory

end Slim
