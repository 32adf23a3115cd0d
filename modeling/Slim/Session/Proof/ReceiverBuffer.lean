import Slim.Lib.Run
import Slim.Lib.SeqNum
import Slim.Session.ReceiverBuffer

/-!
# Ordered delivery of one stream

The calls of a run carry unwrapped sequence numbers, of which the buffer only sees the ids.
`Core first lo h D rb` relates a buffer to the calls `h` made so far and to what was delivered, `D`:
the delivered positions are justified by `h`, and the entries of the buffer are, from the position
after the last delivered one on, exactly the first messages received for their numbers. Each
position released keeps it (`Core.advance`), and so does each call (`Core.received`, `Core.lost`).

A lost id counts for the position it was declared for and not for one a cycle later because the
numbers of a run span less than a cycle (`Core.lost_next`).
-/

namespace Slim

open SeqNum

variable {h : List StreamCall} {n : ℤ} {d : Option Message}

namespace ReceiverBuffer

/-! ## Ids of sequence numbers -/

def idOf (n : ℤ) : ℕ := wrap (MAX_ID + 1) n

/-- How far from the last delivered number a call may be. -/
def WINDOW : ℕ := MAX_PUBLISH_ID / 2

theorem MAX_ID_eq : MAX_ID = 2147483647 := rfl

theorem WINDOW_eq : WINDOW = 1073741823 := rfl

theorem idOf_lt (n : ℤ) : idOf n < MAX_ID + 1 := wrap_lt (by omega) n

theorem idOf_ne_max (n : ℤ) : idOf n ≠ USIZE_MAX := by
  have h := idOf_lt n
  rw [MAX_ID_eq] at h
  have hm : USIZE_MAX = 18446744073709551615 := rfl
  omega

theorem checkedAdd_of_le {a b : ℕ} (h : a + b ≤ USIZE_MAX) : checkedAdd a b = some (a + b) :=
  if_pos h

theorem addWithWraparound_idOf (n : ℤ) {k : ℕ} (hk : k ≤ 2 ^ 32) :
    addWithWraparound (idOf n) k = some (idOf (n + k)) := by
  have hlt := idOf_lt n
  rw [MAX_ID_eq] at hlt
  have hsum : idOf n + k ≤ USIZE_MAX := by
    have hm : USIZE_MAX = 18446744073709551615 := rfl
    omega
  simp only [addWithWraparound, checkedAdd_of_le hsum, Option.bind_eq_bind, Option.bind_some,
    Option.some.injEq]
  exact wrap_add (by omega) n k

theorem next_idOf (n : ℤ) : addWithWraparound (idOf n) 1 = some (idOf (n + 1)) := by
  simpa using addWithWraparound_idOf n (k := 1) (by decide)

theorem idDistance_idOf (a b : ℤ) : idDistance (idOf a) (idOf b) = some (idOf (b - a)) := by
  have ha := idOf_lt a
  have hb := idOf_lt b
  rw [← show dist (MAX_ID + 1) (idOf a) (idOf b) = idOf (b - a) from
    dist_wrap (by omega) a b]
  unfold idDistance SeqNum.dist
  split
  · rfl
  · have hsum : MAX_ID + 1 - idOf a + idOf b ≤ USIZE_MAX := by
      rw [MAX_ID_eq] at ha hb ⊢
      have hm : USIZE_MAX = 18446744073709551615 := rfl
      omega
    simp [checkedSub, ha.le, checkedAdd_of_le hsum]

theorem idOf_of_lt (h0 : 0 ≤ n) (h : n ≤ MAX_ID) : idOf n = n.toNat :=
  wrap_of_lt h0 (by omega)

theorem idOf_of_neg (h0 : n < 0) (h : -(MAX_ID + 1) ≤ n) : idOf n = (n + (MAX_ID + 1)).toNat := by
  have h' := wrap_of_neg (M := MAX_ID + 1) h0 (by push_cast; omega)
  rw [idOf, h']
  rfl

/-- Within half of the id space, ids are ordered as their numbers are. -/
theorem isAfter_idOf {a b : ℤ} (h1 : -2 ^ 30 < a - b) (h2 : a - b ≤ 2 ^ 30) :
    isAfter (idOf a) (idOf b) = some (decide (b < a)) := by
  have hm := MAX_ID_eq
  have hd : (idOf (a - b) : ℤ) = if a - b < 0 then a - b + (MAX_ID + 1) else a - b := by
    split
    · rename_i hn
      rw [idOf_of_neg hn (by omega)]
      omega
    · rw [idOf_of_lt (by omega) (by omega)]
      omega
  simp only [isAfter, idDistance_idOf, Option.bind_eq_bind, Option.bind_some, Option.some.injEq]
  rw [Bool.eq_iff_iff, Bool.and_eq_true, decide_eq_true_eq, decide_eq_true_eq, decide_eq_true_eq]
  split at hd <;> omega

theorem rtxFrom_idOf (n : ℤ) (k : ℕ) : ∃ ids, rtxFrom (idOf n) k = some ids := by
  induction k generalizing n with
  | zero => exact ⟨[], rfl⟩
  | succ k ih =>
    obtain ⟨ids, hids⟩ := ih (n + 1)
    exact ⟨idOf n % 2 ^ 32 :: ids, by simp [rtxFrom, next_idOf, hids]⟩

theorem idOf_sub {L : ℤ} (h1 : L ≤ n) (h2 : n ≤ L + 2 ^ 30) : idOf (n - L) = (n - L).toNat := by
  have hm := MAX_ID_eq
  exact idOf_of_lt (by omega) (by omega)

/-- **A received message** with a number `n` near the last delivered one, `L`: it is next, it comes
too late, the buffer grows up to it, or it is in the range of the buffer. -/
theorem received_cases {rb : ReceiverBuffer} {m : Message} {L : ℤ} (hlast : rb.lastSent = idOf L)
    (hb : rb.firstEntry ≤ rb.buffer.length) (hwidth : rb.buffer.length ≤ rb.firstEntry + 2 ^ 30)
    (hfits : rb.buffer.length ≤ USIZE_MAX) (hid : m.getId = some (idOf n)) (h1 : -2 ^ 30 < n - L)
    (h2 : n - L ≤ 2 ^ 30) :
    (n = L + 1 ∧ rb.buffer = [] ∧
      rb.onReceivedMessage m = some ([some m], [], { rb with lastSent := idOf n })) ∨
    (n ≤ L ∧ rb.onReceivedMessage m = some ([], [], rb)) ∨
    (∃ gap rtx, n = L + 1 + ((rb.buffer.length - rb.firstEntry : ℕ) + gap : ℕ) ∧
      rb.onReceivedMessage m = some ([], rtx,
        { rb with buffer := rb.buffer ++ (List.replicate gap none ++ [some m]) })) ∨
    ∃ j : ℕ, n = L + 1 + j ∧
      ((∃ m', rb.buffer[rb.firstEntry + j]? = some (some m') ∧
          rb.onReceivedMessage m = some ([], [], rb)) ∨
        rb.buffer[rb.firstEntry + j]? = some none ∧ rb.onReceivedMessage m =
          (releaseMsgs { rb with buffer := rb.buffer.set (rb.firstEntry + j) (some m) }).bind
            fun x => some (x.1, [], x.2)) := by
  have hm := MAX_ID_eq
  have hstart : rb.lastSent ≠ USIZE_MAX := by
    rw [hlast]
    exact idOf_ne_max _
  simp only [onReceivedMessage, hid, internalOnReceivedMessage, hstart, ↓reduceIte, false_or,
    Option.bind_eq_bind, Option.bind_some]
  rw [hlast, next_idOf, isAfter_idOf h1 h2]
  simp only [Option.bind_some, List.isEmpty_iff]
  by_cases hfast : idOf n = idOf (L + 1) ∧ rb.buffer = []
  · exact .inl ⟨eq_of_wrap_eq (M := MAX_ID + 1) (by omega) hfast.1 (by omega) (by omega), hfast.2,
      if_pos hfast⟩
  rw [if_neg hfast]
  by_cases hlt : L < n
  · refine .inr (.inr ?_)
    simp only [hlt, decide_true, Bool.not_true, Bool.false_eq_true, ↓reduceIte]
    generalize hk : rb.buffer.length - rb.firstEntry = k
    by_cases hnil : rb.buffer = []
    · have hlen : rb.buffer.length = 0 := by rw [hnil]; rfl
      obtain ⟨rtx, hrtx⟩ := rtxFrom_idOf (L + 1) (n - (L + 1)).toNat
      refine .inl ⟨(n - (L + 1)).toNat, rtx, by omega, ?_⟩
      have hfirst : rb.firstEntry = 0 := by omega
      simp [openBuffer, hlast, next_idOf, idDistance_idOf, idOf_sub (L := L + 1) (n := n) (by omega)
        (by omega), hrtx, hfirst, hnil]
    rw [if_neg hnil, checkedSub, if_pos hb, hk, Option.bind_some,
      addWithWraparound_idOf _ (by omega),
      Option.bind_some, isAfter_idOf (a := n) (by omega) (by omega), Option.bind_some]
    by_cases hend : L + k < n
    · obtain ⟨rtx, hrtx⟩ := rtxFrom_idOf (L + k + 1) (n - (L + k + 1)).toNat
      refine .inl ⟨(n - (L + k + 1)).toNat, rtx, by omega, ?_⟩
      simp [hend, extendBuffer, hlast, next_idOf, idDistance_idOf,
        idOf_sub (L := L + k + 1) (n := n) (by omega) (by omega), hrtx]
    · refine .inr ⟨(n - (L + 1)).toNat, by omega, ?_⟩
      have hpos : (n - (L + 1)).toNat + rb.firstEntry = rb.firstEntry + (n - (L + 1)).toNat := by
        omega
      have hin : rb.firstEntry + (n - (L + 1)).toNat < rb.buffer.length := by omega
      simp only [hend, decide_false, Bool.not_false, ↓reduceIte, fillEntry, hlast, next_idOf,
        idDistance_idOf, idOf_sub (L := L + 1) (n := n) (by omega) (by omega), hpos,
        checkedAdd_of_le (hpos.trans_le (hin.le.trans hfits)), Option.bind_eq_bind,
          Option.bind_some]
      rcases hent : rb.buffer[rb.firstEntry + (n - (L + 1)).toNat]? with _ | _ | m'
      · rw [List.getElem?_eq_none_iff] at hent
        omega
      · exact .inr ⟨rfl, rfl⟩
      · exact .inl ⟨m', rfl, rfl⟩
  · exact .inr (.inl ⟨by omega, by simp [hlt]⟩)

end ReceiverBuffer

/-! ## Calls with their sequence numbers -/

/-- A call on the buffer of a stream, with the number it is about. -/
inductive StreamCall
  | received (n : ℤ) (m : Message)
  | lost (n : ℤ)
  deriving DecidableEq

namespace StreamCall

def number : StreamCall → ℤ
  | received n _ => n
  | lost n => n

/-- The message received with the number `n`, if this is one. -/
def messageFor (n : ℤ) : StreamCall → Option Message
  | received k m => if k = n then some m else none
  | lost _ => none

end StreamCall

/-- The first message received with the number `n`. -/
def firstReceived (h : List StreamCall) (n : ℤ) : Option Message :=
  h.findSome? (StreamCall.messageFor n)

/-- A delivered entry stands for the number `n`: the first message received with it, or a loss
declared for it. -/
def Justified (h : List StreamCall) (n : ℤ) : Option Message → Prop
  | some m => firstReceived h n = some m
  | none => .lost n ∈ h

theorem firstReceived_append (h h' : List StreamCall) (n : ℤ) :
    firstReceived (h ++ h') n = (firstReceived h n).or (firstReceived h' n) :=
  List.findSome?_append

theorem firstReceived_received (k n : ℤ) (m : Message) :
    firstReceived [.received k m] n = if k = n then some m else none := by
  simp only [firstReceived, List.findSome?_cons, StreamCall.messageFor]
  split <;> simp_all

theorem firstReceived_lost (k n : ℤ) : firstReceived [.lost k] n = none := rfl

theorem Justified.append (hj : Justified h n d) (c : StreamCall) : Justified (h ++ [c]) n d := by
  cases d with
  | none => exact List.mem_append_left [c] hj
  | some m =>
    show firstReceived (h ++ [c]) n = some m
    rw [firstReceived_append, show firstReceived h n = some m from hj, Option.some_or]

theorem Justified.called (hj : Justified h n d) : ∃ c ∈ h, c.number = n := by
  cases d with
  | none => exact ⟨_, hj, rfl⟩
  | some m =>
    obtain ⟨c, hc, hm⟩ := List.exists_of_findSome?_eq_some hj
    refine ⟨c, hc, ?_⟩
    cases c with
    | lost k => cases hm
    | received k m' =>
      simp only [StreamCall.messageFor] at hm
      split at hm
      · assumption
      · cases hm

namespace ReceiverBuffer

/-! ## The invariant -/

/-- The number of the last delivered position. -/
def lastNumber (first : ℤ) (D : List (Option Message)) : ℤ := first - 1 + D.length

/-- A buffer after the calls `h` and the deliveries `D`, in a stream that starts at `first`. -/
structure Core (first lo : ℤ) (h : List StreamCall) (D : List (Option Message))
    (rb : ReceiverBuffer) : Prop where
  last : rb.lastSent = idOf (lastNumber first D)
  justified : ∀ (k : ℕ) d, D[k]? = some d → Justified h (first + k) d
  pending : ∀ j : ℕ,
    rb.buffer[rb.firstEntry + j]?.join = firstReceived h (lastNumber first D + 1 + j)
  bound : rb.firstEntry ≤ rb.buffer.length
  entry : rb.firstEntry ≤ D.length
  width : rb.buffer.length ≤ rb.firstEntry + WINDOW
  lost : ∀ id ∈ rb.lostMsgs, ∃ n, .lost n ∈ h ∧ idOf n = id
  span : ∀ c ∈ h, lo ≤ c.number ∧ c.number < lo + MAX_PUBLISH_ID
  near : ∀ c ∈ h, first - 1 - WINDOW ≤ c.number ∧ c.number ≤ lastNumber first D + WINDOW

theorem lastNumber_concat (first : ℤ) (D : List (Option Message)) (d : Option Message) :
    lastNumber first (D ++ [d]) = lastNumber first D + 1 := by
  simp only [lastNumber, List.length_append, List.length_singleton]
  omega

section
variable {first lo : ℤ} {h : List StreamCall} {D : List (Option Message)} {rb rb' : ReceiverBuffer}
  {ret : List (Option Message)}

/-- The next id is in the lost set only if the next number was declared lost. -/
theorem Core.lost_next (hc : Core first lo h D rb)
    (hid : idOf (lastNumber first D + 1) ∈ rb.lostMsgs) : .lost (lastNumber first D + 1) ∈ h := by
  have hm := MAX_ID_eq
  have hw := WINDOW_eq
  obtain ⟨n, hn, hni⟩ := hc.lost _ hid
  have hnear := hc.near _ hn
  have hspan := hc.span _ hn
  simp only [StreamCall.number] at hnear hspan
  -- the last number was called, or nothing has been delivered yet
  have hback : lastNumber first D + 1 - n < (MAX_ID + 1 : ℕ) := by
    cases hD : D.getLast? with
    | none =>
      rw [List.getLast?_eq_none_iff] at hD
      subst hD
      simp only [lastNumber, List.length_nil] at hnear ⊢
      omega
    | some d =>
      rw [List.getLast?_eq_getElem?] at hD
      obtain ⟨c, hch, hcn⟩ := (hc.justified _ d hD).called
      have hlast := hc.span c hch
      have hmp : MAX_PUBLISH_ID = MAX_ID := rfl
      simp only [lastNumber] at hnear ⊢
      omega
  have heq := eq_of_wrap_eq (by omega) hni (by omega) hback
  exact heq ▸ hn

theorem Core.advance (hc : Core first lo h D rb) (hj : Justified h (lastNumber first D + 1) d)
    (hlast : rb'.lastSent = idOf (lastNumber first D + 1))
    (hpend : ∀ j, rb'.buffer[rb'.firstEntry + j]?.join = rb.buffer[rb.firstEntry + (j + 1)]?.join)
    (hbound : rb'.firstEntry ≤ rb'.buffer.length) (hentry : rb'.firstEntry ≤ rb.firstEntry + 1)
    (hwidth : rb'.buffer.length ≤ rb'.firstEntry + WINDOW) (hlost : rb'.lostMsgs ⊆ rb.lostMsgs) :
    Core first lo h (D ++ [d]) rb' where
  last := by rw [lastNumber_concat, hlast]
  justified := fun k d' hk => by
    rw [List.getElem?_append] at hk
    split at hk
    · exact hc.justified k d' hk
    · have hk0 : k - D.length = 0 := by
        by_contra hne
        rw [List.getElem?_eq_none (by simp only [List.length_singleton]; omega)] at hk
        cases hk
      rw [hk0, List.getElem?_cons_zero, Option.some.injEq] at hk
      have hnum : first + k = lastNumber first D + 1 := by
        simp only [lastNumber]
        omega
      rw [hnum, ← hk]
      exact hj
  pending := fun j => by
    rw [hpend, hc.pending, lastNumber_concat]
    congr 1
    omega
  bound := hbound
  entry := by
    have he := hc.entry
    simp only [List.length_append, List.length_singleton]
    omega
  width := hwidth
  lost := fun id hid => hc.lost id (hlost hid)
  span := hc.span
  near := fun c hch => by
    have hn := hc.near c hch
    rw [lastNumber_concat]
    omega

/-! ## Release -/

/-- What the loops leave: the next position waits for a message or for its loss. -/
def Waits (first : ℤ) (D : List (Option Message)) (rb : ReceiverBuffer) : Prop :=
  idOf (lastNumber first D + 1) ∉ rb.lostMsgs

theorem releaseBuffered_spec (fuel : ℕ) {i : ℕ} (hi : i = rb.firstEntry)
    (hf : rb.buffer.length ≤ i + fuel) (hc : Core first lo h (D ++ ret) rb) :
    ∃ ret' rb', releaseBuffered fuel i ret rb = some (ret', rb') ∧
      Core first lo h (D ++ ret') rb' ∧
      (rb'.firstEntry = rb'.buffer.length ∨ Waits first (D ++ ret') rb') := by
  induction fuel generalizing i ret rb with
  | zero =>
    have hb := hc.bound
    exact ⟨ret, rb, rfl, hc, .inl (by omega)⟩
  | succ fuel ih =>
    have hp := hc.pending 0
    rw [Nat.add_zero, Nat.cast_zero, add_zero] at hp
    subst hi
    have hb := hc.bound
    have hw := hc.width
    unfold releaseBuffered
    rw [hc.last]
    cases hbi : rb.buffer[rb.firstEntry]? with
    | none =>
      rw [List.getElem?_eq_none_iff] at hbi
      exact ⟨ret, rb, rfl, hc, .inl (by omega)⟩
    | some entry =>
      have hlt : rb.firstEntry < rb.buffer.length := (List.getElem?_eq_some_iff.mp hbi).1
      rw [hbi] at hp
      cases entry with
      | some m =>
        simp only [next_idOf]
        refine ih rfl ?_ ?_
        · rw [List.length_set]
          omega
        · rw [← List.append_assoc]
          refine hc.advance hp.symm rfl (fun j => ?_) ?_ (Nat.le_refl _) ?_ (Finset.Subset.refl _)
          · show (rb.buffer.set rb.firstEntry none)[rb.firstEntry + 1 + j]?.join = _
            rw [List.getElem?_set_ne (by omega), Nat.add_assoc, Nat.add_comm 1 j]
          · simp only [List.length_set]
            omega
          · simp only [List.length_set]
            omega
      | none =>
        simp only [next_idOf, Option.bind_eq_bind, Option.bind_some]
        split
        · rename_i hl
          refine ih rfl (show rb.buffer.length ≤ rb.firstEntry + 1 + fuel by omega) ?_
          rw [← List.append_assoc]
          refine hc.advance (hc.lost_next hl) rfl (fun j => ?_) hlt (Nat.le_refl _)
            (show rb.buffer.length ≤ rb.firstEntry + 1 + WINDOW by omega) (Finset.erase_subset _ _)
          rw [Nat.add_assoc, Nat.add_comm 1 j]
        · rename_i hl
          exact ⟨ret, rb, rfl, hc, .inr hl⟩

theorem releaseLost_spec (fuel : ℕ) (hb : rb.buffer = []) (hf : rb.lostMsgs.card < fuel)
    (hc : Core first lo h (D ++ ret) rb) :
    ∃ ret' rb', releaseLost fuel ret rb = some (ret', rb') ∧
      Core first lo h (D ++ ret') rb' ∧ rb'.buffer = [] ∧ Waits first (D ++ ret') rb' := by
  induction fuel generalizing ret rb with
  | zero => omega
  | succ fuel ih =>
    unfold releaseLost
    rw [hc.last]
    simp only [next_idOf, Option.bind_eq_bind, Option.bind_some]
    split
    · rename_i hl
      have hcard := Finset.card_erase_of_mem hl
      have hpos := Finset.card_pos.mpr ⟨_, hl⟩
      refine ih hb (by show (rb.lostMsgs.erase _).card < fuel; omega) ?_
      rw [← List.append_assoc]
      exact hc.advance (hc.lost_next hl) rfl (fun j => by simp [hb]) hc.bound (Nat.le_succ _)
        hc.width (Finset.erase_subset _ _)
    · rename_i hl
      exact ⟨ret, rb, rfl, hc, hb, hl⟩

theorem Core.resetIfDrained (hc : Core first lo h D rb) : Core first lo h D rb.resetIfDrained := by
  unfold ReceiverBuffer.resetIfDrained
  split
  · rename_i hd
    refine ⟨hc.last, hc.justified, fun j => ?_, Nat.le_refl 0, Nat.zero_le _, Nat.zero_le _,
      hc.lost, hc.span, hc.near⟩
    rw [← hc.pending j, hd, List.getElem?_eq_none (Nat.le_add_right _ j)]
    rfl
  · exact hc

/-- A buffer without entries is reset. -/
def Compact (rb : ReceiverBuffer) : Prop := rb.firstEntry = rb.buffer.length → rb.buffer = []

/-- **Release**: positions are delivered as long as the next one is there or lost. -/
theorem releaseMsgs_spec (hc : Core first lo h D rb) :
    ∃ ret rb', releaseMsgs rb = some (ret, rb') ∧ Core first lo h (D ++ ret) rb' ∧
      Compact rb' ∧ Waits first (D ++ ret) rb' := by
  have hc₀ : Core first lo h (D ++ []) rb := by rwa [List.append_nil]
  obtain ⟨ret, rb₁, hrel, hc₁, hend⟩ :=
    releaseBuffered_spec rb.buffer.length rfl (Nat.le_add_left _ _) hc₀
  have hc₂ := hc₁.resetIfDrained
  simp only [releaseMsgs, hrel, Option.bind_eq_bind, Option.bind_some]
  by_cases hd : rb₁.firstEntry = rb₁.buffer.length
  · have hnil : rb₁.resetIfDrained.buffer = [] := by simp [resetIfDrained, hd]
    obtain ⟨ret', rb', hrel', hc', hb', hw'⟩ := releaseLost_spec
      (rb₁.resetIfDrained.lostMsgs.card + 1) hnil (Nat.lt_succ_self _) hc₂
    exact ⟨ret', rb', hrel', hc', fun _ => hb', hw'⟩
  · have hsame : rb₁.resetIfDrained = rb₁ := by simp [resetIfDrained, hd]
    have hw := hend.resolve_left hd
    refine ⟨ret, rb₁, ?_, hc₁, fun h => absurd h hd, hw⟩
    unfold releaseLost
    rw [hsame, hc₁.last]
    simp only [next_idOf]
    exact if_neg hw

/-! ## Reception -/

/-- A number a call may have: in the span of the run, and near the last delivered one. -/
structure InWindow (first lo : ℤ) (D : List (Option Message)) (n : ℤ) : Prop where
  span : lo ≤ n ∧ n < lo + MAX_PUBLISH_ID
  near : lastNumber first D - WINDOW ≤ n ∧ n ≤ lastNumber first D + WINDOW

variable {n : ℤ} {m : Message}

section
variable (hc : Core first lo h D rb) (hw : InWindow first lo D n)
include hc hw

theorem Core.span_near {c : StreamCall}
    (hn : c.number = n) : ∀ c' ∈ h ++ [c], (lo ≤ c'.number ∧ c'.number < lo + MAX_PUBLISH_ID) ∧
      first - 1 - WINDOW ≤ c'.number ∧ c'.number ≤ lastNumber first D + WINDOW := by
  intro c' hc'
  rcases List.mem_append.mp hc' with hc' | hc'
  · exact ⟨hc.span c' hc', hc.near c' hc'⟩
  · rw [List.mem_singleton.mp hc', hn]
    refine ⟨hw.span, ?_, hw.near.2⟩
    have hl := hw.near.1
    have hge : first - 1 ≤ lastNumber first D := by simp only [lastNumber]; omega
    omega

/-- A message is received: `rb'` has it as the entry of its number, unless there is one. -/
theorem Core.store
    (hlast : rb'.lastSent = rb.lastSent) (hlost : rb'.lostMsgs = rb.lostMsgs)
    (hentry : rb'.firstEntry = rb.firstEntry)
    (hpend : ∀ j : ℕ, rb'.buffer[rb'.firstEntry + j]?.join =
      rb.buffer[rb.firstEntry + j]?.join.or
        (if n = lastNumber first D + 1 + j then some m else none))
    (hbound : rb'.firstEntry ≤ rb'.buffer.length)
    (hwidth : rb'.buffer.length ≤ rb'.firstEntry + WINDOW) :
    Core first lo (h ++ [.received n m]) D rb' where
  last := hlast.trans hc.last
  justified := fun k d hk => (hc.justified k d hk).append _
  pending := fun j => by
    rw [hpend, hc.pending, firstReceived_append, firstReceived_received]
  bound := hbound
  entry := hentry ▸ hc.entry
  width := hwidth
  lost := fun id hid => by
    obtain ⟨k, hk, hki⟩ := hc.lost id (hlost ▸ hid)
    exact ⟨k, List.mem_append_left _ hk, hki⟩
  span := fun c hch => (hc.span_near hw rfl c hch).1
  near := fun c hch => (hc.span_near hw rfl c hch).2

theorem Core.declareLost :
    Core first lo (h ++ [.lost n]) D { rb with lostMsgs := insert (idOf n) rb.lostMsgs } where
  last := hc.last
  justified := fun k d hk => (hc.justified k d hk).append _
  pending := fun j => by
    rw [hc.pending, firstReceived_append, firstReceived_lost, Option.or_none]
  bound := hc.bound
  entry := hc.entry
  width := hc.width
  lost := fun id hid => by
    rcases Finset.mem_insert.mp hid with rfl | hid
    · exact ⟨n, List.mem_append_right _ List.mem_cons_self, rfl⟩
    · obtain ⟨k, hk, hki⟩ := hc.lost id hid
      exact ⟨k, List.mem_append_left _ hk, hki⟩
  span := fun c hch => (hc.span_near hw rfl c hch).1
  near := fun c hch => (hc.span_near hw rfl c hch).2

theorem Core.drop
    (hdup : ∀ j : ℕ, n = lastNumber first D + 1 + j → rb.buffer[rb.firstEntry + j]?.join ≠ none) :
    Core first lo (h ++ [.received n m]) D rb := by
  refine hc.store hw rfl rfl rfl (fun j => ?_) hc.bound hc.width
  split
  · rename_i hj
    obtain ⟨m', hm'⟩ := Option.ne_none_iff_exists'.mp (hdup j hj)
    rw [hm', Option.some_or]
  · rw [Option.or_none]

theorem Core.grow {gap : ℕ}
    (hn : n = lastNumber first D + 1 + ((rb.buffer.length - rb.firstEntry : ℕ) + gap)) :
    Core first lo (h ++ [.received n m]) D
      { rb with buffer := rb.buffer ++ (List.replicate gap none ++ [some m]) } := by
  have hb := hc.bound
  have hnear := hw.near.2
  refine hc.store hw rfl rfl rfl (fun j => ?_) ?_ ?_
  · show (rb.buffer ++ (List.replicate gap none ++ [some m]))[rb.firstEntry + j]?.join = _
    rw [List.getElem?_append]
    split
    · rw [if_neg (by omega), Option.or_none]
    · rw [List.getElem?_eq_none (by omega : rb.buffer.length ≤ rb.firstEntry + j),
        List.getElem?_append, List.length_replicate]
      split
      · rw [List.getElem?_replicate, if_pos (by assumption), if_neg (by omega)]
        rfl
      · split
        · rw [show rb.firstEntry + j - rb.buffer.length - gap = 0 by omega]
          rfl
        · rw [List.getElem?_eq_none (by simp only [List.length_singleton]; omega)]
          rfl
  · show rb.firstEntry ≤ (rb.buffer ++ _).length
    rw [List.length_append]
    omega
  · simp only [List.length_append, List.length_replicate, List.length_singleton]
    omega

end

theorem compact_grow (rb : ReceiverBuffer) (hb : rb.firstEntry ≤ rb.buffer.length) (gap : ℕ)
    (m : Message) :
    Compact { rb with buffer := rb.buffer ++ (List.replicate gap none ++ [some m]) } := by
  intro he
  simp only [List.length_append, List.length_singleton] at he
  omega

section
variable (hc : Core first lo h D rb)
include hc

theorem Core.length_le : D.length ≤ MAX_PUBLISH_ID := by
  by_contra hlt
  have hpos : 0 < D.length := by omega
  have hcall : ∀ k < D.length, lo ≤ first + k ∧ first + k < lo + MAX_PUBLISH_ID := by
    intro k hk
    obtain ⟨c, hch, hcn⟩ := (hc.justified k _ (List.getElem?_eq_getElem hk)).called
    rw [← hcn]
    exact hc.span c hch
  have h0 := hcall 0 hpos
  have h1 := hcall (D.length - 1) (by omega)
  omega

/-- **A received message** keeps the invariant. -/
theorem Core.received (hcomp : Compact rb)
    (hw : InWindow first lo D n) (hid : m.getId = some (idOf n)) :
    ∃ out rtx rb', rb.onReceivedMessage m = some (out, rtx, rb') ∧
      Core first lo (h ++ [.received n m]) (D ++ out) rb' ∧ Compact rb' := by
  have hW := WINDOW_eq
  have hb := hc.bound
  have hwd := hc.width
  have hnear := hw.near
  have hfits : rb.buffer.length ≤ USIZE_MAX := by
    have hlen := hc.length_le
    have hen := hc.entry
    have hM : USIZE_MAX = 18446744073709551615 := rfl
    have hP : MAX_PUBLISH_ID = 2147483647 := rfl
    omega
  rcases received_cases hc.last hb (by omega) hfits hid (by omega) (by omega) with
    ⟨hn, hnil, hr⟩ | ⟨hn, hr⟩ | ⟨gap, rtx, hn, hr⟩ | ⟨j, hn, ⟨m', hent, hr⟩ | ⟨hent, hr⟩⟩
  · -- in order: the entry would be stored and released at once
    have hf : rb.firstEntry = 0 := by
      rw [hnil] at hb
      exact Nat.le_zero.mp hb
    have hst : Core first lo (h ++ [.received n m]) D
        { rb with buffer := rb.buffer ++ (List.replicate 0 none ++ [some m]) } :=
      hc.grow hw (by rw [hnil, List.length_nil]; omega)
    have hp := hst.pending 0
    simp only [hnil, hf, Nat.cast_zero, add_zero] at hp
    refine ⟨[some m], [], _, hr, hst.advance hp.symm ?_ (fun j => ?_) hb (Nat.le_succ _) hwd
      (Finset.Subset.refl _), fun _ => hnil⟩
    · rw [hn]
    · simp [hnil]
  · refine ⟨[], [], rb, hr, ?_, hcomp⟩
    rw [List.append_nil]
    exact hc.drop hw fun j hj => by omega
  · refine ⟨[], rtx, _, hr, ?_, compact_grow rb hb gap m⟩
    rw [List.append_nil]
    exact hc.grow hw hn
  · refine ⟨[], [], rb, hr, ?_, hcomp⟩
    rw [List.append_nil]
    refine hc.drop hw fun j' hj' => ?_
    rw [show j' = j by omega, hent]
    exact Option.some_ne_none m'
  · have hin := (List.getElem?_eq_some_iff.mp hent).1
    have hstore : Core first lo (h ++ [.received n m]) D
        { rb with buffer := rb.buffer.set (rb.firstEntry + j) (some m) } := by
      refine hc.store hw rfl rfl rfl (fun j' => ?_) ?_ ?_
      · show (rb.buffer.set (rb.firstEntry + j) (some m))[rb.firstEntry + j']?.join = _
        by_cases hjj : j' = j
        · subst hjj
          rw [hent, List.getElem?_set_self hin, if_pos hn]
          rfl
        · rw [List.getElem?_set_ne (by omega), if_neg (by omega), Option.or_none]
      · rw [List.length_set]
        exact hb
      · rw [List.length_set]
        exact hwd
    obtain ⟨out, rb', hrel, hcore, hcomp', -⟩ := releaseMsgs_spec hstore
    exact ⟨out, [], rb', by rw [hr, hrel, Option.bind_some], hcore, hcomp'⟩

/-- **A declared loss** keeps the invariant. -/
theorem Core.onLostMessage (hw : InWindow first lo D n) :
    ∃ out rb', rb.onLostMessage (idOf n) = some (out, rb') ∧
      Core first lo (h ++ [.lost n]) (D ++ out) rb' ∧ Compact rb' := by
  obtain ⟨out, rb', hrel, hcore, hcomp, -⟩ := releaseMsgs_spec (hc.declareLost hw)
  exact ⟨out, rb', hrel, hcore, hcomp⟩

end

end

end ReceiverBuffer

/-! ## Runs -/

open ReceiverBuffer

namespace StreamCall

/-- The call on the buffer; the buffer sees the id only. -/
def apply (rb : ReceiverBuffer) : StreamCall → Option (List (Option Message) × ReceiverBuffer)
  | received _ m => do
    let (out, _, rb) ← rb.onReceivedMessage m
    some (out, rb)
  | lost n => rb.onLostMessage (idOf n)

/-- A message carries the id of its number. -/
def Numbered : StreamCall → Prop
  | received n m => m.getId = some (idOf n)
  | lost _ => True

instance : (c : StreamCall) → Decidable c.Numbered
  | received n m => inferInstanceAs (Decidable (m.getId = some (idOf n)))
  | lost _ => .isTrue trivial

end StreamCall

/-- A buffer, what it delivered and the calls that were made. -/
structure StreamRun where
  /-- `none` after a panic. -/
  buffer : Option ReceiverBuffer
  delivered : List (Option Message) := []
  history : List StreamCall := []

namespace StreamRun

def step (s : StreamRun) (c : StreamCall) : StreamRun :=
  match s.buffer.bind c.apply with
  | some (out, rb) => ⟨some rb, s.delivered ++ out, s.history ++ [c]⟩
  | none => ⟨none, s.delivered, s.history ++ [c]⟩

/-- A stream that starts at the number `first`: announced, or by its first message. -/
inductive Starts (first lo : ℤ) : StreamRun → Prop
  | startingAt :
    Starts first lo { buffer := startingAt (idOf first) }
  | default (m : Message) (hid : m.getId = some (idOf first))
    (hspan : lo ≤ first ∧ first < lo + MAX_PUBLISH_ID) :
    Starts first lo (step { buffer := some {} } (.received first m))

/-- The calls of a run: numbers within half of the id space of the last delivered one, which
together span less than the id space. -/
def Admissible (first lo : ℤ) (s : StreamRun) (c : StreamCall) : Prop :=
  c.Numbered ∧ InWindow first lo s.delivered c.number

/-- Entry `k` of the deliveries stands for the number `first + k`, and `last_sent` for the last of
them. -/
structure InOrder (first : ℤ) (s : StreamRun) : Prop where
  running : ∃ rb, s.buffer = some rb ∧
    rb.lastSent = idOf (lastNumber first s.delivered)
  justified : ∀ (k : ℕ) d, s.delivered[k]? = some d → Justified s.history (first + k) d

structure Inv (first lo : ℤ) (s : StreamRun) : Prop where
  core : ∃ rb, s.buffer = some rb ∧ Core first lo s.history s.delivered rb ∧
    Compact rb

variable {first lo : ℤ}

theorem inv_startingAt : Inv first lo { buffer := startingAt (idOf first) } := by
  have hlt := idOf_lt first
  have hm := MAX_ID_eq
  have hsum : idOf first + MAX_ID ≤ USIZE_MAX := by
    have hM : USIZE_MAX = 18446744073709551615 := rfl
    omega
  have hlast : (idOf first + MAX_ID) % (MAX_ID + 1) =
      idOf (first - 1) := wrap_sub_one _ _
  refine ⟨{ lastSent := idOf (first - 1) }, ?_, ?_, fun _ => rfl⟩
  · simp [startingAt, checkedAdd_of_le hsum, hlast]
  · exact ⟨by simp [lastNumber], fun k d hk => (by simp at hk), fun j => rfl,
      Nat.le_refl 0, Nat.le_refl 0, Nat.zero_le _,
        fun id hid => absurd hid (Finset.notMem_empty id),
      fun c hc => absurd hc List.not_mem_nil, fun c hc => absurd hc List.not_mem_nil⟩

theorem inv_default {m : Message} (hid : m.getId = some (idOf first))
    (hspan : lo ≤ first ∧ first < lo + MAX_PUBLISH_ID) :
    Inv first lo (step { buffer := some {} } (.received first m)) := by
  have hrun : step { buffer := some {} } (.received first m) =
      ⟨some { lastSent := idOf first }, [some m], [.received first m]⟩ := by
    simp [step, StreamCall.apply, onReceivedMessage, hid, internalOnReceivedMessage]
  have hlast : lastNumber first [some m] = first := by
    simp only [lastNumber, List.length_singleton]
    omega
  rw [hrun]
  refine ⟨_, rfl, ⟨by rw [hlast], fun k d hk => ?_, fun j => ?_, Nat.le_refl 0, Nat.zero_le _,
    Nat.zero_le _, fun id hid => absurd hid (Finset.notMem_empty id), ?_, ?_⟩, fun _ => rfl⟩
  · cases k with
    | zero =>
      cases hk
      show firstReceived _ _ = _
      rw [firstReceived_received, if_pos (by simp)]
    | succ k => cases hk
  · rw [hlast, firstReceived_received, if_neg (by omega)]
    rfl
  · intro c hc
    rw [List.mem_singleton.mp hc]
    exact hspan
  · intro c hc
    rw [List.mem_singleton.mp hc]
    simp only [StreamCall.number]
    omega

theorem Inv.step (s : StreamRun) (c : StreamCall) (h : Inv first lo s)
    (hc : Admissible first lo s c) : Inv first lo (s.step c) := by
  obtain ⟨rb, hrb, hcore, hcomp⟩ := h.core
  obtain ⟨hnum, hwin⟩ := hc
  cases c with
  | received n m =>
    obtain ⟨out, rtx, rb', hrun, hcore', hcomp'⟩ := hcore.received hcomp hwin hnum
    have hstep : s.step (.received n m) =
        ⟨some rb', s.delivered ++ out, s.history ++ [.received n m]⟩ := by
      simp [StreamRun.step, StreamCall.apply, hrb, hrun]
    rw [hstep]
    exact ⟨rb', rfl, hcore', hcomp'⟩
  | lost n =>
    obtain ⟨out, rb', hrun, hcore', hcomp'⟩ := hcore.onLostMessage (n := n) hwin
    have hstep : s.step (.lost n) = ⟨some rb', s.delivered ++ out, s.history ++ [.lost n]⟩ := by
      simp [StreamRun.step, StreamCall.apply, hrb, hrun]
    rw [hstep]
    exact ⟨rb', rfl, hcore', hcomp'⟩

/-- **Ordered exactly-once delivery**: the deliveries of a run are the entries of the consecutive
numbers from `first` on, each the first message received with its number or a declared loss. -/
theorem deliveries_inOrder {start : StreamRun} (hstart : Starts first lo start)
    (calls : List StreamCall) (h : Run.Meets step (Admissible first lo) start calls) :
    InOrder first (calls.foldl step start) := by
  have hinit : Inv first lo start := by
    cases hstart with
    | startingAt => exact inv_startingAt
    | default m hid hspan => exact inv_default hid hspan
  have hinv : Inv first lo (calls.foldl step start) := h.invariant Inv.step hinit
  obtain ⟨rb, hrb, hcore, -⟩ := hinv.core
  exact ⟨⟨rb, hrb, hcore.last⟩, hcore.justified⟩

/-- **Nothing is dropped**: past the deliveries, the buffer holds the first message received with
each number at the place of the number, and no others; it is no longer than the window. -/
theorem undelivered_held {start : StreamRun} (hstart : Starts first lo start)
    (calls : List StreamCall) (h : Run.Meets step (Admissible first lo) start calls) :
    let s := calls.foldl step start
    ∃ rb, s.buffer = some rb ∧ rb.buffer.length ≤ rb.firstEntry + WINDOW ∧ ∀ j : ℕ,
      rb.buffer[rb.firstEntry + j]?.join =
        firstReceived s.history (lastNumber first s.delivered + 1 + j) := by
  have hinit : Inv first lo start := by
    cases hstart with
    | startingAt => exact inv_startingAt
    | default m hid hspan => exact inv_default hid hspan
  obtain ⟨rb, hrb, hcore, -⟩ := (h.invariant Inv.step hinit).core
  exact ⟨rb, hrb, hcore.width, hcore.pending⟩

instance (s : StreamRun) (c : StreamCall) : Decidable (Admissible first lo s c) :=
  decidable_of_iff (c.Numbered ∧ (lo ≤ c.number ∧ c.number < lo + MAX_PUBLISH_ID) ∧
      lastNumber first s.delivered - WINDOW ≤ c.number ∧
      c.number ≤ lastNumber first s.delivered + WINDOW)
    ⟨fun ⟨h1, h2, h3⟩ => ⟨h1, h2, h3⟩, fun ⟨h1, h2⟩ => ⟨h1, h2.span, h2.near⟩⟩

def sampleMessage (id : ℕ) (body : UInt8) : Message where
  messageType := some (.publish none (some ⟨0, 0, 0, id⟩) (some (.appPayload "" [body])))

/-- A stream over the end of the id space, with a duplicate and a loss. -/
def wrappingCalls : List StreamCall :=
  [.received 2147483648 (sampleMessage 0 1), .lost 2147483649,
    .received 2147483650 (sampleMessage 2 2),
    .received 2147483648 (sampleMessage 0 3), .received 2147483647 (sampleMessage 2147483647 4)]

theorem deliveries_inOrder_wrapping :
    Run.Meets step (Admissible 2147483647 2147483647)
        { buffer := startingAt 2147483647 } wrappingCalls ∧
      InOrder 2147483647
        (wrappingCalls.foldl step { buffer := startingAt 2147483647 }) := by
  have h : Run.Meets step (Admissible 2147483647 2147483647)
      { buffer := startingAt 2147483647 } wrappingCalls := by decide +kernel
  exact ⟨h, deliveries_inOrder .startingAt wrappingCalls h⟩

/-- Before the first message of the stream has come, the later one is held in its place. -/
theorem undelivered_held_wrapping :
    let s := (wrappingCalls.take 3).foldl step { buffer := startingAt 2147483647 }
    s.delivered = [] ∧ ∃ rb, s.buffer = some rb ∧ rb.buffer.length ≤ rb.firstEntry + WINDOW ∧
      rb.buffer[rb.firstEntry + 3]?.join = some (sampleMessage 2 2) := by
  obtain ⟨rb, hrb, hlen, hheld⟩ :=
    @undelivered_held 2147483647 2147483647 _ .startingAt (wrappingCalls.take 3) (by decide +kernel)
  refine ⟨by decide +kernel, rb, hrb, hlen, (hheld 3).trans ?_⟩
  decide +kernel

end StreamRun

end Slim
