import Slim.Auth.Identity
import Slim.Lib.Run

/-!
# Tokens are used once

What the replay cache does to a token: once `tryVerify` has let it pass, its entry stays in the
cache until it is expired (`Spent`), and from then on no verification lets it pass, neither by its
entry nor by its age.
-/

namespace Slim

open Text

/-! ## The cache -/

namespace ReplayCache

variable {c : ReplayCache} {e x : ReplayEntry} {now window : Nat}

section
variable (c now window)

theorem card_entries : c.entries.card = c.order.length := by
  have h : c.entries = ⟨c.order, c.nodup⟩ := by
    ext e
    rw [c.mem_entries e]
    rfl
  rw [h]
  rfl

@[simp] theorem popFront_order : c.popFront.order = c.order.tail := rfl

theorem foldl_popFront {α : Type} (l : List α) (c : ReplayCache) :
    (l.foldl (fun c _ => c.popFront) c).order = c.order.drop l.length ∧
      (l.foldl (fun c _ => c.popFront) c).maxSize = c.maxSize := by
  induction l generalizing c with
  | nil => exact ⟨rfl, rfl⟩
  | cons a l ih =>
    obtain ⟨horder, hmax⟩ := ih c.popFront
    refine ⟨?_, hmax⟩
    rw [List.foldl_cons, horder, popFront_order, List.drop_tail, List.length_cons]

theorem purge_order :
    (c.purge now window).order = c.order.dropWhile (expired now window) := by
  have hsplit := List.takeWhile_append_dropWhile (p := expired now window) (l := c.order)
  rw [purge, (foldl_popFront _ c).1]
  calc c.order.drop (c.order.takeWhile (expired now window)).length
      = (c.order.takeWhile (expired now window) ++ c.order.dropWhile (expired now window)).drop
          (c.order.takeWhile (expired now window)).length := by rw [hsplit]
    _ = c.order.dropWhile (expired now window) := List.drop_left

@[simp] theorem purge_maxSize : (c.purge now window).maxSize = c.maxSize :=
  (foldl_popFront _ c).2

theorem card_purge_le : (c.purge now window).entries.card ≤ c.entries.card := by
  rw [card_entries, card_entries, purge_order]
  exact (List.dropWhile_suffix _).length_le

end

theorem mem_purge_of_mem (h : e ∈ c.entries) (hage : ¬ window < now - e.timestamp) :
    e ∈ (c.purge now window).entries := by
  rw [mem_entries] at h ⊢
  rw [purge_order]
  rw [← List.takeWhile_append_dropWhile (p := expired now window) (l := c.order),
    List.mem_append] at h
  rcases h with h | h
  · exact absurd (by simpa [expired] using List.mem_takeWhile_imp h) hage
  · exact h

theorem mem_of_mem_purge (h : e ∈ (c.purge now window).entries) : e ∈ c.entries := by
  rw [mem_entries] at h ⊢
  rw [purge_order] at h
  exact (List.dropWhile_suffix _).subset h

theorem evict_of_lt (h : c.entries.card < c.maxSize) : c.evict = c := by
  rw [evict, if_neg (by omega)]

theorem mem_push (h : e ∉ c.entries) : x ∈ (c.push e h).entries ↔ x = e ∨ x ∈ c.entries :=
  Finset.mem_insert

/-- What `insert` does: it finds a replay, or it adds the entry. -/
theorem insert_cases (c : ReplayCache) (e : ReplayEntry) (now window : Nat) :
    e ∈ (c.purge now window).entries ∧
        c.insert e now window = (.err .TokenInvalidReplay, c.purge now window) ∨
      ∃ h : e ∉ (c.purge now window).entries,
        c.insert e now window = (.ok (), (c.purge now window).evict.push e (not_mem_evict h)) := by
  unfold insert
  by_cases h : e ∈ (c.purge now window).entries
  · exact .inl ⟨h, by rw [dif_pos h]⟩
  · exact .inr ⟨h, by rw [dif_neg h]⟩

theorem mem_insert_of_mem (h : x ∈ c.entries) (hage : ¬ window < now - x.timestamp)
    (hroom : c.entries.card < c.maxSize ∨ (c.insert e now window).1 ≠ .ok ()) :
    x ∈ (c.insert e now window).2.entries := by
  have hpurge := mem_purge_of_mem h hage
  rcases insert_cases c e now window with ⟨-, heq⟩ | ⟨hnew, heq⟩
  · rw [heq]
    exact hpurge
  · rw [heq] at hroom ⊢
    rcases hroom with hroom | hne
    · have hlt : (c.purge now window).entries.card < (c.purge now window).maxSize := by
        have hle := card_purge_le c now window
        rw [purge_maxSize]
        omega
      rw [mem_push, evict_of_lt hlt]
      exact .inr hpurge
    · exact absurd rfl hne

theorem mem_of_insert_ok (h : (c.insert e now window).1 = .ok ()) :
    e ∈ (c.insert e now window).2.entries := by
  rcases insert_cases c e now window with ⟨-, heq⟩ | ⟨hnew, heq⟩
  · rw [heq] at h
    cases h
  · rw [heq, mem_push]
    exact .inl rfl

theorem mem_of_mem_insert (h : x ∈ (c.insert e now window).2.entries) : x = e ∨ x ∈ c.entries := by
  rcases insert_cases c e now window with ⟨-, heq⟩ | ⟨hnew, heq⟩
  · rw [heq] at h
    exact .inr (mem_of_mem_purge h)
  · rw [heq, mem_push] at h
    refine h.imp id fun hmem => ?_
    rw [evict] at hmem
    split at hmem
    · exact mem_of_mem_purge (not_imp_not.mp not_mem_popFront hmem)
    · exact mem_of_mem_purge hmem

theorem insert_of_mem (h : e ∈ c.entries) (hage : ¬ window < now - e.timestamp) :
    (c.insert e now window).1 = .err .TokenInvalidReplay := by
  rcases insert_cases c e now window with ⟨-, heq⟩ | ⟨hnew, -⟩
  · rw [heq]
  · exact absurd (mem_purge_of_mem h hage) hnew

theorem insert_of_not_mem (h : e ∉ c.entries) : (c.insert e now window).1 = .ok () := by
  rcases insert_cases c e now window with ⟨hmem, -⟩ | ⟨hnew, heq⟩
  · exact absurd (mem_of_mem_purge hmem) h
  · rw [heq]

end ReplayCache

/-! ## Tokens -/

namespace SharedSecret

variable {L : AuthLib} {p : SharedSecret} {now ts : Nat} {token : List Char} {e : ReplayEntry}
  {nonceBytes : Bytes}

/-- The nonce and the timestamp of a token, if it has the form of one. -/
def entryOf (token : List Char) : Option ReplayEntry :=
  match rsplitOnce ':' token with
  | some (message, _) =>
    match splitn ':' 4 message with
    | [_, ts, nonce, _] => (parseUnsigned (2 ^ 64) ts).map fun ts => ⟨nonce, ts⟩
    | _ => none
  | none => none

theorem validateTimestamp_eq_ok : p.validateTimestamp now ts = .ok () ↔
    ts - now ≤ p.clockSkew ∧ now - ts ≤ p.validityWindow := by
  unfold validateTimestamp
  split
  · split
    · exact ⟨nofun, fun h => by omega⟩
    · exact ⟨fun _ => by omega, fun _ => rfl⟩
  · split
    · exact ⟨nofun, fun h => by omega⟩
    · exact ⟨fun _ => by omega, fun _ => rfl⟩

/-- A token that passes the checks has a nonce and a timestamp, and it is not too old. -/
theorem checkToken_eq_ok (h : p.checkToken L now token = .ok e) :
    entryOf token = some e ∧ now - e.timestamp ≤ p.validityWindow := by
  unfold checkToken at h
  unfold entryOf
  split at h
  · cases h
  · next message mac hcut =>
    split at h
    · next id tsText nonce claims hfields =>
      split at h
      · cases h
      · split at h
        · cases h
        · next ts hts =>
          split at h
          · cases h
          · next hvalid =>
            split at h
            · cases h
            · split at h
              · cases h
              · split at h
                · cases h
                  simp only [hcut, hfields, hts, Option.map_some, true_and]
                  exact (validateTimestamp_eq_ok.mp hvalid).2
                · cases h
    · cases h

/-! ## What `getToken` issues -/

theorem utf8Len_encode (bytes : Bytes) :
    utf8Len (L.encode bytes) = (4 * bytes.length + 2) / 3 := by
  have hones : (L.encode bytes).map Char.utf8Size = List.replicate (L.encode bytes).length 1 := by
    rw [List.eq_replicate_iff, List.length_map]
    refine ⟨rfl, fun n hn => ?_⟩
    obtain ⟨c, hc, rfl⟩ := List.mem_map.mp hn
    exact (L.char_encode bytes c hc).1
  rw [utf8Len, hones, List.sum_replicate_nat, L.length_encode, Nat.mul_one]

theorem colon_not_mem_encode (bytes : Bytes) : ':' ∉ L.encode bytes :=
  fun h => (L.char_encode bytes _ h).2 rfl

theorem splitn_tokenMessage {id nonce claims : List Char} (hid : ':' ∉ id) (hnonce : ':' ∉ nonce)
    (ts : Nat) : splitn ':' 4 (tokenMessage id ts nonce claims) =
      [id, Nat.toDigits 10 ts, nonce, claims] := by
  rw [tokenMessage, splitn_append hid, splitn_append (not_mem_toDigits (by decide) ts),
    splitn_append hnonce, splitn_one]

/-- A token that an issuer with the same secret made is checked for its age only. -/
theorem checkToken_getToken {sender : SharedSecret}
    (htag : ∀ secret message, (L.hmac secret message).length = HMAC_TAG_LEN)
    (hsecret : p.sharedSecret = sender.sharedSecret) (hts : ts < 2 ^ 64)
    (htoken : sender.getToken L ts nonceBytes = .ok token) (hskew : ts - now ≤ p.clockSkew)
    (hage : now - ts ≤ p.validityWindow) :
    p.checkToken L now token = .ok ⟨L.encode nonceBytes, ts⟩ := by
  unfold getToken at htoken
  split at htoken
  · cases htoken
  · cases htoken
    have hlen : utf8Len (L.encode (L.hmac sender.sharedSecret (tokenMessage sender.id
        ts (L.encode nonceBytes) (sender.claimsB64 L)))) = HMAC_TAG_B64_LEN := by
      rw [utf8Len_encode, htag]
      rfl
    have hclaims : ':' ∉ sender.claimsB64 L := colon_not_mem_encode _
    simp only [checkToken, rsplitOnce_append (colon_not_mem_encode _),
      splitn_tokenMessage sender.no_colon (colon_not_mem_encode _), if_neg hclaims,
      parseUnsigned_toDigits hts, validateTimestamp_eq_ok.mpr ⟨hskew, hage⟩, hlen, ne_eq,
      not_true, if_false, L.decode_encode, hsecret, if_true]

theorem entryOf_getToken (hts : ts < 2 ^ 64) (htoken : p.getToken L ts nonceBytes = .ok token) :
    entryOf token = some ⟨L.encode nonceBytes, ts⟩ := by
  unfold getToken at htoken
  split at htoken
  · cases htoken
  · cases htoken
    simp only [entryOf, rsplitOnce_append (colon_not_mem_encode _),
      splitn_tokenMessage p.no_colon (colon_not_mem_encode _), parseUnsigned_toDigits hts,
      Option.map_some]

/-! ## Verifications -/

section Verify

/-- The token with this entry is in the cache, or it has become too old. -/
def Spent (p : SharedSecret) (clock : Nat → Nat) (s : VerifierState) (x : ReplayEntry) : Prop :=
  x ∈ s.cache.entries ∨ p.validityWindow < clock s.readings - x.timestamp

/-- A new entry does not push an old one out. -/
def HasRoom (s : VerifierState) : Prop := s.cache.entries.card < s.cache.maxSize

instance (s : VerifierState) : Decidable (HasRoom s) := inferInstanceAs (Decidable (_ < _))

variable {clock : Nat → Nat} {s : VerifierState} {x : ReplayEntry} (henabled : p.replayCacheEnabled)
include henabled

variable (L clock) in
/-- What a verification does: it fails before it looks at the cache, or the cache decides. -/
theorem tryVerify_cases (token : List Char) (s : VerifierState) :
    (∃ err, p.tryVerify L clock token s = (.err err, ⟨s.cache, s.readings + 1⟩)) ∨
      ∃ e, p.checkToken L (clock s.readings) token = .ok e ∧
        p.tryVerify L clock token s =
          ((s.cache.insert e (clock s.readings) p.validityWindow).1,
            ⟨(s.cache.insert e (clock s.readings) p.validityWindow).2, s.readings + 1⟩) := by
  have hrun : p.tryVerify L clock token s =
      (Prog.ofExcept (p.checkToken L (clock s.readings) token) >>= fun e =>
        p.recordReplay e (clock s.readings)) ⟨s.cache, s.readings + 1⟩ := rfl
  cases hcheck : p.checkToken L (clock s.readings) token with
  | error err => exact .inl ⟨err, by rw [hrun, hcheck]; rfl⟩
  | ok e =>
    refine .inr ⟨e, rfl, ?_⟩
    rw [hrun, hcheck, Prog.ofExcept_ok_bind_run, recordReplay, if_pos henabled]

theorem tryVerify_ne_panic {text : String} : (p.tryVerify L clock token s).1 ≠ .panic text := by
  rcases tryVerify_cases L clock henabled token s with ⟨err, heq⟩ | ⟨e, -, heq⟩
  · rw [heq]
    nofun
  · rcases ReplayCache.insert_cases s.cache e (clock s.readings) p.validityWindow with
      ⟨-, hins⟩ | ⟨_, hins⟩ <;> rw [heq, hins] <;> nofun

theorem Spent.tryVerify (hmono : Monotone clock) (h : Spent p clock s x)
    (hroom : HasRoom s ∨ (p.tryVerify L clock token s).1 ≠ .ok ()) :
    Spent p clock (p.tryVerify L clock token s).2 x := by
  have hlater : clock s.readings ≤ clock (s.readings + 1) := hmono (Nat.le_succ _)
  by_cases hage : p.validityWindow < clock s.readings - x.timestamp
  · rcases tryVerify_cases L clock henabled token s with ⟨err, heq⟩ | ⟨e, -, heq⟩
    all_goals
      rw [heq]
      exact .inr (by show _ < clock (s.readings + 1) - _; omega)
  · have hmem := h.resolve_right hage
    rcases tryVerify_cases L clock henabled token s with ⟨err, heq⟩ | ⟨e, -, heq⟩
    · rw [heq]
      exact .inl hmem
    · rw [heq] at hroom ⊢
      exact .inl (ReplayCache.mem_insert_of_mem hmem hage hroom)

theorem tryVerify_of_spent (htoken : entryOf token = some x)
    (h : Spent p clock s x) : ∃ err, (p.tryVerify L clock token s).1 = .err err := by
  rcases tryVerify_cases L clock henabled token s with ⟨err, heq⟩ | ⟨e, hcheck, heq⟩
  · exact ⟨err, by rw [heq]⟩
  · obtain ⟨hentry, hage⟩ := checkToken_eq_ok hcheck
    obtain rfl : e = x := Option.some.inj (hentry.symm.trans htoken)
    have hmem := h.resolve_right (by omega)
    exact ⟨_, by rw [heq, ReplayCache.insert_of_mem hmem (by omega)]⟩

theorem spent_of_tryVerify (h : (p.tryVerify L clock token s).1 = .ok ()) :
    ∃ e, entryOf token = some e ∧ Spent p clock (p.tryVerify L clock token s).2 e := by
  rcases tryVerify_cases L clock henabled token s with ⟨err, heq⟩ | ⟨e, hcheck, heq⟩
  · rw [heq] at h
    cases h
  · rw [heq] at h ⊢
    exact ⟨e, (checkToken_eq_ok hcheck).1, .inl (ReplayCache.mem_of_insert_ok h)⟩

theorem mem_of_mem_tryVerify (h : x ∈ (p.tryVerify L clock token s).2.cache.entries) :
    x ∈ s.cache.entries ∨ entryOf token = some x := by
  rcases tryVerify_cases L clock henabled token s with ⟨err, heq⟩ | ⟨e, hcheck, heq⟩
  · rw [heq] at h
    exact .inl h
  · rw [heq] at h
    rcases ReplayCache.mem_of_mem_insert h with rfl | hmem
    · exact .inr (checkToken_eq_ok hcheck).1
    · exact .inl hmem

theorem HasRoom.tryVerify (h : HasRoom s) (hfail : (p.tryVerify L clock token s).1 ≠ .ok ()) :
    HasRoom (p.tryVerify L clock token s).2 := by
  rcases tryVerify_cases L clock henabled token s with ⟨err, heq⟩ | ⟨e, hcheck, heq⟩
  · rw [heq]
    exact h
  · rw [heq] at hfail ⊢
    rcases ReplayCache.insert_cases s.cache e (clock s.readings) p.validityWindow with
      ⟨-, hins⟩ | ⟨hnew, hins⟩
    · rw [hins]
      have hle := ReplayCache.card_purge_le s.cache (clock s.readings) p.validityWindow
      show _ < (s.cache.purge _ _).maxSize
      rw [ReplayCache.purge_maxSize]
      exact lt_of_le_of_lt hle h
    · rw [hins] at hfail
      exact absurd rfl hfail

end Verify

end SharedSecret

end Slim
