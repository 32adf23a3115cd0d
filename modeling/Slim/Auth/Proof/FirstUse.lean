import Slim.Auth.Proof.Replay

/-!
# The first use of a token

`verifyIdentity` verifies the token of a control message and then asks for its claims, which
verifies the token again. With a replay cache the second verification finds the entry of the first,
so such a message is refused the first time it is seen (`verifyIdentity_first_use_iff`). Where the
claims are not needed it passes.
-/

namespace Slim.SharedSecret

open Base64 Prog

variable {L : IdentityLib} {p : SharedSecret} {clock : Nat → Nat} {s : VerifierState}
  {token : List Char} {x : ReplayEntry} {msg : SignedPublish} {e2e : Bool}

def NeedsClaims (msg : SignedPublish) (e2e : Bool) : Prop :=
  e2e ∧ msg.type.isCommandMessage

instance (msg : SignedPublish) (e2e : Bool) : Decidable (NeedsClaims msg e2e) :=
  inferInstanceAs (Decidable (_ ∧ _))

structure Verification where
  msg : SignedPublish
  e2eIntegrityRequired : Bool

variable (L p clock) in
def verification (s : VerifierState) (c : Verification) : VerifierState :=
  (p.verifyIdentity L clock c.msg c.e2eIntegrityRequired s).2

section Verify

variable (henabled : p.replayCacheEnabled)
include henabled

/-! ## The token of a message -/

variable (L clock) in
theorem verifyToken_cases (token : List Char) (s : VerifierState) :
    (p.tryVerify L.toAuthLib clock token s).1 = .ok () ∧
        p.verifyToken L clock token s = p.tryVerify L.toAuthLib clock token s ∨
      (p.tryVerify L.toAuthLib clock token s).1 ≠ .ok () ∧
        p.verifyToken L clock token s = p.tryVerify L.toAuthLib clock token
          (p.tryVerify L.toAuthLib clock token s).2 := by
  unfold verifyToken Verifier.verifyToken verifier verify
  dsimp only
  rcases h : p.tryVerify L.toAuthLib clock token s with ⟨⟨⟩ | err | text, s'⟩
  · exact .inl ⟨rfl, rfl⟩
  · exact .inr ⟨nofun, rfl⟩
  · -- a verification does not panic
    exact absurd (congrArg Prod.fst h) (tryVerify_ne_panic henabled)

theorem Spent.verifyToken (hmono : Monotone clock) (hroom : HasRoom s) (h : Spent p clock s x) :
    Spent p clock (p.verifyToken L clock token s).2 x := by
  rcases verifyToken_cases L clock henabled token s with
    ⟨-, heq⟩ | ⟨hfail, heq⟩
  · rw [heq]
    exact h.tryVerify henabled hmono (.inl hroom)
  · rw [heq]
    exact (h.tryVerify henabled hmono (.inl hroom)).tryVerify henabled hmono
      (.inl (hroom.tryVerify henabled hfail))

theorem verifyToken_of_spent (hmono : Monotone clock) (htoken : entryOf token = some x)
    (h : Spent p clock s x) : ∃ err, (p.verifyToken L clock token s).1 = .err err := by
  have hfail := tryVerify_of_spent (L := L.toAuthLib) henabled htoken h
  rcases verifyToken_cases L clock henabled token s with
    ⟨hok, -⟩ | ⟨hne, heq⟩
  · obtain ⟨err, herr⟩ := hfail
    rw [hok] at herr
    cases herr
  · rw [heq]
    exact tryVerify_of_spent henabled htoken (h.tryVerify henabled hmono (.inr hne))

theorem spent_of_verifyToken (h : (p.verifyToken L clock token s).1 = .ok ()) :
    ∃ e, entryOf token = some e ∧ Spent p clock (p.verifyToken L clock token s).2 e := by
  rcases verifyToken_cases L clock henabled token s with ⟨-, heq⟩ | ⟨-, heq⟩
  all_goals
    rw [heq] at h ⊢
    exact spent_of_tryVerify henabled h

theorem mem_of_mem_verifyToken (h : x ∈ (p.verifyToken L clock token s).2.cache.entries) :
    x ∈ s.cache.entries ∨ entryOf token = some x := by
  rcases verifyToken_cases L clock henabled token s with ⟨-, heq⟩ | ⟨-, heq⟩
  · rw [heq] at h
    exact mem_of_mem_tryVerify henabled h
  · rw [heq] at h
    rcases mem_of_mem_tryVerify henabled h with hmem | hentry
    · exact mem_of_mem_tryVerify henabled hmem
    · exact .inr hentry

/-! ## The whole message -/

omit henabled in
theorem verifyIdentity_of_err {err : AuthError}
    (h : (p.verifyToken L clock msg.identity.toList s).1 = .err err) :
    p.verifyIdentity L clock msg e2e s =
      (.err err, (p.verifyToken L clock msg.identity.toList s).2) :=
  bind_err (Prod.ext h rfl) _

/-- With a replay cache, the claims of a token that has just passed cannot be had: the token is
spent. -/
theorem tryGetClaims_of_spent (htoken : entryOf token = some x)
    (h : Spent p clock s x) : ∃ err, p.tryGetClaims L.toAuthLib clock token s =
      (.err err, (p.tryVerify L.toAuthLib clock token s).2) := by
  obtain ⟨err, herr⟩ := tryVerify_of_spent henabled htoken h
  exact ⟨err, bind_err (Prod.ext herr rfl) _⟩

variable (L clock) in
/-- What a call does: the token does not pass, or it passes and no claims are needed, or it passes
and the message is refused all the same. -/
theorem verifyIdentity_cases (msg : SignedPublish) (e2e : Bool) (s : VerifierState) :
    (∃ err, (p.verifyToken L clock msg.identity.toList s).1 = .err err ∧
        p.verifyIdentity L clock msg e2e s =
          (.err err, (p.verifyToken L clock msg.identity.toList s).2)) ∨
      (p.verifyToken L clock msg.identity.toList s).1 = .ok () ∧ ¬ NeedsClaims msg e2e ∧
        p.verifyIdentity L clock msg e2e s =
          (.ok none, (p.verifyToken L clock msg.identity.toList s).2) ∨
      (p.verifyToken L clock msg.identity.toList s).1 = .ok () ∧ NeedsClaims msg e2e ∧
        ∃ err, (p.verifyIdentity L clock msg e2e s).1 = .err err ∧
          ((p.verifyIdentity L clock msg e2e s).2 =
              (p.verifyToken L clock msg.identity.toList s).2 ∨
            (p.verifyIdentity L clock msg e2e s).2 =
              (p.tryVerify L.toAuthLib clock msg.identity.toList
                (p.verifyToken L clock msg.identity.toList s).2).2) := by
  rcases hrun : p.verifyToken L clock msg.identity.toList s with ⟨⟨⟩ | err | text, s'⟩
  · have hok : p.verifyIdentity L clock msg e2e s = _ := bind_ok hrun _
    by_cases hneeds : NeedsClaims msg e2e
    · refine .inr (.inr ⟨rfl, hneeds, ?_⟩)
      rw [hok, if_pos (show e2e = true ∧ msg.type.isCommandMessage = true from hneeds)]
      obtain ⟨e, hentry, hspent⟩ := spent_of_verifyToken henabled
        (congrArg Prod.fst hrun)
      rw [hrun] at hspent
      obtain ⟨err, hclaims⟩ : ∃ err, (p.verifier L clock).getClaims msg.identity.toList s' =
          (.err err, (p.tryVerify L.toAuthLib clock msg.identity.toList s').2) :=
        tryGetClaims_of_spent henabled hentry hspent
      cases hsig : msg.e2eHeaderSig with
      | none => exact ⟨.TokenInvalid, rfl, .inl rfl⟩
      | some sig =>
        rw [okOr_some_bind_run, bind_err hclaims]
        exact ⟨err, rfl, .inr rfl⟩
    · refine .inr (.inl ⟨rfl, hneeds, ?_⟩)
      rw [hok, if_neg (show ¬ (e2e = true ∧ msg.type.isCommandMessage = true) from hneeds)]
      rfl
  · exact .inl ⟨err, rfl, bind_err hrun _⟩
  · -- neither attempt panics
    exfalso
    rcases verifyToken_cases L clock henabled msg.identity.toList s with
    ⟨h, heq⟩ | ⟨-, heq⟩
    · rw [← heq, hrun] at h
      cases h
    · exact tryVerify_ne_panic henabled (congrArg Prod.fst (heq.symm.trans hrun))

theorem Spent.verifyIdentity (hmono : Monotone clock) (hroom : HasRoom s) (h : Spent p clock s x) :
    Spent p clock (p.verifyIdentity L clock msg e2e s).2 x := by
  have htoken : Spent p clock (p.verifyToken L clock msg.identity.toList s).2 x :=
    h.verifyToken henabled hmono hroom
  rcases verifyIdentity_cases L clock henabled msg e2e s with
    ⟨err, -, heq⟩ | ⟨-, -, heq⟩ | ⟨hok, -, err, -, heq | heq⟩
  · rw [heq]
    exact htoken
  · rw [heq]
    exact htoken
  · rw [heq]
    exact htoken
  · -- the second verification fails, so it takes no room
    obtain ⟨e, hentry, hspent⟩ := spent_of_verifyToken henabled hok
    obtain ⟨err', herr⟩ := tryVerify_of_spent henabled hentry hspent
    rw [heq]
    exact htoken.tryVerify henabled hmono (.inr (by rw [herr]; nofun))

theorem mem_of_mem_verifyIdentity (h : x ∈ (p.verifyIdentity L clock msg e2e s).2.cache.entries) :
    x ∈ s.cache.entries ∨ entryOf msg.identity.toList = some x := by
  rcases verifyIdentity_cases L clock henabled msg e2e s with
    ⟨err, -, heq⟩ | ⟨-, -, heq⟩ | ⟨-, -, err, -, heq | heq⟩ <;> rw [heq] at h
  · exact mem_of_mem_verifyToken henabled h
  · exact mem_of_mem_verifyToken henabled h
  · exact mem_of_mem_verifyToken henabled h
  · rcases mem_of_mem_tryVerify henabled h with hmem | hentry
    · exact mem_of_mem_verifyToken henabled hmem
    · exact .inr hentry

theorem verifyIdentity_of_spent (hmono : Monotone clock)
    (htoken : entryOf msg.identity.toList = some x) (h : Spent p clock s x) :
    ∃ err, (p.verifyIdentity L clock msg e2e s).1 = .err err := by
  obtain ⟨err, herr⟩ := verifyToken_of_spent henabled hmono htoken h
  exact ⟨err, by rw [verifyIdentity_of_err herr]⟩

/-! ## Runs -/

theorem Spent.run (hmono : Monotone clock) (cs : List Verification)
    (hroom : Run.Meets (p.verification L clock) (fun s _ => HasRoom s) s cs)
    (h : Spent p clock s x) : Spent p clock (cs.foldl (p.verification L clock) s) x :=
  hroom.invariant (I := fun s => Spent p clock s x)
    (fun _ _ hspent hroom => hspent.verifyIdentity henabled hmono hroom) h

theorem mem_of_mem_run (cs : List Verification)
    (h : x ∈ (cs.foldl (p.verification L clock) s).cache.entries) :
    x ∈ s.cache.entries ∨ ∃ c ∈ cs, entryOf c.msg.identity.toList = some x := by
  induction cs generalizing s with
  | nil => exact .inl h
  | cons c cs ih =>
    rcases ih h with hmem | ⟨d, hd, hentry⟩
    · rcases mem_of_mem_verifyIdentity henabled hmem with hmem | hentry
      · exact .inl hmem
      · exact .inr ⟨c, List.mem_cons_self, hentry⟩
    · exact .inr ⟨d, List.mem_cons_of_mem c hd, hentry⟩

end Verify

/-- The message carries a token that the sender has issued with the secret of the verifier, and the
verifier looks at it in time. -/
structure Issued (L : IdentityLib) (sender p : SharedSecret) (now ts : Nat) (nonceBytes : Bytes)
    (msg : SignedPublish) : Prop where
  secret : p.sharedSecret = sender.sharedSecret
  representable : ts < 2 ^ 64
  token : ∃ token, sender.getToken L.toAuthLib ts nonceBytes = .ok token ∧
    msg.identity = String.ofList token
  skew : ts - now ≤ p.clockSkew
  age : now - ts ≤ p.validityWindow

/-- What is to be established about a message of the sender. -/
def identityOf (L : IdentityLib) (sender p : SharedSecret) (ts : Nat) (msg : SignedPublish)
    (e2e : Bool) : Option (VerifiedIdentity L.Json) :=
  if NeedsClaims msg e2e then
    (L.parseJson (L.pubkeyObject (L.encodeStandard sender.keys.2))).map fun json =>
      ⟨⟨sender.id, ts, (ts + p.validityWindow) % 2 ^ 64, json⟩, true⟩
  else none

section Issued

variable {sender : SharedSecret} {ts : Nat} {nonceBytes : Bytes}

theorem Issued.entryOf {now : Nat} (h : Issued L sender p now ts nonceBytes msg) :
    entryOf msg.identity.toList = some ⟨L.encode nonceBytes, ts⟩ := by
  obtain ⟨token, htoken, hidentity⟩ := h.token
  rw [hidentity, String.toList_ofList]
  exact entryOf_getToken h.representable htoken

theorem Issued.verifyToken (h : Issued L sender p (clock s.readings) ts nonceBytes msg)
    (htag : ∀ secret message, (L.hmac secret message).length = HMAC_TAG_LEN)
    (henabled : p.replayCacheEnabled)
    (hnew : ⟨L.encode nonceBytes, ts⟩ ∉ s.cache.entries) :
    (p.verifyToken L clock msg.identity.toList s).1 = .ok () := by
  obtain ⟨token, htoken, hidentity⟩ := h.token
  rw [hidentity, String.toList_ofList]
  have hcheck := checkToken_getToken htag h.secret h.representable htoken h.skew h.age
  have hpass : (p.tryVerify L.toAuthLib clock token s).1 = .ok () := by
    rcases tryVerify_cases L.toAuthLib clock henabled token s with
      ⟨err, heq⟩ | ⟨e, hok, heq⟩
    · -- the checks do not fail
      have hrun : p.tryVerify L.toAuthLib clock token s =
          (ofExcept (p.checkToken L.toAuthLib (clock s.readings) token) >>= fun e =>
            p.recordReplay e (clock s.readings)) ⟨s.cache, s.readings + 1⟩ := rfl
      rw [hrun, hcheck, ofExcept_ok_bind_run, recordReplay, if_pos henabled]
      exact ReplayCache.insert_of_not_mem hnew
    · rw [heq]
      obtain rfl := Except.ok.inj (hcheck.symm.trans hok)
      exact ReplayCache.insert_of_not_mem hnew
  rcases verifyToken_cases L clock henabled token s with ⟨-, heq⟩ | ⟨hfail, -⟩
  · rw [heq]
    exact hpass
  · exact absurd hpass hfail

end Issued

/-! ## Libraries and keys -/

structure Lawful (L : IdentityLib) : Prop where
  hmac_length : ∀ secret message, (L.hmac secret message).length = HMAC_TAG_LEN
  pubkeyObject_ne_nil : ∀ text, L.pubkeyObject text ≠ []
  parse_pubkeyObject : ∀ key, ∃ json,
    L.parseJson (L.pubkeyObject (L.encodeStandard key)) = some json ∧
      L.pubkey json = some (L.encodeStandard key)

/-- What is signed with the secret key can be verified with the public one. -/
def KeyPair (L : IdentityLib) (keys : Bytes × Bytes) : Prop :=
  ∀ input sig, L.sign input keys.1 keys.2 = some sig → L.verifySignature input sig keys.2

/-! ## With a cache -/

/-- With a replay cache that is never full, the first call on a message with an issued token accepts
it and any later call on a message with the same token refuses it exactly if the claims are not
asked for. -/
theorem verifyIdentity_first_use_iff (L : IdentityLib)
    (htag : ∀ secret message, (L.hmac secret message).length = HMAC_TAG_LEN)
    {sender p : SharedSecret} (henabled : p.replayCacheEnabled) {clock : Nat → Nat}
    (hmono : Monotone clock) {ts : Nat} {nonceBytes : Bytes} {msg copy : SignedPublish}
    (hcopy : copy.identity = msg.identity) (e2e e2e' : Bool) (before between : List Verification)
    (hissued : Issued L sender p
      (clock (before.foldl (p.verification L clock) p.initialState).readings) ts nonceBytes msg)
    (hnew : ∀ c ∈ before, entryOf c.msg.identity.toList ≠ entryOf msg.identity.toList)
    (hroom : Run.Meets (p.verification L clock) (fun s _ => HasRoom s) p.initialState
      (before ++ ⟨msg, e2e⟩ :: between)) :
    ((p.verifyIdentity L clock msg e2e (before.foldl (p.verification L clock) p.initialState)).1 =
          .ok (identityOf L sender p ts msg e2e) ∧
        ∃ err, (p.verifyIdentity L clock copy e2e'
          ((before ++ ⟨msg, e2e⟩ :: between).foldl (p.verification L clock) p.initialState)).1 =
            .err err) ↔ ¬ NeedsClaims msg e2e := by
  rw [Run.meets_append] at hroom
  rw [List.foldl_append]
  obtain ⟨-, hroom⟩ := hroom
  generalize hstart : before.foldl (p.verification L clock) p.initialState = start at *
  have hentry := hissued.entryOf
  have hfresh : ⟨L.encode nonceBytes, ts⟩ ∉ start.cache.entries := by
    intro hmem
    rw [← hstart] at hmem
    rcases mem_of_mem_run henabled before hmem with hmem | ⟨c, hc, hsame⟩
    · exact absurd hmem (by simp [initialState, ReplayCache.new])
    · exact hnew c hc (hsame.trans hentry.symm)
  have hpass := hissued.verifyToken htag henabled hfresh
  constructor
  · rintro ⟨hfirst, -⟩ hneeds
    rcases verifyIdentity_cases L clock henabled msg e2e start with
    ⟨err, herr, -⟩ | ⟨-, hnot, -⟩ | ⟨-, -, err, herr, -⟩
    · rw [hpass] at herr
      cases herr
    · exact hnot hneeds
    · rw [hfirst] at herr
      cases herr
  · intro hneeds
    obtain ⟨e, he, hspent⟩ := spent_of_verifyToken henabled hpass
    rcases verifyIdentity_cases L clock henabled msg e2e start with
    ⟨err, herr, -⟩ | ⟨-, -, heq⟩ | ⟨-, hclaims, -⟩
    · rw [hpass] at herr
      cases herr
    · refine ⟨by rw [heq, identityOf, if_neg hneeds], ?_⟩
      refine verifyIdentity_of_spent henabled hmono (by rw [hcopy]; exact he) ?_
      refine Spent.run henabled hmono between hroom.2 ?_
      rw [verification, heq]
      exact hspent
    · exact absurd hclaims hneeds

/-! ### An instance -/

/-- Libraries for examples: a checksum in place of HMAC, and signatures that anybody can make. -/
def sampleLib : IdentityLib where
  hmac secret message := (List.range HMAC_TAG_LEN).map fun i =>
    .ofNat (i + ((secret.toList ++ message).map Char.toNat).sum)
  Json := List Char
  pubkeyObject text := 0x7B :: text.map fun c => .ofNat c.toNat
  parseJson bytes := some (bytes.tail.map fun b => Char.ofNat b.toNat)
  emptyObject := []
  pubkey json := some json
  sign input _ publicKey := some (input ++ publicKey)
  verifySignature input sig publicKey := sig = input ++ publicKey
  encodeAad aad := SignedPublish.utf8 aad.identity
  encodePayload _ := []

theorem lawful_sampleLib : Lawful sampleLib where
  hmac_length _ _ := by simp [sampleLib]
  pubkeyObject_ne_nil _ := nofun
  parse_pubkeyObject key := by
    refine ⟨_, rfl, ?_⟩
    show some (((encodePadded standard key).map fun c => UInt8.ofNat c.toNat).map
      fun b => Char.ofNat b.toNat) = _
    rw [List.map_map]
    refine congrArg some ((List.map_congr_left fun c hc => ?_).trans (List.map_id _))
    have hsmall : ∀ i, (standard.char i).toNat < 256 := by decide +kernel
    have hc : c.toNat < 256 := by
      rcases List.mem_append.mp hc with h | h
      · obtain ⟨i, rfl⟩ := mem_encode h
        exact hsmall i
      · rw [List.eq_of_mem_replicate h]
        decide
    show Char.ofNat (UInt8.ofNat c.toNat).toNat = c
    rw [UInt8.toNat_ofNat_of_lt' hc, Char.ofNat_toNat]

def sampleSecret : SharedSecret where
  id := "alice_12345678".toList
  sharedSecret := "0123456789abcdef0123456789abcdef"
  validityWindow := DEFAULT_VALIDITY_WINDOW
  clockSkew := DEFAULT_CLOCK_SKEW
  replayCacheEnabled := true
  replayCacheMax := 1
  keys := ([1], [2])
  no_colon := by decide +kernel

/-- A join request with a token that was issued at the time 1000. -/
def samplePublish : Publish where
  source := ⟨none, none⟩
  destination := ⟨none, none⟩
  identity := match sampleSecret.getToken sampleLib.toAuthLib 1000 [7] with
    | .ok token => String.ofList token
    | .error _ => ""
  session := ⟨0, SessionMessageType.JoinRequest.toWire, 1, 1⟩
  payload := none

theorem keyPair_sampleSecret : KeyPair sampleLib sampleSecret.keys := by
  intro input sig h
  cases h
  exact decide_eq_true rfl

theorem issued_sample (msg : SignedPublish) (h : msg.identity = samplePublish.identity) :
    Issued sampleLib sampleSecret sampleSecret 1000 1000 [7] msg where
  secret := rfl
  representable := by decide
  token := by
    have hne : ¬ sampleSecret.sharedSecret.isEmpty := by decide +kernel
    refine ⟨_, if_neg hne, ?_⟩
    rw [h, samplePublish, getToken, if_neg hne]
  skew := by decide
  age := by decide

def sampleVerification : Verification := ⟨⟨samplePublish, none⟩, false⟩

/-- Where the claims are not asked for, the request passes once. -/
theorem verifyIdentity_first_use_iff_sample :
    (sampleSecret.verifyIdentity sampleLib (fun _ => 1000) sampleVerification.msg false
        ([].foldl (sampleSecret.verification sampleLib fun _ => 1000)
          sampleSecret.initialState)).1 =
          .ok (identityOf sampleLib sampleSecret sampleSecret 1000 sampleVerification.msg false) ∧
      ∃ err, (sampleSecret.verifyIdentity sampleLib (fun _ => 1000) sampleVerification.msg false
        (([] ++ [⟨sampleVerification.msg, false⟩] : List Verification).foldl
          (sampleSecret.verification sampleLib fun _ => 1000) sampleSecret.initialState)).1 =
            .err err := by
  have hissued := issued_sample sampleVerification.msg rfl
  have hcopy := Eq.refl sampleVerification.msg.identity
  have hroom : HasRoom sampleSecret.initialState := by decide
  have hneeds : ¬ NeedsClaims sampleVerification.msg false := nofun
  exact (verifyIdentity_first_use_iff sampleLib lawful_sampleLib.hmac_length rfl
    monotone_const hcopy false false [] [] hissued (fun _ h => absurd h List.not_mem_nil)
    ⟨hroom, trivial⟩).mpr hneeds

/-- Not every message that an honest sender signed and whose token is fresh is accepted, with an
empty cache that is not full. -/
theorem not_verifyIdentity_first_use :
    ¬ ∀ (L : IdentityLib) (sender p : SharedSecret) (clock : Nat → Nat) (ts : Nat)
      (nonceBytes : Bytes)
        (m : Publish) (msg copy : SignedPublish), Lawful L → KeyPair L sender.keys →
        p.replayCacheEnabled → Monotone clock → m.type.isCommandMessage →
        sender.signOutboundControlMessage L m = .ok msg → copy.identity = msg.identity →
        Issued L sender p (clock 0) ts nonceBytes msg → HasRoom p.initialState →
        (p.verifyIdentity L clock msg true p.initialState).1 =
            .ok (identityOf L sender p ts msg true) ∧
          ∃ err, (p.verifyIdentity L clock copy true
            (p.verifyIdentity L clock msg true p.initialState).2).1 = .err err := by
  intro h
  obtain ⟨hfirst, -⟩ := h sampleLib sampleSecret sampleSecret (fun _ => 1000) 1000 [7] samplePublish
    _ _ lawful_sampleLib keyPair_sampleSecret rfl monotone_const (by decide) rfl rfl
    (issued_sample _ rfl) (by decide)
  rcases verifyIdentity_cases sampleLib (fun _ => 1000) (p := sampleSecret) rfl _ true
    sampleSecret.initialState with ⟨err, -, heq⟩ | ⟨-, hnot, -⟩ | ⟨-, -, err, herr, -⟩
  · rw [heq] at hfirst
    cases hfirst
  · exact hnot ⟨rfl, by decide⟩
  · rw [hfirst] at herr
    cases herr

end Slim.SharedSecret
