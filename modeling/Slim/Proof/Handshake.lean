import Slim.Handshake

/-!
# Agreement of the two ends of a link

`negotiation_agrees`: when the two ends of a link exchange their messages unmodified and both
succeed, they have the same link id and the same header MAC session, or both none. What each side
can have done is read off its result (`finishClient_ok`, `finishServer_ok`); the request says which
derivation the responder makes, and the reply whether the initiator derives at all.

`enforced_iff`: a negotiation that enforces the hybrid key agreement ends with a session of it,
except for a responder that does not require the MAC and gets a key of the wrong length.
-/

namespace Slim

namespace LinkCrypto

variable {Key KemKey Coins : Type} (cr : LinkCrypto Key KemKey Coins)

theorem deriveWith_symm (info : HkdfInfo) (extra : Bytes) (a b : Key) (linkId : String) :
    cr.deriveWith info extra a (cr.publicKey b) linkId =
      cr.deriveWith info extra b (cr.publicKey a) linkId := by
  unfold deriveWith
  rw [cr.publicKey_length, cr.publicKey_length, cr.agree_symm]

end LinkCrypto

namespace LinkConn

variable {Version : Type} {linkId : String} {version : Version}

theorem completeNegotiationAsServer_some {c c' : LinkConn Version}
    (h : c.completeNegotiationAsServer linkId version = some c') :
    c.remoteSlimVersion = none ∧ linkId ≠ "" ∧
      c' = { c with linkId := some linkId, remoteSlimVersion := some version } := by
  unfold completeNegotiationAsServer at h
  split_ifs at h with hv hl
  exact ⟨by simpa using hv, hl, (Option.some.inj h).symm⟩

theorem completeNegotiationAsClient_some {c c' : LinkConn Version}
    (h : c.completeNegotiationAsClient linkId version = some c') :
    c.linkId = some linkId ∧ c' = { c with remoteSlimVersion := some version } := by
  unfold completeNegotiationAsClient at h
  split_ifs at h with hv hl
  exact ⟨not_not.mp hl, (Option.some.inj h).symm⟩

section
variable (c : LinkConn Version) (nodeId : String)
include c

@[simp] theorem notePeer_linkId : (c.notePeer nodeId).linkId = c.linkId := by
  unfold notePeer
  split <;> rfl

@[simp] theorem notePeer_headerHmac :
    (c.notePeer nodeId).headerHmac = c.headerHmac := by
  unfold notePeer
  split <;> rfl

@[simp] theorem notePeer_requireHeaderMac :
    (c.notePeer nodeId).requireHeaderMac = c.requireHeaderMac := by
  unfold notePeer
  split <;> rfl

@[simp] theorem notePeer_channelOpen :
    (c.notePeer nodeId).channelOpen = c.channelOpen := by
  unfold notePeer
  split <;> rfl

section
variable (mac : Option HeaderMacSession)
include mac

@[simp] theorem install_requireHeaderMac :
    (c.install mac).requireHeaderMac = c.requireHeaderMac := by
  cases mac <;> rfl

@[simp] theorem install_linkId : (c.install mac).linkId = c.linkId := by
  cases mac <;> rfl

@[simp] theorem install_headerHmac : (c.install mac).headerHmac = mac.or c.headerHmac := by
  cases mac <;> rfl

end

end

end LinkConn

namespace Handshake

theorem refuse_ne_ok {α : Type} {reason : String} {a : α} : refuse reason ≠ .ok a := by
  intro h
  cases h

theorem bind_ok {α β : Type} {x : Result α} {f : α → Result β} {b : β}
    (h : x >>= f = .ok b) : ∃ a, x = .ok a ∧ f a = .ok b := by
  cases x with
  | error e => cases h
  | ok a => exact ⟨a, rfl, h⟩

theorem readPayload_ok {isClient enforcePqc : Bool} {incoming : Option (Except String Message)}
    {p : LinkNegotiationPayload} (h : readPayload isClient enforcePqc incoming = .ok p) :
    (∃ msg, incoming = some (.ok msg) ∧ msg.messageType = some (.link (some p))) ∧
      (isClient = true → enforcePqc = true → kemLen p = ML_KEM768_CIPHERTEXT_LEN) ∧
      (isClient = false → enforcePqc = true → kemLen p = ML_KEM768_PUBLIC_KEY_LEN) ∧
      (isClient = false → p.isReply = false) := by
  unfold readPayload at h
  split at h
  · exact absurd h refuse_ne_ok
  · exact absurd h refuse_ne_ok
  · rename_i msg
    split at h
    · exact absurd h refuse_ne_ok
    · rename_i q hmt
      split_ifs at h with h1 h2 h3 h4
      · exact absurd h refuse_ne_ok
      · exact absurd h refuse_ne_ok
      · exact absurd h refuse_ne_ok
      · exact absurd h refuse_ne_ok
      · cases h
        refine ⟨⟨msg, rfl, hmt⟩, fun hc he => ?_, fun hc he => ?_, fun hc => ?_⟩
        · exact not_not.mp fun hl => h1 ⟨hc, he, hl⟩
        · exact not_not.mp fun hl => h2 ⟨by simp [hc], he, hl⟩
        · exact Bool.eq_false_iff.mpr fun hr => h4 ⟨by simp [hc], hr⟩
    · exact absurd h refuse_ne_ok
    · cases h

section
variable {Key KemKey Coins Version : Type} {cr : LinkCrypto Key KemKey Coins}
  {parse : String → Except String Version} {c c' : LinkConn Version} {params : NegotiationParams}
  {draws : Draws Key KemKey Coins} {kem : Option KemKey} {p : LinkNegotiationPayload}
  {incoming : Option (Except String Message)} {r : NegotiationResult} {sk : Key} {version : Version}
  {mac : HeaderMacSession}

/-! ## The initiator -/

theorem clientRequest_ok {msg : Message}
    (h : clientRequest cr c params draws = .ok (sk, kem, msg)) : kem.isSome = params.enforcePqc ∧
      msg = buildLinkNegotiation (c.linkId.getD "") params.localVersion false
        (some (cr.publicKey sk)) (kem.map cr.kemPublicKey) (connTypeToLink params.connectionType)
        params.nodeId params.deploymentName := by
  unfold clientRequest at h
  cases hd : draws.ephemeral with
  | none => simp [hd, refuse] at h
  | some sk' =>
    rw [hd] at h
    cases hpqc : params.enforcePqc with
    | false =>
      simp only [hpqc, Bool.false_eq_true, ↓reduceIte] at h
      split_ifs at h
      · cases h
        exact ⟨rfl, rfl⟩
      · exact absurd h refuse_ne_ok
    | true =>
      cases hk : draws.kem with
      | none => simp [hpqc, hk, refuse] at h
      | some k =>
        simp only [hk] at h
        split_ifs at h
        · cases h
          exact ⟨rfl, rfl⟩
        · exact absurd h refuse_ne_ok

theorem finishClient_ok (h : finishClient cr c params sk kem p version = .ok c') :
    c.linkId = some p.linkId ∧ c'.linkId = some p.linkId ∧
      (∃ mac, clientMac cr params sk kem p = .ok mac ∧ c'.headerHmac = mac.or c.headerHmac) ∧
      (params.enforcePqc = true ∨ c.requireHeaderMac = true → c'.headerHmac ≠ none) := by
  unfold finishClient at h
  split_ifs at h with hstrict
  · exact absurd h refuse_ne_ok
  · cases hn : c.completeNegotiationAsClient p.linkId version with
    | none =>
      rw [hn] at h
      exact absurd h refuse_ne_ok
    | some c1 =>
      obtain ⟨hl, rfl⟩ := LinkConn.completeNegotiationAsClient_some hn
      rw [hn] at h
      cases hm : clientMac cr params sk kem p with
      | error e => simp [hm] at h
      | ok mac =>
        simp only [hm] at h
        split_ifs at h with h1 h2
        · exact absurd h refuse_ne_ok
        · exact absurd h refuse_ne_ok
        · cases h
          refine ⟨hl, by simp [hl], ⟨mac, rfl, by simp⟩, fun hor hnone => ?_⟩
          rw [Option.isNone_iff_eq_none] at h1 h2
          cases hor with
          | inl he => exact h1 ⟨he, hnone⟩
          | inr hr => exact h2 ⟨by simpa using hr, hnone⟩

/-! ## The responder -/

/-- The session of the responder with the two keys of its reply: derived, or left as it was. -/
inductive Keyed (cr : LinkCrypto Key KemKey Coins) (params : NegotiationParams)
    (draws : Draws Key KemKey Coins) (p : LinkNegotiationPayload) (old : Option HeaderMacSession) :
    Option HeaderMacSession → Option Bytes → Option Bytes → Prop
  | derived {sk : Key} {mac : HeaderMacSession} {kem : Option Bytes}
    (hsk : draws.ephemeral = some sk)
      (h : serverDerive cr params sk draws.coins p = (.ok mac, kem)) :
      Keyed cr params draws p old (some mac) (some (cr.publicKey sk)) kem
  | left (kem : Option Bytes) : Keyed cr params draws p old old none kem

theorem serverKeys_ok {ecdh kem : Option Bytes}
    (h : serverKeys cr c params draws p = .ok (c', ecdh, kem)) :
    c' = { c with headerHmac := c'.headerHmac } ∧
      (params.enforcePqc = true → p.linkEcdhPublicKey.length = X25519_PUBLIC_KEY_LEN →
        c'.headerHmac ≠ none) ∧ Keyed cr params draws p c.headerHmac c'.headerHmac ecdh kem := by
  unfold serverKeys at h
  by_cases hlen : p.linkEcdhPublicKey.length = X25519_PUBLIC_KEY_LEN
  · rw [if_pos hlen] at h
    cases hd : draws.ephemeral with
    | none =>
      rw [hd] at h
      exact absurd h refuse_ne_ok
    | some sk =>
      simp only [hd] at h
      rcases hs : serverDerive cr params sk draws.coins p with ⟨mac | mac, k⟩
      · simp only [hs] at h
        split_ifs at h with h1 h2
        · exact absurd h refuse_ne_ok
        · exact absurd h refuse_ne_ok
        · cases h
          exact ⟨rfl, fun he _ hnone => h2 ⟨he, by rw [hnone]; rfl⟩, .left _⟩
      · simp only [hs] at h
        cases h
        exact ⟨rfl, fun _ _ => nofun, .derived hd hs⟩
  · rw [if_neg hlen] at h
    cases h
    exact ⟨rfl, fun _ he => absurd he hlen, .left _⟩

theorem finishServer_ok {reply : Message}
    (h : finishServer cr c params draws p version = .ok (c', reply)) :
    c.remoteSlimVersion = none ∧ c.channelOpen = true ∧ p.linkId ≠ "" ∧
      c'.linkId = some p.linkId ∧
      (c.requireHeaderMac = true → p.linkEcdhPublicKey.length = X25519_PUBLIC_KEY_LEN ∧
        c'.headerHmac ≠ none) ∧
      (params.enforcePqc = true → p.linkEcdhPublicKey.length = X25519_PUBLIC_KEY_LEN →
        c'.headerHmac ≠ none) ∧ ∃ ecdh kem,
      Keyed cr params draws p c.headerHmac c'.headerHmac ecdh kem ∧
      reply = buildLinkNegotiation p.linkId params.localVersion true ecdh kem
        (p.connectionType.getD .Remote) params.nodeId params.deploymentName := by
  unfold finishServer at h
  split_ifs at h with hstrict
  · exact absurd h refuse_ne_ok
  · cases hn : c.completeNegotiationAsServer p.linkId version with
    | none =>
      rw [hn] at h
      exact absurd h refuse_ne_ok
    | some c1 =>
      obtain ⟨hfirst, hl, rfl⟩ := LinkConn.completeNegotiationAsServer_some hn
      simp only [hn] at h
      rcases hk : serverKeys cr (LinkConn.notePeer { c with
          linkId := some p.linkId, remoteSlimVersion := some version } p.nodeId) params draws p with
        e | ⟨c2, ecdh, kem⟩
      · simp [hk] at h
      · obtain ⟨hc2, hpqc, hkeyed⟩ := serverKeys_ok hk
        simp only [hk] at h
        split_ifs at h with hnone hopen
        · exact absurd h refuse_ne_ok
        · cases h
          refine ⟨hfirst, ?_, hl, by rw [hc2]; simp,
            fun hr =>
              ⟨not_not.mp fun hlen => hstrict ⟨hr, hlen⟩, fun hn => hnone ⟨?_, by rw [hn]; rfl⟩⟩,
            hpqc, ecdh, kem, by simpa using hkeyed, rfl⟩
          · rw [hc2] at hopen
            simpa using hopen
          · rw [hc2]
            simpa using hr
        · exact absurd h refuse_ne_ok

/-! ## Agreement -/

/-- The initiator derives the session of the responder from its reply. -/
theorem clientMac_of_keyed {pc ps : NegotiationParams} {ds : Draws Key KemKey Coins} {skc : Key}
    {kc : Option KemKey} {req rep : LinkNegotiationPayload} {mac mac' : Option HeaderMacSession}
    {ecdh kem : Option Bytes} (hkc : kc.isSome = pc.enforcePqc)
    (hreqE : req.linkEcdhPublicKey = cr.publicKey skc)
    (hreqK : req.linkKemPayload = kc.map cr.kemPublicKey)
    (hrepE : rep.linkEcdhPublicKey = ecdh.getD []) (hrepK : rep.linkKemPayload = kem)
    (hlink : rep.linkId = req.linkId)
    (hpqcS : ps.enforcePqc = true → kemLen req = ML_KEM768_PUBLIC_KEY_LEN)
    (hpqcC : pc.enforcePqc = true → kemLen rep = ML_KEM768_CIPHERTEXT_LEN)
    (hk : Keyed cr ps ds req none mac ecdh kem) (hm : clientMac cr pc skc kc rep = .ok mac') :
    mac' = mac := by
  unfold clientMac at hm
  cases hk with
  | left kem =>
    have hlen : ¬ rep.linkEcdhPublicKey.length = X25519_PUBLIC_KEY_LEN := by
      rw [hrepE]
      decide
    rw [if_neg hlen] at hm
    cases hm
    rfl
  | @derived sks m kem hsk hd =>
    have hlen : rep.linkEcdhPublicKey.length = X25519_PUBLIC_KEY_LEN := by
      rw [hrepE]
      exact cr.publicKey_length sks
    rw [if_pos hlen, hrepE, hlink] at hm
    unfold serverDerive at hd
    cases kc with
    | none =>
      -- no key encapsulation was asked for, so the responder does not enforce it
      have hpc : pc.enforcePqc = false := hkc.symm
      have hklen : kemLen req = 0 := by simp [kemLen, hreqK]
      have hps : ¬ (ps.enforcePqc = true ∨ kemLen req = ML_KEM768_PUBLIC_KEY_LEN) := by
        intro h
        cases h with
        | inl he => have := hpqcS he; rw [hklen] at this; cases this
        | inr he => rw [hklen] at he; cases he
      rw [if_neg hps, hreqE] at hd
      have hsame : cr.derive skc (cr.publicKey sks) req.linkId = .ok m :=
        (cr.deriveWith_symm .Classical [] skc sks req.linkId).trans (Prod.mk.inj hd).1
      rw [hpc, Option.getD_some, hsame] at hm
      cases hm
      rfl
    | some k =>
      have hpc : pc.enforcePqc = true := hkc.symm
      rw [hpc] at hm
      by_cases hhyb : ps.enforcePqc = true ∨ kemLen req = ML_KEM768_PUBLIC_KEY_LEN
      · rw [if_pos hhyb, hreqK, Option.map_some] at hd
        cases henc : cr.encapsulate (cr.kemPublicKey k) ds.coins with
        | none => simp [henc] at hd
        | some x =>
          obtain ⟨ct, shared⟩ := x
          simp only [henc, Prod.mk.injEq] at hd
          obtain ⟨hmac, rfl⟩ := hd
          rw [hreqE] at hmac
          have hsame : cr.deriveHybrid skc (cr.publicKey sks) shared req.linkId = .ok m :=
            (cr.deriveWith_symm .PostQuantum shared skc sks req.linkId).trans hmac
          simp only [hrepK, cr.decapsulate_encapsulate k ds.coins ct shared henc, Option.getD_some,
            hsame] at hm
          cases hm
          rfl
      · -- the reply has no ciphertext, which the initiator does not accept
        rw [if_neg hhyb] at hd
        obtain ⟨-, rfl⟩ := Prod.mk.inj hd
        have := hpqcC hpc
        simp [kemLen, hrepK, ML_KEM768_CIPHERTEXT_LEN] at this

theorem runNegotiation_client (hc : c.isOutgoing = true)
    (h : (runNegotiation cr parse c params draws incoming).2 = .ok (r, c')) :
    ∃ sk kem request p version, clientRequest cr c params draws = .ok (sk, kem, request) ∧
      (runNegotiation cr parse c params draws incoming).1 = [request] ∧
      readPayload true params.enforcePqc incoming = .ok p ∧
      finishClient cr c params sk kem p version = .ok c' := by
  unfold runNegotiation at h ⊢
  rw [if_pos hc] at h ⊢
  rcases hreq : clientRequest cr c params draws with e | ⟨sk, kem, request⟩
  · simp [hreq] at h
  · simp only [hreq] at h
    obtain ⟨p, hp, h⟩ := bind_ok h
    obtain ⟨version, -, h⟩ := bind_ok h
    obtain ⟨c1, hf, h⟩ := bind_ok h
    cases h
    exact ⟨sk, kem, request, p, version, rfl, rfl, hp, hf⟩

theorem runNegotiation_server (hc : c.isOutgoing = false)
    (h : (runNegotiation cr parse c params draws incoming).2 = .ok (r, c')) :
    ∃ p version reply, readPayload false params.enforcePqc incoming = .ok p ∧
      readVersion parse p = .ok version ∧
      finishServer cr c params draws p version = .ok (c', reply) ∧
      (runNegotiation cr parse c params draws incoming).1 = [reply] := by
  unfold runNegotiation at h ⊢
  rw [if_neg (by simp [hc])] at h ⊢
  split at h
  · cases h
  · rename_i reply x hx
    cases h
    obtain ⟨p, hp, hx'⟩ := bind_ok hx
    obtain ⟨version, hv, hx'⟩ := bind_ok hx'
    obtain ⟨y, hf, hx'⟩ := bind_ok hx'
    cases hx'
    exact ⟨p, version, _, hp, hv, hf, rfl⟩

/-- **Agreement.** Each side gets what the other sent. If both succeed, they have the same link id
and the same session, or both none. -/
theorem negotiation_agrees (cr : LinkCrypto Key KemKey Coins)
    (parse : String → Except String Version) (client server client' server' : LinkConn Version)
    (pc ps : NegotiationParams) (dc ds : Draws Key KemKey Coins)
    (toClient toServer : Option (Except String Message)) (rc rs : NegotiationResult)
    (hc : client.isOutgoing = true) (hs : server.isOutgoing = false)
    (hnewC : client.headerHmac = none) (hnewS : server.headerHmac = none)
    (hreq : toServer = ((runNegotiation cr parse client pc dc toClient).1.head?).map .ok)
    (hrep : toClient = ((runNegotiation cr parse server ps ds toServer).1.head?).map .ok)
    (hokC : (runNegotiation cr parse client pc dc toClient).2 = .ok (rc, client'))
    (hokS : (runNegotiation cr parse server ps ds toServer).2 = .ok (rs, server')) :
    (∃ linkId, linkId ≠ "" ∧ client'.linkId = some linkId ∧ server'.linkId = some linkId) ∧
      client'.headerHmac = server'.headerHmac := by
  obtain ⟨skc, kc, request, rep, vc, hrequest, hsentC, hreadC, hfinC⟩ :=
    runNegotiation_client hc hokC
  obtain ⟨req, vs, reply, hreadS, -, hfinS, hsentS⟩ := runNegotiation_server hs hokS
  obtain ⟨hkc, hreqMsg⟩ := clientRequest_ok hrequest
  obtain ⟨-, -, hne, hlinkS, -, -, ecdh, kem, hkeyed, hreply⟩ := finishServer_ok hfinS
  obtain ⟨-, hlinkC, ⟨mac, hmac, hhmacC⟩, -⟩ := finishClient_ok hfinC
  obtain ⟨⟨m1, hm1, hp1⟩, hpqcC, -⟩ := readPayload_ok hreadC
  obtain ⟨⟨m2, hm2, hp2⟩, -, hpqcS, -⟩ := readPayload_ok hreadS
  -- the payloads are those of the request and the reply
  have hreqP : m2 = request := by simpa [hsentC, hm2] using hreq
  have hrepP : m1 = reply := by simpa [hsentS, hm1] using hrep
  rw [hreqP, hreqMsg, buildLinkNegotiation] at hp2
  rw [hrepP, hreply, buildLinkNegotiation] at hp1
  obtain rfl : _ = req := by simpa using hp2
  obtain rfl : _ = rep := by simpa using hp1
  rw [hnewC, Option.or_none] at hhmacC
  rw [hnewS] at hkeyed
  refine ⟨⟨_, hne, hlinkC, hlinkS⟩, ?_⟩
  rw [hhmacC]
  refine clientMac_of_keyed hkc ?_ ?_ ?_ ?_ ?_ (hpqcS rfl) (hpqcC rfl) hkeyed hmac <;> rfl

/-! ## Enforcement -/

/-- The session comes from the hybrid derivation. -/
def Hybrid (cr : LinkCrypto Key KemKey Coins) (mac : HeaderMacSession) : Prop :=
  ∃ sk peer shared linkId, cr.deriveHybrid sk peer shared linkId = .ok mac

theorem exchanged_ok {x : Except HeaderMacError HeaderMacSession}
    (h : exchanged x = .ok (some mac)) : x = .ok mac := by
  cases x with
  | error e => cases h
  | ok m => cases h; rfl

theorem clientMac_hybrid (he : params.enforcePqc = true)
    (h : clientMac cr params sk kem p = .ok (some mac)) : Hybrid cr mac := by
  unfold clientMac at h
  rw [he] at h
  split at h
  · simp only [↓reduceIte] at h
    split at h
    · cases h
    · split at h
      · cases h
      · split at h
        · cases h
        · exact ⟨_, _, _, _, exchanged_ok h⟩
  · cases h

theorem serverDerive_hybrid {coins : Coins} {k : Option Bytes} (he : params.enforcePqc = true)
    (h : serverDerive cr params sk coins p = (.ok mac, k)) : Hybrid cr mac := by
  unfold serverDerive at h
  rw [if_pos (.inl he)] at h
  split at h
  · cases h
  · split at h
    · cases h
    · exact ⟨_, _, _, _, (Prod.mk.inj h).1⟩

/-- A negotiation that returns `Ok` has the sessions that are asked for. -/
def Enforced (cr : LinkCrypto Key KemKey Coins) (parse : String → Except String Version)
    (c : LinkConn Version) (params : NegotiationParams) (draws : Draws Key KemKey Coins)
    (incoming : Option (Except String Message)) : Prop :=
  ∀ r c', (runNegotiation cr parse c params draws incoming).2 = .ok (r, c') →
    (params.enforcePqc = true → ∃ mac, c'.headerHmac = some mac ∧ Hybrid cr mac) ∧
      (c.requireHeaderMac = true → c'.headerHmac.isSome)

/-- The responder enforces the hybrid agreement but does not require the MAC, and gets an acceptable
request with a KEM key and without an X25519 key of the right length. -/
def Bypass (parse : String → Except String Version) (c : LinkConn Version)
    (params : NegotiationParams) (incoming : Option (Except String Message)) : Prop :=
  c.isOutgoing = false ∧ params.enforcePqc = true ∧ c.requireHeaderMac = false ∧
    c.channelOpen = true ∧ c.remoteSlimVersion = none ∧
    ∃ msg p version, incoming = some (.ok msg) ∧ msg.messageType = some (.link (some p)) ∧
      p.isReply = false ∧ kemLen p = ML_KEM768_PUBLIC_KEY_LEN ∧ p.linkId ≠ "" ∧
      parse p.slimVersion = .ok version ∧ p.linkEcdhPublicKey.length ≠ X25519_PUBLIC_KEY_LEN

/-- **What enforcement of the hybrid key agreement does**, on a connection without a session. -/
theorem enforced_iff (cr : LinkCrypto Key KemKey Coins) (parse : String → Except String Version)
    (c : LinkConn Version) (params : NegotiationParams) (draws : Draws Key KemKey Coins)
    (incoming : Option (Except String Message)) (hnew : c.headerHmac = none) :
    Enforced cr parse c params draws incoming ↔ ¬ Bypass parse c params incoming := by
  constructor
  · rintro h ⟨hs, he, hreq, hopen, hver, msg, p, version, rfl, hmt, hrep, hkem, hlink, hp, hlen⟩
    -- the request is answered without keys
    have hcomplete : c.completeNegotiationAsServer p.linkId version =
        some { c with linkId := some p.linkId, remoteSlimVersion := some version } := by
      simp [LinkConn.completeNegotiationAsServer, hver, hlink]
    have hkeys : ∀ c₁ : LinkConn Version, serverKeys cr c₁ params draws p = .ok (c₁, none, none) :=
      fun c₁ => if_neg hlen
    have hfin : ∃ c' reply, finishServer cr c params draws p version = .ok (c', reply) ∧
        c'.headerHmac = none := by
      unfold finishServer
      rw [if_neg (by simp [hreq]), hcomplete]
      simp only [hkeys]
      rw [if_neg (by simp [hreq]), if_pos (by simpa using hopen)]
      exact ⟨_, _, rfl, by simpa using hnew⟩
    obtain ⟨c', reply, hfin, hnone⟩ := hfin
    have hread : readPayload false params.enforcePqc (some (.ok msg)) = .ok p := by
      simp [readPayload, hmt, hkem, hrep]
    have hversion : readVersion parse p = .ok version := by simp [readVersion, hp]
    have hrun : (runNegotiation cr parse c params draws (some (.ok msg))).2 =
        .ok (.ofPayload p, c') := by
      simp [runNegotiation, hs, hread, hversion, hfin, bind, Except.bind, pure, Except.pure]
    obtain ⟨mac, hmac, -⟩ := (h _ c' hrun).1 he
    rw [hnone] at hmac
    cases hmac
  · intro h r c' hrun
    cases hc : c.isOutgoing with
    | true =>
      obtain ⟨sk, kem, request, p, version, -, -, -, hfin⟩ := runNegotiation_client hc hrun
      obtain ⟨-, -, ⟨mac, hmac, hhmac⟩, hsome⟩ := finishClient_ok hfin
      rw [hnew, Option.or_none] at hhmac
      subst hhmac
      refine ⟨fun he => ?_, fun hr => Option.isSome_iff_ne_none.mpr (hsome (.inr hr))⟩
      obtain ⟨m, hm⟩ := Option.ne_none_iff_exists'.mp (hsome (.inl he))
      exact ⟨m, hm, clientMac_hybrid he (hm ▸ hmac)⟩
    | false =>
      obtain ⟨p, version, reply, hread, hversion, hfin, -⟩ := runNegotiation_server hc hrun
      obtain ⟨hfirst, hopen, hlink, -, hstrict, hpqc, ecdh, k, hkeyed, -⟩ := finishServer_ok hfin
      obtain ⟨⟨msg, hmsg, hmt⟩, -, hkem, hrep⟩ := readPayload_ok hread
      refine ⟨fun he => ?_, fun hr => Option.isSome_iff_ne_none.mpr (hstrict hr).2⟩
      have hlen : p.linkEcdhPublicKey.length = X25519_PUBLIC_KEY_LEN := by
        by_contra hlen
        refine h
          ⟨hc, he, Bool.eq_false_iff.mpr fun hr => hlen (hstrict hr).1, hopen, hfirst, msg, p,
          version, hmsg, hmt, hrep rfl, hkem rfl he, hlink, ?_, hlen⟩
        unfold readVersion at hversion
        split at hversion
        · cases hversion
          assumption
        · exact absurd hversion refuse_ne_ok
      have hsome := hpqc he hlen
      rw [hnew] at hkeyed
      generalize c'.headerHmac = mac at hkeyed hsome ⊢
      cases hkeyed with
      | derived hsk hd => exact ⟨_, rfl, serverDerive_hybrid he hd⟩
      | left => exact absurd rfl hsome

end

/-! ## A link with both key agreements -/

/-- Keys are single bytes; a secret is what the two sides' bytes give together. -/
def toyCrypto : LinkCrypto UInt8 UInt8 UInt8 where
  publicKey k := List.replicate X25519_PUBLIC_KEY_LEN k
  agree a p := p.head?.map fun b => [a ^^^ b]
  kemPublicKey k := List.replicate ML_KEM768_PUBLIC_KEY_LEN k
  encapsulate _ coins := some (List.replicate ML_KEM768_CIPHERTEXT_LEN coins, [coins])
  decapsulate _ ct := ct.head?.map fun b => [b]
  hkdf _ ikm _ := some (List.replicate MIN_KEY_LEN (ikm.foldl (· + ·) 0))
  publicKey_length k := List.length_replicate
  agree_symm a b := by
    show some [a ^^^ b] = some [b ^^^ a]
    rw [UInt8.xor_comm]
  decapsulate_encapsulate k coins ct shared h := by
    cases h
    rfl

def pqcParams (nodeId : String) : NegotiationParams := ⟨nodeId, "d", .Peer, true, "1.0.0"⟩

def toyClient : LinkConn String :=
  { clientChannel := true, configData := true, linkId := some "link" }

def toyServer : LinkConn String := { clientChannel := false, configData := false }

def toyRequest : Option (Except String Message) :=
  ((runNegotiation toyCrypto .ok toyClient (pqcParams "a") ⟨some 3, some 4, 0⟩ none).1.head?).map
    .ok

def toyReply : Option (Except String Message) :=
  ((runNegotiation toyCrypto .ok toyServer (pqcParams "b") ⟨some 5, none, 9⟩
    toyRequest).1.head?).map .ok

def toySession : HeaderMacSession := ⟨.PostQuantum, List.replicate MIN_KEY_LEN 15⟩

theorem negotiation_agrees_hybrid :
    ∃ client server : LinkConn String,
      (runNegotiation toyCrypto .ok toyClient (pqcParams "a") ⟨some 3, some 4, 0⟩ toyReply).2 =
        .ok (⟨.Peer, "b", "d"⟩, client) ∧
      (runNegotiation toyCrypto .ok toyServer (pqcParams "b") ⟨some 5, none, 9⟩ toyRequest).2 =
        .ok (⟨.Peer, "a", "d"⟩, server) ∧
      client.headerHmac = some toySession ∧ client.headerHmac = server.headerHmac := by
  have hC :
      (runNegotiation toyCrypto .ok toyClient (pqcParams "a") ⟨some 3, some 4, 0⟩ toyReply).2 =
      .ok (⟨.Peer, "b", "d"⟩, { toyClient with
        remoteSlimVersion := some "1.0.0", headerHmac := some toySession,
        peerNodeId := some "b" }) := by
    decide +kernel
  have hS :
      (runNegotiation toyCrypto .ok toyServer (pqcParams "b") ⟨some 5, none, 9⟩ toyRequest).2 =
      .ok (⟨.Peer, "a", "d"⟩, { toyServer with
        linkId := some "link", remoteSlimVersion := some "1.0.0", headerHmac := some toySession
        peerNodeId := some "a" }) := by
    decide +kernel
  exact ⟨_, _, hC, hS, rfl,
    (negotiation_agrees toyCrypto .ok toyClient toyServer _ _ (pqcParams "a")
    (pqcParams "b") ⟨some 3, some 4, 0⟩ ⟨some 5, none, 9⟩ toyReply toyRequest _ _ rfl rfl rfl rfl
    (by decide +kernel) rfl hC hS).2⟩

theorem enforced_iff_toy :
    Enforced toyCrypto .ok toyServer (pqcParams "b") ⟨some 5, none, 9⟩ toyRequest := by
  refine (enforced_iff toyCrypto .ok toyServer (pqcParams "b") _ toyRequest rfl).mpr ?_
  rintro ⟨-, -, -, -, -, msg, p, version, hmsg, hmt, -, -, -, -, hlen⟩
  cases hmsg
  cases hmt
  exact hlen (by decide +kernel)

def keylessRequest : Message :=
  buildLinkNegotiation "link" "1.0.0" false none (some (toyCrypto.kemPublicKey 4)) .Peer "a" "d"

theorem enforcement_bypassed :
    ¬ ∀ (c : LinkConn String) (params : NegotiationParams)
      (incoming : Option (Except String Message)),
      c.headerHmac = none → Enforced toyCrypto .ok c params ⟨some 5, none, 9⟩ incoming := by
  intro h
  have hrun : (runNegotiation toyCrypto .ok toyServer (pqcParams "b") ⟨some 5, none, 9⟩
      (some (.ok keylessRequest))).2 = .ok (⟨.Peer, "a", "d"⟩, { toyServer with
        linkId := some "link", remoteSlimVersion := some "1.0.0", peerNodeId := some "a" }) := by
    decide +kernel
  obtain ⟨mac, hmac, -⟩ := (h toyServer (pqcParams "b") _ rfl _ _ hrun).1 rfl
  cases hmac

end Handshake

end Slim
