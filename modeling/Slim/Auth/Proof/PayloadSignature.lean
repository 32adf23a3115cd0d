import Mathlib.Data.Prod.Lex
import Mathlib.Data.String.Basic
import Slim.Auth.Proof.FirstUse
import Slim.Lib.Code

/-!
# What a payload signature covers

The signing input of a control message is the same for two messages only if they agree in all that
it is made of (`signingInput_eq_iff`): the length in front of each part tells where the part ends,
and the metadata is sorted. `payload_signature_binds` draws the conclusion for `verify_identity`,
with any verifier of tokens.
-/

namespace Slim

namespace SignedPublish

open Code (Delimits)

/-! ## Lengths and texts -/

theorem toBeBytes_eq (n : Nat) : toBeBytes n = (Code.leBytes 8 n).reverse := by
  have hmod (k : Nat) : UInt8.ofNat (k % 256) = UInt8.ofNat k := by
    rw [← UInt8.toNat_inj, UInt8.toNat_ofNat', UInt8.toNat_ofNat']
    omega
  simp [toBeBytes, Code.leBytes, List.range_succ, Nat.div_div_eq_div_mul, hmod]

theorem delimits_lengthPrefixed : Delimits lengthPrefixed fun bytes => bytes.length < 2 ^ 64 :=
  Code.delimits_prefixed (n := 8) (fun _ => by simp [toBeBytes]) fun hk hl h =>
    Code.leBytes_inj hk hl (by rwa [toBeBytes_eq, toBeBytes_eq, List.reverse_inj] at h)

theorem delimits_text :
    Delimits (fun s => lengthPrefixed (utf8 s)) fun s => (utf8 s).length < 2 ^ 64 :=
  delimits_lengthPrefixed.comp utf8
    (fun _ _ h => String.toByteArray_inj.mp (ByteArray.ext (Array.toList_inj.mp h))) fun _ h => h

/-! ## Metadata -/

/-- The signed metadata depends on the entries alone, as the keys of a map are distinct. -/
theorem signedMetadata_eq_iff {md md' : List (String × String)} (h : (md.map Prod.fst).Nodup)
    (h' : (md'.map Prod.fst).Nodup) : signedMetadata md = signedMetadata md' ↔
      ∀ e : String × String, e.1 ∉ UNSIGNED_METADATA → (e ∈ md ↔ e ∈ md') := by
  have hmem (md : List (String × String)) (e) :
      e ∈ signedMetadata md ↔ e ∈ md ∧ e.1 ∉ UNSIGNED_METADATA := by
    rw [signedMetadata, List.mem_insertionSort, List.mem_filter, decide_eq_true_iff]
  constructor
  · intro heq e he
    have := (hmem md e).symm.trans (heq ▸ hmem md' e)
    simpa only [he, not_false_eq_true, and_true] using this
  · intro hiff
    have hperm : (signedMetadata md).Perm (signedMetadata md') := by
      refine (List.perm_ext_iff_of_nodup ?_ ?_).mpr fun e => ?_
      · exact (List.perm_insertionSort _ _).nodup_iff.mpr (h.of_map.filter _)
      · exact (List.perm_insertionSort _ _).nodup_iff.mpr (h'.of_map.filter _)
      · rw [hmem, hmem]
        exact and_congr_left fun he => hiff e he
    have hle (e f : String × String) :
        (e.1 < f.1 ∨ e.1 = f.1 ∧ e.2 ≤ f.2) ↔ toLex e ≤ toLex f := Prod.Lex.le_iff.symm
    have htotal : Std.Total fun e f : String × String => e.1 < f.1 ∨ e.1 = f.1 ∧ e.2 ≤ f.2 :=
      ⟨fun e f => by rw [hle, hle]; exact le_total _ _⟩
    have htrans : IsTrans _ fun e f : String × String => e.1 < f.1 ∨ e.1 = f.1 ∧ e.2 ≤ f.2 :=
      ⟨fun e f g => by rw [hle, hle, hle]; exact le_trans⟩
    refine hperm.eq_of_pairwise (fun e f _ _ hef hfe => ?_) (List.pairwise_insertionSort _ _)
      (List.pairwise_insertionSort _ _)
    exact toLex.injective (le_antisymm ((hle e f).mp hef) ((hle f e).mp hfe))

/-! ## The signing input -/

/-- The bytes of the payload; an absent one is empty. -/
def encodedPayload (L : IdentityLib) (m : Publish) : Bytes :=
  (m.payload.map L.encodePayload).getD []

/-- Two messages that agree in all that is signed. -/
structure SignedAlike (L : IdentityLib) (m m' : Publish) : Prop where
  source : m.source = m'.source
  destination : m.destination = m'.destination
  identity : m.identity = m'.identity
  sessionType : SessionType.ofWire m.session.sessionType = SessionType.ofWire m'.session.sessionType
  type : m.type = m'.type
  sessionId : m.session.sessionId = m'.session.sessionId
  messageId : m.session.messageId = m'.session.messageId
  payloadType : (buildAad m).payloadType = (buildAad m').payloadType
  payload : encodedPayload L m = encodedPayload L m'
  metadata : ∀ e : String × String, e.1 ∉ UNSIGNED_METADATA → (e ∈ m.metadata ↔ e ∈ m'.metadata)

/-- A message as the code has it: its metadata is a map, and the length of every part is a
`usize`. -/
structure Regular (L : IdentityLib) (m : Publish) : Prop where
  keys : (m.metadata.map Prod.fst).Nodup
  aad : (L.encodeAad (buildAad m)).length < 2 ^ 64
  payload : (encodedPayload L m).length < 2 ^ 64
  metadata : ∀ e ∈ m.metadata, (utf8 e.1).length < 2 ^ 64 ∧ (utf8 e.2).length < 2 ^ 64

def signingInput (L : IdentityLib) (m : Publish) : Bytes :=
  payloadSigningInput L m (L.encodeAad (buildAad m))

variable {L : IdentityLib} {A : Set HeaderIntegrityAad} {m m' : Publish}

theorem signingInput_eq_iff (hinj : A.InjOn L.encodeAad) (hA : buildAad m ∈ A)
    (hA' : buildAad m' ∈ A) (hm : Regular L m) (hm' : Regular L m') :
    signingInput L m = signingInput L m' ↔ SignedAlike L m m' := by
  constructor
  · intro h
    simp only [signingInput, payloadSigningInput, List.append_assoc, List.append_cancel_left_eq]
      at h
    obtain ⟨haad, h⟩ := delimits_lengthPrefixed _ _ _ _ hm.aad hm'.aad h
    obtain ⟨hpayload, h⟩ := delimits_lengthPrefixed _ _ _ _ hm.payload hm'.payload h
    have hmem {md : List (String × String)} {e} (he : e ∈ signedMetadata md) : e ∈ md :=
      List.mem_of_mem_filter ((List.mem_insertionSort _).mp he)
    have hmetadata : signedMetadata m.metadata = signedMetadata m'.metadata :=
      (delimits_text.append delimits_text).flatMap_inj (by simp [lengthPrefixed, toBeBytes])
        (fun e he => hm.metadata e (hmem he)) (fun e he => hm'.metadata e (hmem he)) h
    obtain ⟨-, hsource, hdest, hid, hst, htype, hsid, hmid, hptype⟩ :=
      (HeaderIntegrityAad.mk.injEq ..).mp (hinj hA hA' haad)
    exact ⟨hsource, hdest, hid, Function.LeftInverse.injective SessionType.ofWire_toWire hst,
      Function.LeftInverse.injective SessionMessageType.ofWire_toWire htype, hsid, hmid, hptype,
      hpayload, (signedMetadata_eq_iff hm.keys hm'.keys).mp hmetadata⟩
  · rintro ⟨hsource, hdest, hid, hst, htype, hsid, hmid, hptype, hpayload, hmetadata⟩
    have haad : buildAad m = buildAad m' := (HeaderIntegrityAad.mk.injEq ..).mpr
      ⟨rfl, hsource, hdest, hid, congrArg _ hst, congrArg _ htype, hsid, hmid, hptype⟩
    have hentries := (signedMetadata_eq_iff hm.keys hm'.keys).mpr hmetadata
    unfold encodedPayload at hpayload
    simp [signingInput, payloadSigningInput, haad, hpayload, hentries]

end SignedPublish

namespace Verifier

open SignedPublish

variable {L : IdentityLib} {σ : Type} {V : Verifier L σ} {msg : SignedPublish} {required : Bool}
  {s s' : σ} {verified : VerifiedIdentity L.Json}

/-- A payload signature that was accepted is one of the signing input. -/
theorem verifyIdentity_payloadSigned
    (h : V.verifyIdentity msg required s = (.ok (some verified), s'))
    (hsigned : verified.payloadSigned) : ∃ pubkey key signature,
      L.pubkey verified.claims.customClaims = some pubkey ∧
      L.decodeStandard pubkey = some key ∧
      L.verifySignature (signingInput L msg.toPublish) signature key := by
  obtain ⟨_, s₁, -, h⟩ := Prog.bind_eq_ok.mp h
  by_cases hc : required ∧ msg.type.isCommandMessage
  · rw [if_pos hc] at h
    obtain ⟨sig, -, h⟩ := Prog.okOr_bind_eq_ok.mp h
    obtain ⟨claims, s₂, -, h⟩ := Prog.bind_eq_ok.mp h
    obtain ⟨v, hv, h⟩ := Prog.ofExcept_bind_eq_ok.mp h
    cases h
    unfold verifySignatures at hv
    split at hv
    · cases hv
    · next pubkey hpubkey =>
      split at hv
      · cases hv
      · next key hkey =>
        dsimp only at hv
        split at hv
        · split at hv
          · cases hv
            cases hsigned
          · split at hv
            · cases hv
            · next signature _ =>
              split at hv
              · next hsig =>
                cases hv
                exact ⟨pubkey, key, signature, hpubkey, hkey, hsig⟩
              · cases hv
        · cases hv
  · rw [if_neg hc] at h
    cases h

/-- **What a payload signature binds.** The signing inputs of two messages are equal iff the
messages agree in all that is signed. If of all inputs with the tag of a payload signature the
holder of a key signs only the signing inputs of their own messages, then a message with an accepted
payload signature agrees with one that the holder of the key in its token has signed. -/
theorem payload_signature_binds (L : IdentityLib) (A : Set HeaderIntegrityAad)
    (hinj : A.InjOn L.encodeAad) :
    (∀ m m' : Publish, buildAad m ∈ A → buildAad m' ∈ A → Regular L m → Regular L m' →
      (signingInput L m = signingInput L m' ↔ SignedAlike L m m')) ∧
    ∀ signed : Bytes → Set Publish,
      (∀ key, ∀ m ∈ signed key, buildAad m ∈ A ∧ Regular L m) →
      (∀ key input signature, utf8 "slim-payload-v1" <+: input →
        L.verifySignature input signature key → ∃ m ∈ signed key, input = signingInput L m) →
      ∀ {σ : Type} (V : Verifier L σ) (msg : SignedPublish) (required : Bool) (s s' : σ)
        (verified : VerifiedIdentity L.Json),
        V.verifyIdentity msg required s = (.ok (some verified), s') →
        verified.payloadSigned → buildAad msg.toPublish ∈ A → Regular L msg.toPublish →
        ∃ pubkey key, L.pubkey verified.claims.customClaims = some pubkey ∧
          L.decodeStandard pubkey = some key ∧
          ∃ m ∈ signed key, SignedAlike L m msg.toPublish := by
  refine ⟨fun m m' hA hA' => signingInput_eq_iff hinj hA hA', ?_⟩
  intro signed hregular hunforged σ V msg required s s' verified h hsigned hA hmsg
  obtain ⟨pubkey, key, signature, hpubkey, hkey, hsig⟩ := verifyIdentity_payloadSigned h hsigned
  have htag : utf8 "slim-payload-v1" <+: signingInput L msg.toPublish := by
    simp only [signingInput, payloadSigningInput, List.append_assoc]
    exact List.prefix_append _ _
  obtain ⟨m, hm, hinput⟩ := hunforged key _ signature htag hsig
  obtain ⟨hmA, hmr⟩ := hregular key m hm
  exact ⟨pubkey, key, hpubkey, hkey, m, hm,
    (signingInput_eq_iff hinj hmA hA hmr hmsg).mp hinput.symm⟩

end Verifier

namespace SharedSecret

open SignedPublish

/-- Encodings for an example that tell the sample from its copies with another id. -/
def encodingLib : IdentityLib :=
  { sampleLib with
    encodeAad := fun aad => 8 :: 1 :: utf8 aad.identity ++ [.ofNat aad.sessionMessageType,
      .ofNat aad.messageId] }

/-- The holder of the key of `sampleSecret` has signed `samplePublish`, and nobody can make another
signature of theirs. -/
def oneSignerLib : IdentityLib :=
  { encodingLib with
    verifySignature := fun input signature key =>
      encodingLib.verifySignature input signature key ∧
        input ∈
          [encodingLib.encodeAad (buildAad samplePublish), signingInput encodingLib samplePublish] }

/-- The sample, and one that would have another message id. -/
def sampleHeaders : Set HeaderIntegrityAad :=
  {buildAad samplePublish, { buildAad samplePublish with messageId := 2 }}

theorem injOn_sampleHeaders : sampleHeaders.InjOn oneSignerLib.encodeAad := by
  have hne : oneSignerLib.encodeAad (buildAad samplePublish) ≠
      oneSignerLib.encodeAad { buildAad samplePublish with messageId := 2 } := by decide +kernel
  rintro a (rfl | rfl) b (rfl | rfl) h
  · rfl
  · exact absurd h hne
  · exact absurd h.symm hne
  · rfl

/-- The sample is signed, and a node adds a trace context on the way. -/
def sampleTraced : Except SignError SignedPublish :=
  (sampleSecret.signOutboundControlMessage oneSignerLib samplePublish).map fun msg =>
    { msg with toPublish := msg.insertMetadata "traceparent" "00" }

def payloadSigned {ε J : Type} : Outcome ε (Option (VerifiedIdentity J)) → Bool
  | .ok (some v) => v.payloadSigned
  | _ => false

/-- The copy with the trace context is accepted, and agrees with what was signed. -/
theorem payload_signature_binds_traced :
    ∃ msg verified s', sampleTraced = .ok msg ∧
      { sampleSecret with replayCacheEnabled := false }.verifyIdentity oneSignerLib
        (fun _ => 1000) msg true sampleSecret.initialState = (.ok (some verified), s') ∧
      verified.payloadSigned ∧ SignedAlike oneSignerLib samplePublish msg.toPublish := by
  obtain ⟨msg, hmsg⟩ : ∃ msg, sampleTraced = .ok msg := ⟨_, rfl⟩
  generalize hrun : { sampleSecret with replayCacheEnabled := false }.verifyIdentity oneSignerLib
    (fun _ => 1000) msg true sampleSecret.initialState = r
  have hsigned : payloadSigned r.1 = true := by
    rw [← hrun]
    cases hmsg
    decide +kernel
  obtain ⟨(_ | verified) | _ | _, s'⟩ := r
  · cases hsigned
  · have hregular : Regular oneSignerLib samplePublish :=
      ⟨by decide +kernel, by decide +kernel, by decide +kernel, by decide +kernel⟩
    have hregular' : Regular oneSignerLib msg.toPublish := by
      cases hmsg
      exact ⟨by decide +kernel, by decide +kernel, by decide +kernel, by decide +kernel⟩
    have hheader : buildAad msg.toPublish = buildAad samplePublish := by
      cases hmsg
      rfl
    have hunforged (key input signature : Bytes) (htag : utf8 "slim-payload-v1" <+: input)
        (h : oneSignerLib.verifySignature input signature key) :
        ∃ m ∈ ({samplePublish} : Set Publish), input = signingInput oneSignerLib m := by
      obtain ⟨-, hinput⟩ := of_decide_eq_true h
      rcases List.mem_pair.mp hinput with rfl | rfl
      · exact absurd htag (by decide +kernel)
      · exact ⟨samplePublish, rfl, rfl⟩
    obtain ⟨_, _, -, -, m, rfl, halike⟩ :=
      (Verifier.payload_signature_binds oneSignerLib sampleHeaders injOn_sampleHeaders).2
        (fun _ => {samplePublish}) (fun _ m hm => by cases hm; exact ⟨.inl rfl, hregular⟩) hunforged
        _ msg true _ _ verified hrun hsigned (.inl hheader) hregular'
    exact ⟨msg, verified, s', hmsg, hrun, hsigned, halike⟩
  · cases hsigned
  · cases hsigned

end SharedSecret

end Slim
