import Mathlib.Data.List.Sort
import Slim.Auth.SharedSecret
import Slim.Proto.Publish

/-!
# Identities of control messages

A sender puts a token into the header of each message and signs control messages with the key that
the token's claims name; `Verifier.verifyIdentity` is what a session checks of them, with any
verifier of tokens. A `SharedSecret` is one. Every error of `verify_identity` is one of the
authentication library.
-/

namespace Slim

/-- A publication with the signature of its header. -/
structure SignedPublish extends Publish where
  e2eHeaderSig : Option Bytes := none

/-- The header data that is signed. -/
structure HeaderIntegrityAad where
  version : Nat
  source : ProtoName
  destination : ProtoName
  identity : String
  sessionType : Nat
  sessionMessageType : Nat
  sessionId : Nat
  messageId : Nat
  payloadType : String

/-- Encodings of the wire format. -/
structure IdentityLib extends AuthLib where
  encodeAad : HeaderIntegrityAad → Bytes
  encodePayload : Content → Bytes

namespace SignedPublish

def buildAad (msg : Publish) : HeaderIntegrityAad where
  version := 1
  source := msg.source
  destination := msg.destination
  identity := msg.identity
  sessionType := (SessionType.ofWire msg.session.sessionType).toWire
  sessionMessageType := msg.type.toWire
  sessionId := msg.session.sessionId
  messageId := msg.session.messageId
  payloadType := match msg.payload with
    | some (.appPayload payloadType _) => payloadType
    | _ => ""

/-! ## Payload signatures -/

def PAYLOAD_SIG_KEY : String := "slim-payload-sig"

def UNSIGNED_METADATA : List String :=
  ["traceparent", "tracestate", "baggage", PAYLOAD_SIG_KEY, "slim-peer-subject"]

/-- `u64::to_be_bytes`. -/
def toBeBytes (n : Nat) : Bytes := (List.range 8).reverse.map fun i => .ofNat (n / 256 ^ i % 256)

def lengthPrefixed (bytes : Bytes) : Bytes := toBeBytes bytes.length ++ bytes

def utf8 (text : String) : Bytes := text.toUTF8.data.toList

/-- The metadata that is signed, in key order. -/
def signedMetadata (metadata : List (String × String)) : List (String × String) :=
  (metadata.filter fun e => e.1 ∉ UNSIGNED_METADATA).insertionSort fun e f =>
    e.1 < f.1 ∨ e.1 = f.1 ∧ e.2 ≤ f.2

def payloadSigningInput (L : IdentityLib) (msg : Publish) (aad : Bytes) : Bytes :=
  utf8 "slim-payload-v1" ++ lengthPrefixed aad ++
    lengthPrefixed ((msg.payload.map L.encodePayload).getD []) ++
    (signedMetadata msg.metadata).flatMap fun e =>
      lengthPrefixed (utf8 e.1) ++ lengthPrefixed (utf8 e.2)

end SignedPublish

inductive SignError
  | SignatureKeyIsEmpty
  | MlsKeyGenerationFailed
  deriving DecidableEq, Repr

/-- What `verify_identity` established about a control message. -/
structure VerifiedIdentity (J : Type) where
  claims : Claims J
  payloadSigned : Bool

namespace SharedSecret

open SignedPublish

variable (L : IdentityLib) (p : SharedSecret)

def signOutboundControlMessage (msg : Publish) : Except SignError SignedPublish :=
  if msg.type.isCommandMessage then
    if p.keys.1 = [] ∨ p.keys.2 = [] then .error .SignatureKeyIsEmpty
    else
      let aad := L.encodeAad (buildAad msg)
      match L.sign aad p.keys.1 p.keys.2 with
      | none => .error .MlsKeyGenerationFailed
      | some signature =>
        match L.sign (payloadSigningInput L msg aad) p.keys.1 p.keys.2 with
        | none => .error .MlsKeyGenerationFailed
        | some payloadSignature =>
          let encoded := String.ofList (L.encodeStandard payloadSignature)
          .ok ⟨msg.insertMetadata PAYLOAD_SIG_KEY encoded, some signature⟩
  else .ok ⟨msg, none⟩

end SharedSecret

/-- What a session asks of the verifier of tokens. -/
structure Verifier (L : IdentityLib) (σ : Type) where
  tryVerify : List Char → Prog σ AuthError Unit
  verify : List Char → Prog σ AuthError Unit
  getClaims : List Char → Prog σ AuthError (Claims L.Json)

namespace Verifier

open SignedPublish

variable {L : IdentityLib} {σ : Type} (V : Verifier L σ)

/-- A token that does not pass is tried once more. -/
def verifyToken (token : List Char) : Prog σ AuthError Unit := fun s =>
  match V.tryVerify token s with
  | (.err _, s) => V.verify token s
  | r => r

variable (L) in
/-- The signatures of a control message, checked with the key that the claims name. -/
def verifySignatures (msg : SignedPublish) (sig : Bytes) (claims : Claims L.Json) :
    Except AuthError (VerifiedIdentity L.Json) :=
  match L.pubkey claims.customClaims with
  | none => .error .PublicKeyNotFound
  | some pubkey =>
    match L.decodeStandard pubkey with
    | none => .error .TokenMalformed
    | some pubkeyBytes =>
      let aad := L.encodeAad (buildAad msg.toPublish)
      if L.verifySignature aad sig pubkeyBytes then
        match msg.metadata.lookup PAYLOAD_SIG_KEY with
        | none => .ok ⟨claims, false⟩
        | some encoded =>
          match L.decodeStandard encoded.toList with
          | none => .error .TokenMalformed
          | some signature =>
            if L.verifySignature (payloadSigningInput L msg.toPublish aad) signature
              pubkeyBytes then
              .ok ⟨claims, true⟩
            else .error .TokenInvalid
      else .error .TokenInvalid

def verifyIdentity (msg : SignedPublish) (e2eIntegrityRequired : Bool) :
    Prog σ AuthError (Option (VerifiedIdentity L.Json)) := do
  let identity := msg.identity.toList
  V.verifyToken identity
  if e2eIntegrityRequired ∧ msg.type.isCommandMessage then do
    let sig ← Prog.okOr .TokenInvalid msg.e2eHeaderSig
    let claims ← V.getClaims identity
    let verified ← Prog.ofExcept (verifySignatures L msg sig claims)
    pure (some verified)
  else pure none

end Verifier

namespace SharedSecret

variable (L : IdentityLib) (p : SharedSecret) (clock : Nat → Nat)

def verifier : Verifier L VerifierState where
  tryVerify := p.tryVerify L.toAuthLib clock
  verify := p.verify L.toAuthLib clock
  getClaims := p.tryGetClaims L.toAuthLib clock

def verifyToken (token : List Char) : Prog VerifierState AuthError Unit :=
  (p.verifier L clock).verifyToken token

def verifyIdentity (msg : SignedPublish) (e2eIntegrityRequired : Bool) :
    Prog VerifierState AuthError (Option (VerifiedIdentity L.Json)) :=
  (p.verifier L clock).verifyIdentity msg e2eIntegrityRequired

end SharedSecret

end Slim
