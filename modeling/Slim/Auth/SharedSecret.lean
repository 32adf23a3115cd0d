import Mathlib.Data.Finset.Card
import Mathlib.Data.Finset.Erase
import Slim.Lib.Base64
import Slim.Lib.Prog
import Slim.Lib.Text
import Slim.Proto.Command

/-!
# Tokens of a shared secret

A token is the text `<id>:<unix_timestamp>:<nonce>:<claims_b64url>:<mac_b64url>`, with a MAC under a
secret that issuers and verifiers share. A verifier checks the form, the timestamp and the MAC; with
a replay cache it also remembers the nonces of the tokens that passed.

HMAC, Base64, JSON and signatures are parameters (`AuthLib`). Durations are whole seconds, as every
use of them is. A verifier reads the clock once for each verification; `clock n` is what it shows at
the `n`-th reading.
-/

namespace Slim

open Base64

inductive AuthError
  | TokenMalformed
  | TokenInvalid
  | TokenInvalidReplay
  | Base64DecodeError
  | JsonError
  | HmacKeyMissing
  | PublicKeyNotFound
  | SubjectNotFound
  deriving DecidableEq, Repr

/-- What tokens need of other libraries. -/
structure AuthLib where
  /-- The tag of a message under a secret (HMAC-SHA256). -/
  hmac : String → List Char → Bytes
  /-- `URL_SAFE_NO_PAD`. -/
  encode : Bytes → List Char := Base64.encode urlSafe
  decode : List Char → Option Bytes := Base64.decode urlSafe
  decode_encode : ∀ bytes, decode (encode bytes) = some bytes := by
    exact fun bytes => Base64.decode_encode bytes
  length_encode : ∀ bytes, (encode bytes).length = (4 * bytes.length + 2) / 3 := by
    exact fun bytes => Base64.length_encode bytes
  /-- The characters are ASCII, and not the colon. -/
  char_encode : ∀ bytes, ∀ c ∈ encode bytes, c.utf8Size = 1 ∧ c ≠ ':' := by
    exact fun _ _ => Base64.urlSafe_char
  /-- `STANDARD`. -/
  encodeStandard : Bytes → List Char := encodePadded standard
  decodeStandard : List Char → Option Bytes := decodePadded standard
  Json : Type
  /-- The text of the object with the member `pubkey`. -/
  pubkeyObject : List Char → Bytes
  parseJson : Bytes → Option Json
  emptyObject : Json
  /-- The member `pubkey` of an object, if it is a string. -/
  pubkey : Json → Option (List Char)
  /-- A signature of the input with a secret and a public key. -/
  sign : Bytes → Bytes → Bytes → Option Bytes
  /-- Whether the signature of the input is one of the holder of the public key. -/
  verifySignature : Bytes → Bytes → Bytes → Bool

/-! ## The replay cache -/

structure ReplayEntry where
  nonce : List Char
  timestamp : Nat
  deriving DecidableEq, Repr

/-- The entries as a set, and in the order they came in. -/
structure ReplayCache where
  entries : Finset ReplayEntry
  order : List ReplayEntry
  maxSize : Nat
  nodup : order.Nodup
  mem_entries : ∀ e, e ∈ entries ↔ e ∈ order

namespace ReplayCache

variable {c : ReplayCache} {e : ReplayEntry}

def new (maxSize : Nat) : ReplayCache where
  entries := ∅
  order := []
  maxSize
  nodup := .nil
  mem_entries _ := by simp

def popFront (c : ReplayCache) : ReplayCache where
  entries := match c.order.head? with
    | some e => c.entries.erase e
    | none => c.entries
  order := c.order.tail
  maxSize := c.maxSize
  nodup := c.nodup.sublist (List.tail_sublist _)
  mem_entries e := by
    have hmem := c.mem_entries e
    have hnodup := c.nodup
    cases h : c.order with
    | nil => simpa [h] using hmem
    | cons x rest =>
      rw [h] at hmem hnodup
      have hx := (List.nodup_cons.mp hnodup).1
      simp only [List.head?_cons, List.tail_cons, Finset.mem_erase, hmem, List.mem_cons]
      constructor
      · rintro ⟨hne, rfl | hrest⟩
        · exact absurd rfl hne
        · exact hrest
      · intro hrest
        exact ⟨fun he => hx (he ▸ hrest), .inr hrest⟩

def push (c : ReplayCache) (e : ReplayEntry) (h : e ∉ c.entries) : ReplayCache where
  entries := insert e c.entries
  order := c.order ++ [e]
  maxSize := c.maxSize
  nodup := by
    refine c.nodup.append (List.nodup_singleton e) ?_
    rw [List.disjoint_singleton, ← c.mem_entries]
    exact h
  mem_entries x := by simp [c.mem_entries x, or_comm]

def expired (now validityWindow : Nat) (e : ReplayEntry) : Bool :=
  validityWindow < now - e.timestamp

/-- Remove entries from the front for as long as they are expired. -/
def purge (c : ReplayCache) (now validityWindow : Nat) : ReplayCache :=
  (c.order.takeWhile (expired now validityWindow)).foldl (fun c _ => c.popFront) c

/-- At capacity the oldest entry goes. -/
def evict (c : ReplayCache) : ReplayCache :=
  if c.maxSize ≤ c.entries.card then c.popFront else c

theorem not_mem_popFront (h : e ∉ c.entries) : e ∉ c.popFront.entries := by
  rw [mem_entries] at h ⊢
  exact fun hmem => h (List.mem_of_mem_tail hmem)

theorem not_mem_evict (h : e ∉ c.entries) : e ∉ c.evict.entries := by
  unfold evict
  split
  · exact not_mem_popFront h
  · exact h

def insert (c : ReplayCache) (entry : ReplayEntry) (now validityWindow : Nat) :
    Outcome AuthError Unit × ReplayCache :=
  let c := c.purge now validityWindow
  if h : entry ∈ c.entries then (.err .TokenInvalidReplay, c)
  else (.ok (), c.evict.push entry (not_mem_evict h))

end ReplayCache

/-! ## Issuers and verifiers -/

def HMAC_TAG_LEN : Nat := 32
def HMAC_TAG_B64_LEN : Nat := (HMAC_TAG_LEN * 4 + 2) / 3
def DEFAULT_VALIDITY_WINDOW : Nat := 3600
def DEFAULT_CLOCK_SKEW : Nat := 5

def utf8Len (text : List Char) : Nat := (text.map Char.utf8Size).sum

structure SharedSecret where
  id : List Char
  sharedSecret : String
  validityWindow : Nat
  clockSkew : Nat
  replayCacheEnabled : Bool
  replayCacheMax : Nat
  /-- The secret and the public key. -/
  keys : Bytes × Bytes
  no_colon : ':' ∉ id

/-- The state of a verifier: its cache, and how often it has read the clock. -/
structure VerifierState where
  cache : ReplayCache
  readings : Nat

structure Claims (J : Type) where
  sub : List Char
  iat : Nat
  exp : Nat
  customClaims : J

namespace SharedSecret

variable (L : AuthLib) (p : SharedSecret)

def initialState : VerifierState := ⟨.new p.replayCacheMax, 0⟩

/-- `compute_claims_b64`. -/
def claimsB64 : List Char :=
  L.encode (L.pubkeyObject (L.encodeStandard p.keys.2))

/-- The part of a token that its MAC covers. -/
def tokenMessage (id : List Char) (ts : Nat) (nonce claimsB64 : List Char) : List Char :=
  id ++ ':' :: (Nat.toDigits 10 ts ++ ':' :: (nonce ++ ':' :: claimsB64))

/-- `get_token`, at the time `ts` and with these random bytes as the nonce. -/
def getToken (ts : Nat) (nonceBytes : Bytes) : Except AuthError (List Char) :=
  if p.sharedSecret.isEmpty then .error .HmacKeyMissing
  else
    let message := tokenMessage p.id ts (L.encode nonceBytes) (p.claimsB64 L)
    .ok (message ++ ':' :: L.encode (L.hmac p.sharedSecret message))

def validateTimestamp (now ts : Nat) : Except AuthError Unit :=
  if now < ts then if p.clockSkew < ts - now then .error .TokenInvalid else .ok ()
  else if p.validityWindow < now - ts then .error .TokenInvalid
  else .ok ()

/-- The fields of a token that passes at the time `now`: what `try_verify` checks before it looks at
the cache. -/
def checkToken (now : Nat) (token : List Char) : Except AuthError ReplayEntry :=
  match Text.rsplitOnce ':' token with
  | none => .error .TokenMalformed
  | some (message, mac) =>
    match Text.splitn ':' 4 message with
    | [_, ts, nonce, claims] =>
      if ':' ∈ claims then .error .TokenMalformed
      else
        match Text.parseUnsigned (2 ^ 64) ts with
        | none => .error .TokenMalformed
        | some ts =>
          match p.validateTimestamp now ts with
          | .error e => .error e
          | .ok () =>
            if utf8Len mac ≠ HMAC_TAG_B64_LEN then .error .TokenMalformed
            else
              match L.decode mac with
              | none => .error .Base64DecodeError
              | some tag =>
                if L.hmac p.sharedSecret message = tag then .ok ⟨nonce, ts⟩
                else .error .TokenInvalid
    | _ => .error .TokenMalformed

variable (clock : Nat → Nat)

def getCurrentTimestamp : Prog VerifierState AuthError Nat := fun s =>
  (.ok (clock s.readings), { s with readings := s.readings + 1 })

def recordReplay (entry : ReplayEntry) (now : Nat) : Prog VerifierState AuthError Unit := fun s =>
  if p.replayCacheEnabled then
    let (result, cache) := s.cache.insert entry now p.validityWindow
    (result, { s with cache })
  else (.ok (), s)

def tryVerify (token : List Char) : Prog VerifierState AuthError Unit := do
  let now ← getCurrentTimestamp clock
  let entry ← Prog.ofExcept (p.checkToken L now token)
  p.recordReplay entry now

def verify (token : List Char) : Prog VerifierState AuthError Unit := p.tryVerify L clock token

/-- `parse_token`: id, timestamp and claims. -/
def parseToken (token : List Char) : Except AuthError (List Char × Nat × List Char) :=
  match token.splitOn ':' with
  | [id, ts, _, claims, _] =>
    match Text.parseUnsigned (2 ^ 64) ts with
    | some ts => .ok (id, ts, claims)
    | none => .error .TokenMalformed
  | _ => .error .TokenMalformed

def customClaims (claimsB64 : List Char) : Except AuthError L.Json :=
  if claimsB64 = [] then .ok L.emptyObject
  else
    match L.decode claimsB64 with
    | none => .error .Base64DecodeError
    | some text =>
      match L.parseJson text with
      | none => .error .JsonError
      | some json => .ok json

/-- `try_get_claims`, which `get_claims` is too. The sum of two `u64` wraps. -/
def tryGetClaims (token : List Char) : Prog VerifierState AuthError (Claims L.Json) := do
  p.tryVerify L clock token
  let (id, ts, claimsB64) ← Prog.ofExcept (parseToken token)
  let customClaims ← Prog.ofExcept (customClaims L claimsB64)
  pure ⟨id, ts, (ts + p.validityWindow) % 2 ^ 64, customClaims⟩

end SharedSecret

end Slim
