import Slim.Negotiation

/-!
# The handshake of a link

`run_negotiation`: the initiator sends a request with its keys, the responder derives a header MAC
session from them and replies with its own keys, the initiator derives the same session from the
reply. What comes from outside is a parameter: the cryptographic primitives (`LinkCrypto`, with the
properties they are relied on for), the keys and coins a side draws (`Draws`; `none` for a failed
generation), the version parser and what arrives on the stream.

A negotiation that fails drops its connection, so only a successful one returns it.
-/

namespace Slim

def X25519_PUBLIC_KEY_LEN : Nat := 32

def ML_KEM768_PUBLIC_KEY_LEN : Nat := 1184

def ML_KEM768_CIPHERTEXT_LEN : Nat := 1088

def MIN_KEY_LEN : Nat := 32

/-! ## Keys -/

inductive HkdfInfo
  | Classical
  | PostQuantum
  deriving DecidableEq, Repr

inductive HeaderMacError
  | KeyTooShort
  | KeyAgreement
  deriving DecidableEq, Repr

/-- X25519, ML-KEM-768 and HKDF-SHA256. -/
structure LinkCrypto (Key KemKey Coins : Type) where
  publicKey : Key → Bytes
  /-- Refuses public keys that do not contribute. -/
  agree : Key → Bytes → Option Bytes
  kemPublicKey : KemKey → Bytes
  /-- Ciphertext and shared secret. -/
  encapsulate : Bytes → Coins → Option (Bytes × Bytes)
  decapsulate : KemKey → Bytes → Option Bytes
  /-- From the salt, the input and the info. -/
  hkdf : String → Bytes → HkdfInfo → Option Bytes
  publicKey_length : ∀ k, (publicKey k).length = X25519_PUBLIC_KEY_LEN
  agree_symm : ∀ a b, agree a (publicKey b) = agree b (publicKey a)
  decapsulate_encapsulate : ∀ k coins ct shared,
    encapsulate (kemPublicKey k) coins = some (ct, shared) → decapsulate k ct = some shared

/-- The session of a link: its key, and which derivation it came from. -/
structure HeaderMacSession where
  info : HkdfInfo
  key : Bytes
  deriving DecidableEq, Repr

namespace HeaderMacSession

def new (info : HkdfInfo) (secret : Bytes) : Except HeaderMacError HeaderMacSession :=
  if secret.length < MIN_KEY_LEN then .error .KeyTooShort else .ok ⟨info, secret⟩

end HeaderMacSession

namespace LinkCrypto

variable {Key KemKey Coins : Type} (cr : LinkCrypto Key KemKey Coins)

/-- The common part of both derivations; `extra` follows the agreed secret. -/
def deriveWith (info : HkdfInfo) (extra : Bytes) (myPrivate : Key) (peerPublic : Bytes)
    (linkId : String) : Except HeaderMacError HeaderMacSession :=
  if peerPublic.length ≠ X25519_PUBLIC_KEY_LEN then .error .KeyAgreement
  else
    match cr.agree myPrivate peerPublic with
    | none => .error .KeyAgreement
    | some secret =>
      match cr.hkdf linkId (secret ++ extra) info with
      | none => .error .KeyAgreement
      | some okm => HeaderMacSession.new info okm

def derive (myPrivate : Key) (peerPublic : Bytes) (linkId : String) :
    Except HeaderMacError HeaderMacSession :=
  cr.deriveWith .Classical [] myPrivate peerPublic linkId

def deriveHybrid (myPrivate : Key) (peerPublic kemShared : Bytes) (linkId : String) :
    Except HeaderMacError HeaderMacSession :=
  cr.deriveWith .PostQuantum kemShared myPrivate peerPublic linkId

end LinkCrypto

/-! ## Connections -/

/-- What the handshake reads and sets of a connection. -/
structure LinkConn (Version : Type) where
  /-- `Channel::Client`. -/
  clientChannel : Bool
  /-- There is configuration data of a dial. -/
  configData : Bool
  channelOpen : Bool := true
  requireHeaderMac : Bool := false
  linkId : Option String := none
  remoteSlimVersion : Option Version := none
  headerHmac : Option HeaderMacSession := none
  peerNodeId : Option String := none
  deriving DecidableEq, Repr

namespace LinkConn

variable {Version : Type} (c : LinkConn Version)

def isOutgoing : Bool := c.clientChannel && c.configData

def completeNegotiationAsServer (linkId : String) (version : Version) :
    Option (LinkConn Version) :=
  if c.remoteSlimVersion.isSome then none
  else if linkId = "" then none
  else some { c with linkId := some linkId, remoteSlimVersion := some version }

def completeNegotiationAsClient (linkId : String) (version : Version) :
    Option (LinkConn Version) :=
  if c.remoteSlimVersion.isSome then none
  else if c.linkId ≠ some linkId then none
  else some { c with remoteSlimVersion := some version }

def notePeer (nodeId : String) : LinkConn Version :=
  if nodeId = "" then c else { c with peerNodeId := some nodeId }

def install (mac : Option HeaderMacSession) : LinkConn Version :=
  match mac with
  | some mac => { c with headerHmac := some mac }
  | none => c

end LinkConn

structure NegotiationParams where
  nodeId : String
  deploymentName : String
  connectionType : ConnType
  enforcePqc : Bool
  localVersion : String

structure Draws (Key KemKey Coins : Type) where
  ephemeral : Option Key
  kem : Option KemKey
  coins : Coins

namespace Handshake

/-! ## Messages -/

abbrev Result (α : Type) := Except (Fault DataPathError) α

def refuse {α : Type} (reason : String) : Result α := .error (.err (.NegotiationError reason))

def connTypeToLink : ConnType → LinkConnectionType
  | .Peer => .Peer
  | .Edge => .Edge
  | _ => .Remote

def kemLen (p : LinkNegotiationPayload) : Nat := (p.linkKemPayload.map List.length).getD 0

def buildLinkNegotiation (linkId slimVersion : String) (isReply : Bool) (ecdh kem : Option Bytes)
    (connectionType : LinkConnectionType) (nodeId deploymentName : String) : Message where
  messageType := some (.link (some
    { linkId, slimVersion, isReply, nodeId, deploymentName
      linkEcdhPublicKey := ecdh.getD []
      connectionType := some connectionType
      linkKemPayload := kem }))

/-- What arrived on the stream, checked for its kind, the keys `enforce_pqc` needs and its
direction. -/
def readPayload (isClient enforcePqc : Bool) (incoming : Option (Except String Message)) :
    Result LinkNegotiationPayload :=
  match incoming with
  | none => refuse "stream closed before link negotiation"
  | some (.error e) => refuse ("error reading link negotiation message: " ++ e)
  | some (.ok msg) =>
    match msg.messageType with
    | some (.link none) => refuse "missing link negotiation payload"
    | some (.link (some p)) =>
      if isClient ∧ enforcePqc ∧ kemLen p ≠ ML_KEM768_CIPHERTEXT_LEN then
        refuse "enforce_pqc: responder did not return ML-KEM-768 ciphertext"
      else if ¬ isClient ∧ enforcePqc ∧ kemLen p ≠ ML_KEM768_PUBLIC_KEY_LEN then
        refuse "enforce_pqc: initiator did not send ML-KEM-768 public key"
      else if isClient ∧ ¬ p.isReply then
        refuse "received link negotiation request on outgoing connection"
      else if ¬ isClient ∧ p.isReply then
        refuse "received link negotiation reply on incoming connection"
      else .ok p
    | some _ => refuse "first message on remote link is not a link negotiation"
    | none => .error (.panic "message type not found")

section
variable {Key KemKey Coins Version : Type} (cr : LinkCrypto Key KemKey Coins)
  (parse : String → Except String Version)

def readVersion (p : LinkNegotiationPayload) : Result Version :=
  match parse p.slimVersion with
  | .ok version => .ok version
  | .error e => refuse ("unparsable remote SLIM version: " ++ e)

/-! ## The initiator -/

/-- The keys the initiator draws, and its request. -/
def clientRequest (c : LinkConn Version) (params : NegotiationParams)
    (draws : Draws Key KemKey Coins) : Result (Key × Option KemKey × Message) :=
  match draws.ephemeral with
  | none => refuse "failed to generate ECDH key pair for link negotiation"
  | some sk =>
    let request (kem : Option KemKey) : Result (Key × Option KemKey × Message) :=
      let msg := buildLinkNegotiation (c.linkId.getD "") params.localVersion false
        (some (cr.publicKey sk)) (kem.map cr.kemPublicKey) (connTypeToLink params.connectionType)
        params.nodeId params.deploymentName
      if c.channelOpen then .ok (sk, kem, msg)
      else refuse ("failed to send link negotiation request: " ++
        DataPathError.ConnectionSendError.toString)
    if params.enforcePqc then
      match draws.kem with
      | none => refuse "failed to generate ML-KEM-768 key pair for link negotiation"
      | some kem => request (some kem)
    else request none

def exchanged : Except HeaderMacError HeaderMacSession →
    Result (Option HeaderMacSession)
  | .ok mac => .ok (some mac)
  | .error _ => refuse "failed to generate client exchange key"

/-- The session the initiator derives from a reply with a key. -/
def clientMac (params : NegotiationParams) (sk : Key) (kem : Option KemKey)
    (p : LinkNegotiationPayload) : Result (Option HeaderMacSession) :=
  if p.linkEcdhPublicKey.length = X25519_PUBLIC_KEY_LEN then
    if params.enforcePqc then
      match p.linkKemPayload with
      | none => refuse "missing ML-KEM ciphertext"
      | some ct =>
        match kem with
        | none => refuse "missing local ML-KEM secret"
        | some kem =>
          match cr.decapsulate kem ct with
          | none => refuse "ML-KEM decapsulation failed"
          | some shared => exchanged (cr.deriveHybrid sk p.linkEcdhPublicKey shared p.linkId)
    else exchanged (cr.derive sk p.linkEcdhPublicKey p.linkId)
  else .ok none

def finishClient (c : LinkConn Version) (params : NegotiationParams) (sk : Key)
    (kem : Option KemKey) (p : LinkNegotiationPayload) (version : Version) :
    Result (LinkConn Version) :=
  if c.requireHeaderMac ∧ p.linkEcdhPublicKey.length ≠ X25519_PUBLIC_KEY_LEN then
    refuse "public key length is invalid"
  else
    match c.completeNegotiationAsClient p.linkId version with
    | none => refuse "link negotiation reply rejected (link_id mismatch or replay)"
    | some c =>
      match clientMac cr params sk kem p with
      | .error e => .error e
      | .ok mac =>
        let c := (c.notePeer p.nodeId).install mac
        if params.enforcePqc ∧ c.headerHmac.isNone then
          refuse "enforce_pqc: hybrid link HMAC session is not installed"
        else if c.requireHeaderMac ∧ c.headerHmac.isNone then
          refuse "strict header MAC required but link HMAC session is not installed"
        else .ok c

/-! ## The responder -/

/-- The session the responder derives from a request with a key `peer`, and the ciphertext it
replies with: it is there as soon as the encapsulation succeeded. -/
def serverDerive (params : NegotiationParams) (sk : Key) (coins : Coins)
    (p : LinkNegotiationPayload) : Except HeaderMacError HeaderMacSession × Option Bytes :=
  if params.enforcePqc ∨ kemLen p = ML_KEM768_PUBLIC_KEY_LEN then
    match p.linkKemPayload with
    | none => (.error .KeyAgreement, none)
    | some peerKem =>
      match cr.encapsulate peerKem coins with
      | none => (.error .KeyAgreement, none)
      | some (ct, shared) =>
        (cr.deriveHybrid sk p.linkEcdhPublicKey shared p.linkId, some ct)
  else (cr.derive sk p.linkEcdhPublicKey p.linkId, none)

/-- The connection with the derived session, and the two keys of the reply. A failed derivation is
tolerated unless the MAC is required. -/
def serverKeys (c : LinkConn Version) (params : NegotiationParams) (draws : Draws Key KemKey Coins)
    (p : LinkNegotiationPayload) :
    Result (LinkConn Version × Option Bytes × Option Bytes) :=
  if p.linkEcdhPublicKey.length = X25519_PUBLIC_KEY_LEN then
    match draws.ephemeral with
    | none => refuse "failed to generate server exchange key"
    | some sk =>
      match serverDerive cr params sk draws.coins p with
      | (.ok mac, kem) => .ok (c.install (some mac), some (cr.publicKey sk), kem)
      | (.error _, kem) =>
        if c.requireHeaderMac then
          refuse "failed to derive header MAC from link ECDH (server path)"
        else if params.enforcePqc ∧ c.headerHmac.isNone then
          refuse "enforce_pqc: hybrid link HMAC session is not installed"
        else .ok (c, none, kem)
  else .ok (c, none, none)

def finishServer (c : LinkConn Version) (params : NegotiationParams)
    (draws : Draws Key KemKey Coins) (p : LinkNegotiationPayload) (version : Version) :
    Result (LinkConn Version × Message) :=
  if c.requireHeaderMac ∧ p.linkEcdhPublicKey.length ≠ X25519_PUBLIC_KEY_LEN then
    refuse "public key length is invalid"
  else
    match c.completeNegotiationAsServer p.linkId version with
    | none => refuse "link negotiation request rejected (empty link_id or replay)"
    | some c =>
      match serverKeys cr (c.notePeer p.nodeId) params draws p with
      | .error e => .error e
      | .ok (c, ecdh, kem) =>
        if c.requireHeaderMac ∧ c.headerHmac.isNone then
          refuse "strict header MAC required but link HMAC session is not installed"
        else
          let reply := buildLinkNegotiation p.linkId params.localVersion true ecdh kem
            (p.connectionType.getD .Remote) params.nodeId params.deploymentName
          if c.channelOpen then .ok (c, reply)
          else refuse ("failed to send link negotiation reply: " ++
            DataPathError.ConnectionSendError.toString)

/-! ## Both sides -/

def runNegotiation (c : LinkConn Version) (params : NegotiationParams)
    (draws : Draws Key KemKey Coins) (incoming : Option (Except String Message)) :
    List Message × Result (NegotiationResult × LinkConn Version) :=
  if c.isOutgoing then
    match clientRequest cr c params draws with
    | .error e => ([], .error e)
    | .ok (sk, kem, request) =>
      ([request], do
        let p ← readPayload true params.enforcePqc incoming
        let version ← readVersion parse p
        let c ← finishClient cr c params sk kem p version
        return (.ofPayload p, c))
  else
    match (do
        let p ← readPayload false params.enforcePqc incoming
        let version ← readVersion parse p
        let (c, reply) ← finishServer cr c params draws p version
        return (reply, NegotiationResult.ofPayload p, c)) with
    | .error e => ([], .error e)
    | .ok (reply, r) => ([reply], .ok r)

end

end Handshake

end Slim
