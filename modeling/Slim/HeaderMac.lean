import Slim.Lib.Code
import Slim.Proto.Message

/-!
# The integrity tag of a SLIM header

`sign_slim_header` and `verify_slim_header`: the HMAC of a canonical byte string, which is made of
the link id and the routing fields of the header. The HMAC is a parameter; a session is its key.
-/

namespace Slim

open Code

/-- A header as it is on the wire; its numbers are 32 bits wide. -/
structure WireHeader (Tag : Type) extends SlimHeader where
  version : String
  headerMac : Option Tag
  e2eHeaderSig : Option (List UInt8)
  fanout_lt : fanout < 2 ^ 32
  ttl_lt : ttl < 2 ^ 32

namespace HeaderMac

inductive Error
  | EmptyLinkId
  | MissingTag
  | InvalidTagLength
  | VerificationFailed
  deriving DecidableEq, Repr

def TAG_LEN : Nat := 32

def asBytes (s : String) : List UInt8 := s.toByteArray.data.toList

/-- `b"SLIM-DP-HDR-v1\0"`. -/
def DOMAIN_V1 : List UInt8 := asBytes "SLIM-DP-HDR-v1" ++ [0]

def pushBytes (data : List UInt8) : List UInt8 := lengthPrefixed 4 data

def pushU64 (v : UInt64) : List UInt8 := leBytes 8 v.toNat

def pushU64Opt : Option UInt64 → List UInt8 := Code.optional 0 1 pushU64

def pushBoolOpt : Option Bool → List UInt8 := Code.optional 0 1 fun b => [b.toUInt8]

def pushNameId (nid : NameId) : List UInt8 := pushU64 nid.id0 ++ pushU64 nid.id1

def pushEncoding (enc : EncodedName) : List UInt8 :=
  pushU64 enc.component0 ++ pushU64 enc.component1 ++ pushU64 enc.component2 ++
    Code.optional 0 1 pushNameId enc.nameId

def pushStrings (sn : StringName) : List UInt8 :=
  pushBytes (asBytes sn.strComponent0) ++ pushBytes (asBytes sn.strComponent1) ++
    pushBytes (asBytes sn.strComponent2)

def pushEncodedName : Option ProtoName → List UInt8 :=
  Code.optional 0 1 fun name =>
    Code.optional 0 1 pushEncoding name.name ++ Code.optional 0 1 pushStrings name.strName

def writePreimage (hdr : SlimHeader) (linkId : String) : List UInt8 :=
  DOMAIN_V1 ++ pushBytes (asBytes linkId) ++ pushEncodedName hdr.source ++
    pushEncodedName hdr.destination ++ pushBytes (asBytes hdr.identity) ++ leBytes 4 hdr.fanout ++
    pushU64Opt hdr.recvFrom ++ pushU64Opt hdr.forwardTo ++ pushBoolOpt hdr.error ++
    leBytes 4 hdr.ttl

section
variable {Key Tag : Type} (hmac : Key → List UInt8 → Tag) (tagLen : Tag → Nat)

def signSlimHeader (key : Key) (header : WireHeader Tag) (linkId : String) :
    Except Error (WireHeader Tag) :=
  if linkId.isEmpty then .error .EmptyLinkId
  else .ok { header with headerMac := some (hmac key (writePreimage header.toSlimHeader linkId)) }

def verifySlimHeader [DecidableEq Tag] (key : Key) (header : WireHeader Tag) (linkId : String) :
    Except Error Unit :=
  if linkId.isEmpty then .error .EmptyLinkId
  else
    match header.headerMac with
    | none => .error .MissingTag
    | some tag =>
      if tagLen tag ≠ TAG_LEN then .error .InvalidTagLength
      else if hmac key (writePreimage header.toSlimHeader linkId) = tag then .ok ()
      else .error .VerificationFailed

end

/-! ## The preimage is canonical -/

/-- The strings of a name, shorter than 2^32 bytes. -/
def ShortName (n : ProtoName) : Prop :=
  ∀ sn ∈ n.strName, (asBytes sn.strComponent0).length < 2 ^ 32 ∧
    (asBytes sn.strComponent1).length < 2 ^ 32 ∧ (asBytes sn.strComponent2).length < 2 ^ 32

/-- Every string the preimage is made of is shorter than 2^32 bytes. -/
structure Short (hdr : SlimHeader) (linkId : String) : Prop where
  linkId : (asBytes linkId).length < 2 ^ 32
  source : ∀ n ∈ hdr.source, ShortName n
  destination : ∀ n ∈ hdr.destination, ShortName n
  identity : (asBytes hdr.identity).length < 2 ^ 32

/-- Two headers with the same signed part, on the same link. -/
structure Agree (hdr hdr' : SlimHeader) (linkId linkId' : String) : Prop where
  linkId : linkId = linkId'
  source : hdr.source = hdr'.source
  destination : hdr.destination = hdr'.destination
  identity : hdr.identity = hdr'.identity
  fanout : hdr.fanout = hdr'.fanout
  recvFrom : hdr.recvFrom = hdr'.recvFrom
  forwardTo : hdr.forwardTo = hdr'.forwardTo
  error : hdr.error = hdr'.error
  ttl : hdr.ttl = hdr'.ttl

open Code (Delimits)

theorem delimits_string :
    Delimits (fun s => pushBytes (asBytes s)) fun s => (asBytes s).length < 2 ^ 32 :=
  (delimits_lengthPrefixed 4).comp asBytes
    (fun _ _ h => String.toByteArray_inj.mp (ByteArray.ext (Array.toList_inj.mp h))) fun _ h => h

theorem delimits_u64 : Delimits pushU64 fun _ => True :=
  (delimits_leBytes 8).comp UInt64.toNat (fun _ _ => UInt64.toNat_inj.mp)
    fun v _ => v.toNat_lt

theorem delimits_nameId : Delimits pushNameId fun _ => True := by
  refine (delimits_u64.append delimits_u64).comp (fun nid : NameId => (nid.id0, nid.id1)) ?_
    (by simp)
  rintro ⟨_, _⟩ ⟨_, _⟩ h
  simpa using h

theorem delimits_encoding : Delimits pushEncoding fun _ => True := by
  have hid := delimits_nameId.optional (show (0 : UInt8) ≠ 1 by decide)
  refine (((delimits_u64.append delimits_u64).append delimits_u64).append hid).comp
    (fun enc : EncodedName => (((enc.component0, enc.component1), enc.component2), enc.nameId)) ?_
    (by simp)
  rintro ⟨_, _, _, _⟩ ⟨_, _, _, _⟩ h
  simpa [and_assoc] using h

theorem delimits_strings : Delimits pushStrings fun sn =>
    (asBytes sn.strComponent0).length < 2 ^ 32 ∧ (asBytes sn.strComponent1).length < 2 ^ 32 ∧
      (asBytes sn.strComponent2).length < 2 ^ 32 := by
  refine ((delimits_string.append delimits_string).append delimits_string).comp
    (fun sn : StringName => ((sn.strComponent0, sn.strComponent1), sn.strComponent2)) ?_
    fun _ h => ⟨⟨h.1, h.2.1⟩, h.2.2⟩
  rintro ⟨_, _, _⟩ ⟨_, _, _⟩ h
  simpa [and_assoc] using h

theorem delimits_name : Delimits pushEncodedName fun o => ∀ n ∈ o, ShortName n := by
  have hne : (0 : UInt8) ≠ 1 := by decide
  have h := (delimits_encoding.optional hne).append (delimits_strings.optional hne)
  refine Delimits.optional (h.comp (fun n : ProtoName => (n.name, n.strName)) ?_ ?_) hne
  · rintro ⟨_, _⟩ ⟨_, _⟩ h
    simpa using h
  · exact fun n hn => ⟨by simp, hn⟩

theorem delimits_boolOpt : Delimits pushBoolOpt fun _ => True := by
  have hbit : Delimits (fun b : Bool => [b.toUInt8]) fun _ => True :=
    delimits_of_length (fun _ _ => rfl) (by decide)
  exact fun a b r s _ _ h => hbit.optional (by decide) a b r s (by simp) (by simp) h

variable {Tag : Type} {hdr hdr' : WireHeader Tag} {linkId linkId' : String}

theorem writePreimage_inj (hs : Short hdr.toSlimHeader linkId)
    (hs' : Short hdr'.toSlimHeader linkId') :
    writePreimage hdr.toSlimHeader linkId = writePreimage hdr'.toSlimHeader linkId' ↔
      Agree hdr.toSlimHeader hdr'.toSlimHeader linkId linkId' := by
  constructor
  · intro h
    simp only [writePreimage, List.append_assoc, List.append_cancel_left_eq] at h
    obtain ⟨hlink, h⟩ := delimits_string _ _ _ _ hs.linkId hs'.linkId h
    obtain ⟨hsource, h⟩ := delimits_name _ _ _ _ hs.source hs'.source h
    obtain ⟨hdest, h⟩ := delimits_name _ _ _ _ hs.destination hs'.destination h
    obtain ⟨hid, h⟩ := delimits_string _ _ _ _ hs.identity hs'.identity h
    obtain ⟨hfanout, h⟩ := delimits_leBytes 4 _ _ _ _ hdr.fanout_lt hdr'.fanout_lt h
    obtain ⟨hrecv, h⟩ := delimits_u64.optional (by decide) _ _ _ _ (by simp) (by simp) h
    obtain ⟨hfwd, h⟩ := delimits_u64.optional (by decide) _ _ _ _ (by simp) (by simp) h
    obtain ⟨herr, h⟩ := delimits_boolOpt _ _ _ _ trivial trivial h
    exact ⟨hlink, hsource, hdest, hid, hfanout, hrecv, hfwd, herr,
      leBytes_inj hdr.ttl_lt hdr'.ttl_lt h⟩
  · rintro ⟨rfl, hsource, hdest, hid, hfanout, hrecv, hfwd, herr, httl⟩
    simp [writePreimage, hsource, hdest, hid, hfanout, hrecv, hfwd, herr, httl]

/-- **The header MAC binds the signed part of a header and the link, and nothing else**, if tags of
different keys or preimages differ. -/
theorem preimage_canonical {Key Tag : Type} [DecidableEq Tag] (hmac : Key → List UInt8 → Tag)
    (tagLen : Tag → Nat) (hlen : ∀ k m, tagLen (hmac k m) = TAG_LEN)
    (hinj : ∀ k k' m m', hmac k m = hmac k' m' → k = k' ∧ m = m') :
    (∀ (hdr hdr' : WireHeader Tag) (linkId linkId' : String), Short hdr.toSlimHeader linkId →
      Short hdr'.toSlimHeader linkId' →
      (writePreimage hdr.toSlimHeader linkId = writePreimage hdr'.toSlimHeader linkId' ↔
        Agree hdr.toSlimHeader hdr'.toSlimHeader linkId linkId')) ∧
    ∀ (key : Key) (hdr signed hdr' : WireHeader Tag) (linkId linkId' : String),
      signSlimHeader hmac key hdr linkId = .ok signed → hdr'.headerMac = signed.headerMac →
      Short hdr.toSlimHeader linkId → Short hdr'.toSlimHeader linkId' →
      (verifySlimHeader hmac tagLen key hdr' linkId' = .ok () ↔
        Agree hdr.toSlimHeader hdr'.toSlimHeader linkId linkId') := by
  refine ⟨fun _ _ _ _ => writePreimage_inj,
      fun key hdr signed hdr' linkId linkId' hsign hmac' hs hs' => ?_⟩
  unfold signSlimHeader at hsign
  split at hsign
  · cases hsign
  · rename_i hne
    cases hsign
    have htag : hmac key (writePreimage hdr'.toSlimHeader linkId') =
        hmac key (writePreimage hdr.toSlimHeader linkId) ↔
          Agree hdr.toSlimHeader hdr'.toSlimHeader linkId linkId' := by
      rw [← writePreimage_inj hs hs']
      exact ⟨fun h => (hinj _ _ _ _ h).2.symm, fun h => congrArg (hmac key) h.symm⟩
    unfold verifySlimHeader
    rw [hmac']
    dsimp only
    rw [hlen, if_neg (not_not.mpr rfl)]
    split
    · rename_i hempty
      exact ⟨fun h => (by cases h), fun h => absurd (h.linkId ▸ hempty) hne⟩
    · split
      · rename_i h
        exact ⟨fun _ => htag.mp h, fun _ => rfl⟩
      · rename_i h
        exact ⟨fun h => (by cases h), fun ha => absurd (htag.mpr ha) h⟩

theorem shortName_sample (nameId : Option NameId) : ShortName (.sample nameId) := by
  intro sn hsn
  cases hsn
  decide +kernel

def sampleHeader : WireHeader (List UInt8) where
  source := some sampleName
  destination := some (.sample none)
  identity := "id"
  fanout := 1
  ttl := 3
  recvFrom := none
  forwardTo := some 5
  incomingConn := none
  error := none
  version := ""
  headerMac := none
  e2eHeaderSig := none
  fanout_lt := by decide
  ttl_lt := by decide

/-- With the preimage itself as the tag: a header that is received again with another connection
index verifies, and one with another destination does not. -/
theorem preimage_canonical_incoming :
    ∃ signed, signSlimHeader (fun _ m => m) () sampleHeader "link" = .ok signed ∧
      verifySlimHeader (fun _ m => m) (fun _ => TAG_LEN) ()
        { signed with incomingConn := some 9 } "link" = .ok () ∧
      verifySlimHeader (fun _ m => m) (fun _ => TAG_LEN) ()
        { signed with destination := some sampleName } "link" ≠ .ok () := by
  have hs : signSlimHeader (fun (_ : Unit) m => m) () sampleHeader "link" = .ok _ := rfl
  refine ⟨_, hs, ?_⟩
  have hiff := (preimage_canonical (fun (_ : Unit) m => m) (fun _ => TAG_LEN) (fun _ _ => rfl)
    fun _ _ _ _ h => ⟨rfl, h⟩).2 () sampleHeader
  have hshort (nameId : Option NameId) (conn : Option ConnId) : Short { sampleHeader with
      destination := some (.sample nameId), incomingConn := conn } "link" := by
    have hid : (asBytes sampleHeader.identity).length < 2 ^ 32 := by decide +kernel
    refine ⟨by decide +kernel, fun n hn => ?_, fun n hn => ?_, hid⟩
    all_goals
      cases hn
      exact shortName_sample _
  have hother : ¬ Agree sampleHeader.toSlimHeader
      { sampleHeader with destination := some sampleName } "link" "link" :=
    fun h => absurd h.destination (by decide)
  constructor
  · refine (hiff _ _ "link" "link" hs ?_ (hshort none none) ?_).mpr ?_
    · rfl
    · exact hshort none (some 9)
    · exact ⟨rfl, rfl, rfl, rfl, rfl, rfl, rfl, rfl, rfl⟩
  · refine mt (hiff _ _ "link" "link" hs ?_ (hshort none none) ?_).mp hother
    · rfl
    · exact hshort (some ⟨0, 5⟩) none

end HeaderMac

end Slim
