import Mathlib.Data.BitVec

/-!
# Names

A name is three components and an id. On the wire it carries an encoding (`EncodedName`: the
hashes of the components and an optional 128-bit `NameId`) and the readable strings
(`StringName`); both parts are optional in a `ProtoName`. An encoding without a `NameId` and one
whose `NameId` is `NULL_COMPONENT` have the same `id` but are different encodings.

`calculate_hash` (XxHash64) is a parameter wherever a name is rebuilt from strings.
-/

namespace Slim

/-- A `NameId`: the higher and the lower 64 bits of an id. -/
structure NameId where
  id0 : UInt64
  id1 : UInt64
  deriving DecidableEq, Repr

namespace NameId

/-- The id of a name that addresses every instance. -/
def NULL_COMPONENT : BitVec 128 := BitVec.allOnes 128

def ofU128 (id : BitVec 128) : NameId :=
  ⟨UInt64.ofBitVec ((id >>> 64).setWidth 64), UInt64.ofBitVec (id.setWidth 64)⟩

def toU128 (n : NameId) : BitVec 128 :=
  (n.id0.toBitVec.setWidth 128 <<< 64) ||| n.id1.toBitVec.setWidth 128

@[simp] theorem toU128_ofU128 (id : BitVec 128) : (ofU128 id).toU128 = id := by
  apply BitVec.eq_of_getLsbD_eq
  intro i hi
  simp only [toU128, ofU128, UInt64.toBitVec_ofBitVec, BitVec.getLsbD_or, BitVec.getLsbD_shiftLeft,
    BitVec.getLsbD_setWidth, BitVec.getLsbD_ushiftRight, hi, decide_true, Bool.true_and]
  by_cases h : i < 64
  · simp [h]
  · rw [decide_eq_true (show i - 64 < 64 by omega), decide_eq_true (show i - 64 < 128 by omega),
      show 64 + (i - 64) = i by omega]
    simp [h]

end NameId

namespace NameId

def hexDigit (n : Nat) : Char := (Nat.digitChar (n % 16))

/-- The `k` low hexadecimal digits of `n`, high digit first. -/
def hexDigits (n k : Nat) : List Char := (List.range k).reverse.map fun i => hexDigit (n / 16 ^ i)

/-- `Uuid::from_u128(id).to_string()`: 8-4-4-4-12 lower-case digits. -/
def uuidString (id : BitVec 128) : String :=
  let n := id.toNat
  String.ofList (hexDigits (n / 16 ^ 24) 8 ++ '-' :: hexDigits (n / 16 ^ 20) 4 ++
    '-' :: hexDigits (n / 16 ^ 16) 4 ++ '-' :: hexDigits (n / 16 ^ 12) 4 ++ '-' :: hexDigits n 12)

/-- `String::from(NameId)`. -/
def toString (n : NameId) : String :=
  if n.toU128 = NULL_COMPONENT then "NULL_COMPONENT" else uuidString n.toU128

end NameId

/-- The first three components of an encoding, the key of the routing snapshot. -/
abbrev Prefix := UInt64 × UInt64 × UInt64

structure EncodedName where
  component0 : UInt64
  component1 : UInt64
  component2 : UInt64
  nameId : Option NameId
  deriving DecidableEq, Repr

namespace EncodedName

/-- The id of an encoding; a missing `NameId` reads as `NULL_COMPONENT`. -/
def id (e : EncodedName) : BitVec 128 :=
  match e.nameId with
  | none => NameId.NULL_COMPONENT
  | some nid => nid.toU128

def stringId (e : EncodedName) : String :=
  match e.nameId with
  | none => "NULL_COMPONENT"
  | some nid => nid.toString

/-- `[component_0, component_1, component_2]`. -/
def prefix3 (e : EncodedName) : Prefix := (e.component0, e.component1, e.component2)

/-- What a routing slot is addressed by: the prefix and the id. -/
def route (e : EncodedName) : Prefix × BitVec 128 := (e.prefix3, e.id)

end EncodedName

structure StringName where
  strComponent0 : String
  strComponent1 : String
  strComponent2 : String
  deriving DecidableEq, Repr

/-- The protobuf `Name`: both parts may be missing on the wire. -/
structure ProtoName where
  name : Option EncodedName
  strName : Option StringName
  deriving DecidableEq, Repr

namespace ProtoName

section
variable (calculateHash : String → UInt64)

def fromStrings (s : StringName) : ProtoName where
  name := some
    { component0 := calculateHash s.strComponent0
      component1 := calculateHash s.strComponent1
      component2 := calculateHash s.strComponent2
      nameId := some (NameId.ofU128 NameId.NULL_COMPONENT) }
  strName := some s

end

/-- Set the id of a name. The source panics on a name without an encoding, which here keeps no
encoding. -/
def withId (n : ProtoName) (id : BitVec 128) : ProtoName :=
  { n with name := n.name.map fun e => { e with nameId := some (NameId.ofU128 id) } }

@[simp] theorem withId_name (n : ProtoName) (id : BitVec 128) :
    (n.withId id).name = n.name.map fun e => { e with nameId := some (NameId.ofU128 id) } := rfl

/-- `org/ns/app`. -/
def sample (nameId : Option NameId) : ProtoName where
  name := some ⟨1, 2, 3, nameId⟩
  strName := some ⟨"org", "ns", "app"⟩

end ProtoName

def sampleName : ProtoName := .sample (some ⟨0, 5⟩)

/-- A hash under which the sample names are consistent. -/
def sampleHash (s : String) : UInt64 :=
  if s = "org" then 1 else if s = "ns" then 2 else if s = "app" then 3 else 4

end Slim
