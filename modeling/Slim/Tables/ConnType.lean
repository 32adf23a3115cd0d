import Mathlib.Data.List.Nodup

/-!
# Connection types and match filters
-/

namespace Slim

/-- A connection handle of the connection table. -/
abbrev ConnId := UInt64

/-- A subscription id, chosen by the subscriber; `0` stands for none. -/
abbrev SubId := UInt64

/-- The type of a connection: a local application, another deployment, a replica of the same
deployment, or a link between an application and its first node. -/
inductive ConnType
  | Local
  | Remote
  | Peer
  | Edge
  deriving DecidableEq, Repr

namespace ConnType

/-- All variants, in the order the source iterates over them. -/
def ALL : List ConnType := [Local, Remote, Peer, Edge]

/-- `{:?}` of a type. -/
def debugName : ConnType → String
  | Local => "Local"
  | Remote => "Remote"
  | Peer => "Peer"
  | Edge => "Edge"

def isLocal : ConnType → Bool
  | Local => true
  | _ => false

@[simp] theorem mem_ALL (ct : ConnType) : ct ∈ ALL := by cases ct <;> decide

theorem nodup_ALL : ALL.Nodup := by decide

@[simp] theorem isLocal_iff (ct : ConnType) : ct.isLocal = true ↔ ct = Local := by
  cases ct <;> decide

end ConnType

/-- Which connection types a match includes (an array over `ConnType::index()` in the source). -/
structure MatchFilter where
  includes : ConnType → Bool

namespace MatchFilter

def ALL : MatchFilter := ⟨fun _ => true⟩

/-- Every type but peers: the filter for messages that came from a peer. -/
def EXCLUDE_PEER : MatchFilter := ⟨fun ct => ct != .Peer⟩

end MatchFilter

end Slim
