import Slim.Db.Database
import Slim.Lib.Fiber
import Slim.RouteService.Spt

/-!
# The route service

`RouteService` keeps the links and routes between domains in the store. Its functions are fibers
whose steps are the calls of the store (each is atomic) and the accesses to its own state: the
segment graphs, the work queue of the reconciler, the locks. The connection status of the nodes
belongs to the transport.

Time, UUIDs and random choices come from an environment (`Env`), in the order in which they are
asked for. In config mode the segments of a set of domains are rendered from a template, which is a
parameter (`Env.buildGraph`).
-/

namespace Slim

open Db

namespace RouteService

/-- A segment: its name and its graph of domains. -/
abbrev Segment := String × UnGraph

structure Env where
  /-- `SystemTime::now()`. -/
  clock : Nat → Nat
  /-- `Uuid::new_v4()`. -/
  uuid : Nat → String
  /-- `candidates.shuffle(..)`. -/
  shuffle : Nat → List Node → List Node
  shuffle_perm : ∀ n l, (shuffle n l).Perm l
  /-- `available_nodes.choose(..)`, as an index that is taken modulo the length. -/
  choose : Nat → Nat
  /-- The topology is managed through the API, not by the configuration. -/
  apiManaged : Bool
  /-- `TopologyConfig::build_graph`; `none` if the template cannot be rendered. -/
  buildGraph : List String → Option (List Segment)

end RouteService

structure RouteService where
  db : Database := {}
  segmentGraphs : List RouteService.Segment := []
  /-- The nodes whose connection status is `Connected`. -/
  connected : List String := []
  /-- The nodes that were put into the work queue. -/
  queue : List String := []
  lastFailedDomains : Option (List String) := none
  nodeLocks : List (String × Nat) := []
  mutexes : Nat := 0
  /-- How often the environment was asked. -/
  ticks : Nat := 0

namespace RouteService

abbrev Svc := Fiber Nat RouteService

inductive Error
  | db (e : DbError)
  | EmptySourceNodeId
  | EmptyDestNodeId
  | SameSourceAndDest
  | InvalidInput (text : String)
  /-- `InvalidInput("failed to add route: ..")`. -/
  | FailedToAddRoute (e : DbError)
  deriving DecidableEq, Repr

variable (E : Env)

/-! ## Steps -/

def query {α : Type} (f : Database → α) : Svc α := Fiber.read fun s => f s.db

/-- A change of the store, at the current time. -/
def update {α : Type} (f : Nat → Database → Update α) : Svc (Except DbError α) :=
  Fiber.call fun s =>
    ((f (E.clock s.ticks) s.db).1,
      { s with db := (f (E.clock s.ticks) s.db).2, ticks := s.ticks + 1 })

/-- `queue.add(..)`. -/
def enqueue (nodeId : String) : Svc Unit :=
  Fiber.modify fun s => { s with queue := s.queue ++ [nodeId] }

def freshUuid : Svc String :=
  Fiber.call fun s => (E.uuid s.ticks, { s with ticks := s.ticks + 1 })

def segments : Svc (List Segment) := Fiber.read RouteService.segmentGraphs

section Steps

variable {α : Type} (s : RouteService)

@[simp] theorem run_query (f : Database → α) : (query f).run s = (f s.db, s) := rfl

@[simp] theorem run_segments : segments.run s = (s.segmentGraphs, s) := rfl

@[simp] theorem run_update (f : Nat → Database → Update α) : (update E f).run s =
    ((f (E.clock s.ticks) s.db).1,
      { s with db := (f (E.clock s.ticks) s.db).2, ticks := s.ticks + 1 }) := rfl

@[simp] theorem run_enqueue (nodeId : String) :
    (enqueue nodeId).run s = ((), { s with queue := s.queue ++ [nodeId] }) := rfl

end Steps

/-! ## Nodes and links that were loaded -/

/-- The domain of a node, empty if there is none. -/
def domainOf (nodes : List Node) (nodeId : String) : String :=
  ((nodes.find? fun n => n.id = nodeId).bind Node.domainName).getD ""

/-- A node of this id is in the domain. -/
def inDomain (nodes : List Node) (domain nodeId : String) : Bool :=
  nodes.any fun n => n.domainName = some domain && n.id = nodeId

/-- The gateway in domain `a` of a link between `a` and `b`: only a link that is established will
do. -/
def gatewayOf (a b : String) (nodes : List Node) (link : Link) : Option (String × String) :=
  if link.status ≠ .Applied ∨ link.destNodeId.isEmpty then none
  else if inDomain nodes a link.sourceNodeId && inDomain nodes b link.destNodeId then
    some (link.sourceNodeId, link.linkId)
  else if inDomain nodes b link.sourceNodeId && inDomain nodes a link.destNodeId then
    some (link.destNodeId, link.linkId)
  else none

/-- The gateway in `a` and the id of the first link between `a` and `b`. -/
def findInterDomainLinkFromCache (a b : String) (nodes : List Node) (links : List Link) :
    Option (String × String) :=
  links.findSome? (gatewayOf a b nodes)

end RouteService

end Slim
