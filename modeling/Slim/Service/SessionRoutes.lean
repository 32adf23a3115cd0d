import Slim.Service.App
import Slim.Session.Common

/-!
# The routes of a session

A session asks for a route through the subscription manager of its application: a subscribe message
with `recv_from`, under a fresh subscription id, on the application's connection. The session keeps
one id for each name and connection (`subscription_ids`) and asks for that record when it gives the
route back.

`SessionRoutes` runs these calls against the node. As in `App`, one call waits at a time, so that of
the manager's waiters nothing is kept, and what a forwarded message meets is a parameter. `made` is
a history: the records that `add_route` filed and that are still there, by the name and the
connection they are for.
-/

namespace Slim

open SessionControllerCommon

structure SubscriptionManager where
  connId : ConnId
  ackCounter : SubId

namespace SubscriptionManager

variable (m : SubscriptionManager)

def stream : Stream where
  connIndex := m.connId
  category := .Local
  isLocal := true

/-- `resolve_ack`, for the waiter of `id`: what an effect of the node tells it, at once or when a
forwarding task is through. -/
def resolveAck (m : SubscriptionManager) (id : SubId) (forwarded : Except String Unit) :
    Effect → Option (Except SubscriptionAckError Unit)
  | .send c msg =>
    match msg.messageType with
    | some (.subscriptionAck ack) =>
      if c = m.connId ∧ ack.subscriptionId = id then
        some (if ack.success then .ok ()
          else .error
            (.Rejected (if ack.error.isEmpty then "subscription ack failed" else ack.error)))
      else none
    | _ => none
  | .spawn task =>
    if task.inConnection = m.connId ∧ task.upstreamSubscriptionId = some id then
      some (if task.targets.forwardConn.isNone then .ok () else forwarded.mapError .Rejected)
    else none
  | _ => none

def request (n : Node) (msg : Message) (id : SubId)
    (forwarded : Except String Unit) : Except SubscriptionAckError Unit × Node :=
  let out := n.receive m.stream msg
  ((out.effects.findSome? (m.resolveAck id forwarded)).getD (.error .Timeout), out.node)

def setRoute (n : Node) (source name : ProtoName) (conn : ConnId)
    (forwarded : Except String Unit) :
    Except SubscriptionAckError SubId × SubscriptionManager × Node :=
  let id := m.ackCounter + 1
  let (r, n) :=
    m.request n (buildSubscribe source name "" { recvFrom := some conn } id) id forwarded
  (r.map fun _ => id, { m with ackCounter := id }, n)

def removeRoute (n : Node) (source name : ProtoName)
    (subscriptionId : SubId) (conn : ConnId) (forwarded : Except String Unit) :
    Except SubscriptionAckError Unit × Node :=
  m.request n (buildUnsubscribe source name "" { recvFrom := some conn } subscriptionId)
    subscriptionId forwarded

end SubscriptionManager

structure SessionRoutes where
  common : SessionControllerCommon
  manager : SubscriptionManager
  node : Node
  made : List ((ProtoName × ConnId) × SubKey) := []

namespace SessionRoutes

inductive Call
  | addRoute (name : ProtoName) (conn : ConnId) (forwarded : Except String Unit)
  | deleteRoute (name : ProtoName) (conn : ConnId) (forwarded : Except String Unit)
  /-- Other calls of the application move the counter; forwarding tasks change what they keep. -/
  | elsewhere (ackCounter : SubId) (peerSync : PeerSync) (remoteSync : RemoteSync)

/-- The controller, with the answer its next request gets. -/
def answered (c : SessionControllerCommon) (r : Except SubscriptionAckError Nat) :
    SessionControllerCommon :=
  c.withEnv { c.env with subscriptionAck := fun _ => r }

def routeId (c : SessionControllerCommon) (name : ProtoName) (conn : ConnId) : Option Nat :=
  c.subscriptionIds.lookup (.Route, name, conn)

/-- Of what `add_route` asks for, the records that are not there already. -/
def filed (s : SessionRoutes) (name : ProtoName) (conn : ConnId) :
    List ((ProtoName × ConnId) × SubKey) :=
  (name.name.toList.map fun e => ((name, conn), ⟨conn, s.manager.ackCounter + 1, e⟩)).filter
    fun x => ¬ s.node.table.Holds x.2

def kept (node : Node) (made : List ((ProtoName × ConnId) × SubKey)) :
    List ((ProtoName × ConnId) × SubKey) :=
  made.filter fun x => node.table.Holds x.2

def call (s : SessionRoutes) : Call → Outcome SessionError Unit × SessionRoutes
  | .addRoute name conn forwarded =>
    if name = s.common.settings.source then
      let (o, common) := addRoute name conn s.common
      (o, { s with common })
    else
      let (r, manager, node) :=
        s.manager.setRoute s.node s.common.settings.source name conn forwarded
      let (o, common) := addRoute name conn
        (answered s.common (r.map UInt64.toNat))
      (o, { common, manager, node, made := kept node (s.filed name conn ++ s.made) })
  | .deleteRoute name conn forwarded =>
    match if name = s.common.settings.source then none else routeId s.common name conn with
    | none =>
      let (o, common) := deleteRoute name conn s.common
      (o, { s with common })
    | some id =>
      let (r, node) := s.manager.removeRoute s.node s.common.settings.source name
        (UInt64.ofNat id) conn forwarded
      let (o, common) := deleteRoute name conn
        (answered s.common (r.map fun _ => 0))
      (o, { s with common, node, made := kept node s.made })
  | .elsewhere ackCounter peerSync remoteSync =>
    (.ok (),
      { s with manager := { s.manager with ackCounter }
               node := { s.node with peerSync, remoteSync } })

def step (s : SessionRoutes) (c : Call) : SessionRoutes := (s.call c).2

end SessionRoutes

end Slim
