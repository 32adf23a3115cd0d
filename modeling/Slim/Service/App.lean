import Slim.MessageProcessing
import Slim.Tables.Proof.SubscriptionTable

/-!
# Applications

The subscription calls of `App` and the names its session layer keeps, run against the node the
application is connected to. A call sends a message on the local connection and, `remove_route`
apart, waits for its acknowledgement; the node handles the message before the call goes on. What the
application does not decide is in `CallEnv`: whether it has an identity token, and whether a message
the node forwards is acknowledged in time. Of the subscription manager only the id counter is
modelled: one call waits at a time.

`AppRun` adds what the calls have left behind: the records that are still there, by the call that
filed them.
-/

namespace Slim

structure App where
  appName : ProtoName
  connId : ConnId
  appId : BitVec 128
  /-- Subscription ids by name, the id of the name taken out. -/
  appNames : AList fun _ : EncodedName => SubId
  ackCounter : SubId

structure CallEnv where
  identity : Option String
  forwarded : Bool

inductive CallResult
  | ok
  | failed
  | panicked
  deriving DecidableEq, Repr

namespace App

/-! ## Names -/

/-- The key of a name: its prefix, with the null id. -/
def nameToKey (e : EncodedName) : EncodedName :=
  { e with nameId := some (NameId.ofU128 NameId.NULL_COMPONENT) }

/-- A new application: its name gets the id of its identity, and is known under id zero. -/
def new (encoded : EncodedName) (strName : Option StringName) (appId : BitVec 128) (connId : ConnId)
    (ackCounter : SubId) : App where
  appName := { name := some { encoded with nameId := some (NameId.ofU128 appId) }, strName }
  connId := connId
  appId := appId
  appNames := AList.singleton (nameToKey encoded) 0
  ackCounter := ackCounter

variable (a : App)

def addAppName (e : EncodedName) (subscriptionId : SubId) : App :=
  { a with appNames := a.appNames.insert (nameToKey e) subscriptionId }

def removeAppName (e : EncodedName) : Option SubId × App :=
  (a.appNames.lookup (nameToKey e), { a with appNames := a.appNames.erase (nameToKey e) })

/-- `register_ack`: a new id, counting on from a random start. -/
def registerAck : SubId × App :=
  (a.ackCounter + 1, { a with ackCounter := a.ackCounter + 1 })

/-! ## Calls -/

def stream : Stream where
  connIndex := a.connId
  category := .Local
  isLocal := true

/-- The acknowledgement of `id` that an effect of the node brings: sent at once, or when a
forwarding task is through. -/
def ackOf (conn : ConnId) (id : SubId) (forwarded : Bool) : Effect → Option Bool
  | .send c msg =>
    match msg.messageType with
    | some (.subscriptionAck ack) =>
      if c = conn ∧ ack.subscriptionId = id then some ack.success else none
    | _ => none
  | .spawn task =>
    if task.inConnection = conn ∧ task.upstreamSubscriptionId = some id then
      some (task.targets.forwardConn.isNone || forwarded)
    else none
  | _ => none

/-- `await_ack`; without an acknowledgement it times out. -/
def awaitAck (conn : ConnId) (id : SubId) (forwarded : Bool) (effects : List Effect) : CallResult :=
  if effects.findSome? (ackOf conn id forwarded) = some true then .ok else .failed

def subscribe (n : Node) (name : ProtoName) (conn : Option ConnId) (env : CallEnv) :
    CallResult × App × Node :=
  match name.name with
  | none => (.panicked, a, n)
  | some e =>
    let name := name.withId a.appId
    let (ackId, a) := a.registerAck
    match env.identity with
    | none => (.failed, a, n)
    | some identity =>
      let out := n.receive a.stream
        (buildSubscribe a.appName name identity { forwardTo := conn } ackId)
      match awaitAck a.connId ackId env.forwarded out.effects with
      | .ok => (.ok, a.addAppName e ackId, out.node)
      | r => (r, a, out.node)

/-- The message has the name as the caller gives it. -/
def unsubscribe (n : Node) (name : ProtoName) (conn : Option ConnId) (env : CallEnv) :
    CallResult × App × Node :=
  match name.name with
  | none => (.panicked, a, n)
  | some e =>
    match a.removeAppName e with
    | (none, a) => (.ok, a, n)
    | (some subscriptionId, a) =>
      match env.identity with
      | none => (.failed, a, n)
      | some identity =>
        let out := n.receive a.stream
          (buildUnsubscribe a.appName name identity { forwardTo := conn } subscriptionId)
        (awaitAck a.connId subscriptionId env.forwarded out.effects, a, out.node)

def setRoute (n : Node) (name : ProtoName) (conn : ConnId) (env : CallEnv) :
    CallResult × App × Node :=
  let (ackId, a) := a.registerAck
  match env.identity with
  | none => (.failed, a, n)
  | some identity =>
    let out := n.receive a.stream
      (buildSubscribe a.appName name identity { recvFrom := some conn } ackId)
    (awaitAck a.connId ackId env.forwarded out.effects, a, out.node)

/-- No subscription id is set and nothing is waited for. -/
def removeRoute (n : Node) (name : ProtoName) (conn : ConnId) (env : CallEnv) :
    CallResult × App × Node :=
  match env.identity with
  | none => (.failed, a, n)
  | some identity =>
    let out := n.receive a.stream
      (buildUnsubscribe a.appName name identity { recvFrom := some conn } 0)
    (.ok, a, out.node)

/-- The subscription of its own name an application starts with. -/
def subscribeSelf (n : Node) : App × Node :=
  let (ackId, a) := a.registerAck
  (a, (n.receive a.stream (buildSubscribe a.appName a.appName "" {} ackId)).node)

end App

/-! ## Runs -/

structure AppRun where
  app : App
  node : Node
  /-- Records that are there after `subscribe` of a name. -/
  subscribed : List (ProtoName × SubKey) := []
  /-- Records that are there after `set_route` of a name on a connection. -/
  routed : List ((ProtoName × ConnId) × SubKey) := []

namespace AppRun

inductive Call
  | subscribe (name : ProtoName) (conn : Option ConnId) (env : CallEnv)
  | unsubscribe (name : ProtoName) (conn : Option ConnId) (env : CallEnv)
  | setRoute (name : ProtoName) (conn : ConnId) (env : CallEnv)
  | removeRoute (name : ProtoName) (conn : ConnId) (env : CallEnv)
  /-- Forwarding tasks change what they keep. -/
  | forwarding (peerSync : PeerSync) (remoteSync : RemoteSync)

/-- Of what a call asks for, the records that are not there already. -/
def added {α : Type} (s : AppRun) (filed : List (α × SubKey)) : List (α × SubKey) :=
  filed.filter fun x => ¬ s.node.table.Holds x.2

/-- Only records that are still there count. -/
def update (s : AppRun) (r : CallResult × App × Node) : AppRun where
  app := r.2.1
  node := r.2.2
  subscribed := s.subscribed.filter fun x => r.2.2.table.Holds x.2
  routed := s.routed.filter fun x => r.2.2.table.Holds x.2

def call (s : AppRun) : Call → CallResult × AppRun
  | .subscribe name conn env =>
    let r := s.app.subscribe s.node name conn env
    let filed := name.name.toList.map fun e => (name, (⟨s.app.connId, s.app.ackCounter + 1,
      { e with nameId := some (NameId.ofU128 s.app.appId) }⟩ : SubKey))
    (r.1, { s with subscribed := s.added filed ++ s.subscribed }.update r)
  | .unsubscribe name conn env =>
    let r := s.app.unsubscribe s.node name conn env
    (r.1, s.update r)
  | .setRoute name conn env =>
    let r := s.app.setRoute s.node name conn env
    let filed := name.name.toList.map fun e =>
      ((name, conn), (⟨conn, s.app.ackCounter + 1, e⟩ : SubKey))
    (r.1, { s with routed := s.added filed ++ s.routed }.update r)
  | .removeRoute name conn env =>
    let r := s.app.removeRoute s.node name conn env
    (r.1, s.update r)
  | .forwarding peerSync remoteSync =>
    (.ok, { s with node := { s.node with peerSync, remoteSync } })

def step (s : AppRun) (c : Call) : AppRun := (s.call c).2

/-- The application has started and made no call. -/
def init (a : App) (n : Node) : AppRun where
  app := (a.subscribeSelf n).1
  node := (a.subscribeSelf n).2

end AppRun

end Slim
