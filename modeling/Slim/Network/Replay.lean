import Slim.Network.PeerLink

/-!
# Replay after a reconnect

A node `n` has forwarded subscriptions to a remote node `r` on its connection `out`. The link drops
and is dialled again: `n` keeps its slot `out` and replays what it has recorded, `r` sees a new
connection `conn` of type `ct`. Later unsubscriptions reach `r` as they would have before, with the
ids of the original subscriptions.
-/

namespace Slim

namespace Node

def receiveAll (conn : ConnId) (ct : ConnType) (r : Node) (msgs : List Message) : Node :=
  msgs.foldl (fun r m => (r.handleNewMessage conn ct m).node) r

/-- `r` after the replay of what `n` has recorded for `out`. -/
def afterReplay (n : Node) (out : ConnId) (r : Node) (conn : ConnId) (ct : ConnType) : Node :=
  receiveAll conn ct r (sentTo out (n.restoreRemoteSubscriptions out).2)

end Node

/-- The unsubscription of a recorded subscription, with its id. -/
def SubscriptionInfo.unsubscribe (info : SubscriptionInfo) : Message :=
  buildUnsubscribe info.source info.name info.sourceIdentity {} info.subscriptionId

namespace Node

/-- The recorded subscriptions can be taken back at `r`: in whatever order they are, each removal is
accepted, and after the last one `r` has no route for their names on the connection. -/
def CanUnsubscribe (r : Node) (conn : ConnId) (ct : ConnType) (subs : List SubscriptionInfo) :
    Prop :=
  ∀ us : List SubscriptionInfo, us.Perm subs →
    (∀ done info rest, us = done ++ info :: rest → ∃ last,
      ((receiveAll conn ct r (done.map SubscriptionInfo.unsubscribe)).table.removeSubscription
        info.name conn ct info.subscriptionId).1 = .ok last) ∧
    ∀ info ∈ us, ∀ e, info.name.name = some e → ∀ ct', ¬ (receiveAll conn ct r
      (us.map SubscriptionInfo.unsubscribe)).table.routing.Lists e.route ct' conn

end Node

end Slim
