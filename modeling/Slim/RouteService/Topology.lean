import Slim.RouteService.Commands
import Slim.RouteService.Links

/-!
# Topology

The segments say which domains may be linked (`allowedLinkPairs`). In config mode they are rendered
anew when the set of domains changes (`rebuildLinkGraph`), and also written to the store for clients
to list, which is left out. Clients that change the segments through the API are not modelled.
-/

namespace Slim.RouteService

open Db

variable (E : Env)

/-! ## Segment graphs -/

/-- `allowed_link_pairs`: the domains that share an edge, in both directions. -/
def allowedPairsOf (segmentGraphs : List Segment) : List (String × String) :=
  segmentGraphs.flatMap fun segment => segment.2.edges.flatMap fun e =>
    [(domainAt segment.2 e.source, domainAt segment.2 e.target),
      (domainAt segment.2 e.target, domainAt segment.2 e.source)]

def allowedLinkPairs : Svc (List (String × String)) := do
  let segmentGraphs ← segments
  pure (allowedPairsOf segmentGraphs)

def nodeDomains (nodes : List Node) : List String := (nodes.map domainNameOf).dedup

def graphDomains (segmentGraphs : List Segment) : List String :=
  (segmentGraphs.flatMap fun segment => segment.2.nodes).dedup

/-- `rebuild_link_graph`: the flag says that the domains have changed. A set of domains that could
not be rendered is not tried again at once. -/
def rebuildLinkGraph (nodes : List Node) : Svc Bool :=
  if E.apiManaged then pure false
  else do
    let newDomains := nodeDomains nodes
    let lastFailed ← Fiber.read RouteService.lastFailedDomains
    if lastFailed.any fun last => last.isPerm newDomains then pure false
    else
      match E.buildGraph newDomains with
      | none =>
        Fiber.modify fun s => { s with lastFailedDomains := some newDomains }
        pure false
      | some rebuilt =>
        Fiber.modify fun s => { s with lastFailedDomains := none }
        let current ← segments
        if newDomains.isPerm (graphDomains current) then pure false
        else
          Fiber.modify fun s => { s with segmentGraphs := rebuilt }
          pure true

end Slim.RouteService
