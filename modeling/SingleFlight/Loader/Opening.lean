/-
SingleFlight.Loader.Opening — loaders as they are opened.

* `Loader.ofCache` — a cache by itself; code of its user carries out the fetches.
* `Loader.ofLoads` — loads over a registry, without a cache.
* `Loader.whole` — a cache whose fetches the loader carries out itself.
-/
import SingleFlight.Loader.Basic

namespace SingleFlight.Loader

/-- A cache by itself; `hook` says whether its user wants to see reports first. -/
def ofCache (policy : Policy) (hook : Bool) (cache : Cache) (sink : Metrics.Sink) : Loader :=
  { plan := { policy, wiring := .user hook }, cache, sink }

/-- Loads over a registry. -/
def ofLoads (policy : Policy) (registry : Registry) (sink : Metrics.Sink) : Loader :=
  { plan := { policy }, registry, sink }

/-- A loader that fetches chunks from the addresses they have, if they have anything to fetch. -/
def whole (policy : Policy) (resolve : ChunkId → Except Fault String) (hasAsset : ChunkId → Bool)
    (cache : Cache) (registry : Registry) (sink : Metrics.Sink) : Loader :=
  { plan := { policy, wiring := .fetch resolve, hasAsset }, cache, registry, sink }

/-- The loader with other answers to what it asks at once: addresses, and what has any. -/
def replan (l : Loader) (resolve : ChunkId → Except Fault String) (hasAsset : ChunkId → Bool) :
    Loader :=
  let wiring := match l.plan.wiring with
    | .user hook => .user hook
    | .fetch _ => .fetch resolve
  { l with plan := { l.plan with wiring, hasAsset } }

end SingleFlight.Loader
