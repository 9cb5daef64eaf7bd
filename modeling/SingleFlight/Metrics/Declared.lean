/-
SingleFlight.Metrics.Declared — counters that are declared at first use.

The first use of a name declares its counter, with the label names of that use in
their order; later uses must have the same ones. The counting itself is left to a
client.

* `Declared.counter` — the counter of a use, declared if need be.
* `Declared.add` — counting.
-/
import SingleFlight.Metrics.Client

namespace SingleFlight.Metrics

/-- Declared counters, in the registry of a client. -/
structure Declared (ρ : Type) where
  space : String
  /-- The counters by name, in the order of declaration, with their label names. -/
  labels : Pairs String (List String) := []
  registry : ρ
deriving DecidableEq, Repr

namespace Declared

variable {ρ : Type} (client : CounterClient ρ)

/-- The name space of counters for which no other is chosen. -/
def ownSpace : String := "chunkload"

/-- Counters of which none is declared yet, in a registry of their own. -/
def fresh (space : String) : Declared ρ :=
  { space, registry := client.empty }

/-- The counter of a name: as it stands, or as its first use declares it. -/
def counter (d : Declared ρ) (name : String) (labels : List String) :
    Except MetricsError (Declared ρ) :=
  match d.labels.get? name with
  | none =>
    match client.declare d.registry ⟨d.space, name⟩ labels with
    | .error e => .error e
    | .ok registry => .ok { d with registry, labels := d.labels.put name labels }
  | some known => if known = labels then .ok d else .error (.labelDrift name known labels)

/--
Counts. A use that cannot declare its counter, or that has other label names than the first,
changes nothing; any later refusal leaves the counter declared.
-/
def add (d : Declared ρ) (name : String) (amount : Amount) (tags : Tags) :
    Declared ρ × Option MetricsError :=
  let tags := sortTags tags
  match d.counter client name (tags.map (·.1)) with
  | .error e => (d, some e)
  | .ok d =>
    let chosen :=
      if tags.isEmpty then .ok d.registry else client.choose d.registry ⟨d.space, name⟩ tags
    match chosen with
    | .error e => (d, some e)
    | .ok registry =>
      let (registry, refusal) := client.inc registry ⟨d.space, name⟩ tags amount
      ({ d with registry }, refusal)

end Declared

end SingleFlight.Metrics
