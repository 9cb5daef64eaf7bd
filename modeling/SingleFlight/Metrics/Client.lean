/-
SingleFlight.Metrics.Client — what declared counters are counted by.

Whoever counts with declared counters leaves the counting to a client of the
server that collects the counts. The client has rules of its own: which names it
takes, when a sample begins to exist, how exactly it counts. Nothing here depends
on them, so the client is a parameter of whatever uses it, and stands for no more
than what can be asked of it; `Collector.client` is one.

* `CounterName` — a counter's name, and the names that it is published under.
* `CounterClient` — what can be asked of a client.
-/
import SingleFlight.Metrics.Amount
import SingleFlight.Metrics.Tally

namespace SingleFlight.Metrics

/-- The name of a counter, and the name space that it is put in. -/
structure CounterName where
  space : String
  name : String
deriving DecidableEq, Repr

namespace CounterName

/-- The suffix that the name of every sample has. -/
def totalSuffix : List Char := "_total".toList

/-- A name without the suffix of samples, which is taken off once. -/
def withoutTotal (name : List Char) : List Char :=
  if totalSuffix.isSuffixOf name then name.take (name.length - totalSuffix.length) else name

/-- The name of the family of series that a counter publishes. -/
def family (c : CounterName) : String :=
  let full := if c.space = "" then c.name else c.space ++ "_" ++ c.name
  String.ofList (withoutTotal full.toList)

/-- The name that the samples of a counter are published under. -/
def sampleName (c : CounterName) : String :=
  c.family ++ "_total"

end CounterName

/-- A client that keeps its counters in a registry of type `ρ`. -/
structure CounterClient (ρ : Type) where
  /-- A registry without counters. -/
  empty : ρ
  /-- Declares a counter with the names of its labels. -/
  declare : ρ → CounterName → List String → Except MetricsError ρ
  /-- Chooses a sample of a counter by its labels; a counter without labels has one sample only. -/
  choose : ρ → CounterName → Tags → Except MetricsError ρ
  /-- Counts up the sample with these labels. -/
  inc : ρ → CounterName → Tags → Amount → ρ × Option MetricsError
  /-- Every sample: its name, its labels with their values, and its count as a whole number. -/
  samples : ρ → Except MetricsError (List ((String × Tags) × Int))

/-- The label that no sample can be chosen by, since the choice has that name for itself. -/
def CounterClient.ownLabel : String := "self"

end SingleFlight.Metrics
