/-
SingleFlight.Metrics.Collector — a client that collects counts in doubles.

A counter publishes a family of series, and no two families may have series of one
name. A sample exists from the time it is first chosen, and that of a counter
without labels from the start. Counts are doubles.

* `Collector.declare`, `Collector.choose`, `Collector.inc` — what the client does.
* `Collector.client` — the client.
-/
import SingleFlight.Metrics.Client

namespace SingleFlight.Metrics

/-- One declared counter: its label names and a count for each list of label values seen. -/
structure Declaration where
  labels : List String
  samples : Pairs (List String) Count := []
deriving DecidableEq, Repr

namespace Declaration

/-- The count of a sample. -/
def countOf (m : Declaration) (values : List String) : Count :=
  (m.samples.get? values).getD (some 0)

/-- The counter with one sample's count. -/
def withCount (m : Declaration) (values : List String) (count : Count) : Declaration :=
  { m with samples := m.samples.put values count }

/-- Counts one sample up. -/
def count (m : Declaration) (values : List String) (amount : Amount) :
    Declaration × Option MetricsError :=
  if amount.isNegative then (m, some .negativeAmount)
  else match amount.count? with
    | .error e => (m, some e)
    | .ok count => (m.withCount values ((m.countOf values).add count), none)

end Declaration

/-- Counters in the order of their declaration. -/
structure Collector where
  counters : Pairs CounterName Declaration := []
deriving DecidableEq, Repr

namespace Collector

/-! ## Names -/

/-- The names of the series of a family. -/
def seriesOf (family : String) : List String :=
  [family, family ++ "_total", family ++ "_created"]

/-- The names of all series. -/
def series (r : Collector) : List String :=
  r.counters.flatMap fun (c, _) => seriesOf c.family

/-- Whether a label's name is reserved: it starts with two underscores and is one line. -/
def isReserved (label : String) : Bool :=
  match label.toList with
  | '_' :: '_' :: rest => !rest.dropLast.contains '\n'
  | _ => false

/-! ## Counting -/

/-- The registry with a counter as it is from now on. -/
def withCounter (r : Collector) (c : CounterName) (m : Declaration) : Collector :=
  { counters := r.counters.put c m }

/-- Declares a counter, if its name and its labels can be used. -/
def declare (r : Collector) (c : CounterName) (labels : List String) :
    Except MetricsError Collector :=
  let clashes := (seriesOf c.family).filter r.series.contains
  if c.name = "" then .error .emptyName
  else match labels.find? isReserved with
    | some label => .error (.reservedLabel label)
    | none =>
      if c.family = "" then .error .emptyFamily
      else if clashes ≠ [] then .error (.taken clashes)
      else .ok (r.withCounter c ⟨labels, if labels.isEmpty then [([], some 0)] else []⟩)

/-- Chooses a sample, which exists from then on. -/
def choose (r : Collector) (c : CounterName) (tags : Tags) : Except MetricsError Collector :=
  if (tags.map (·.1)).contains CounterClient.ownLabel then
    .error (.labelClash CounterClient.ownLabel)
  else match r.counters.get? c with
    | some m =>
      let values := tags.map (·.2)
      .ok (r.withCounter c (m.withCount values (m.countOf values)))
    | none => .ok r

/-- Counts a sample up. -/
def inc (r : Collector) (c : CounterName) (tags : Tags) (amount : Amount) :
    Collector × Option MetricsError :=
  match r.counters.get? c with
  | some m =>
    let (m, refusal) := m.count (tags.map (·.2)) amount
    (r.withCounter c m, refusal)
  | none => (r, none)

/-- Every sample with its count. -/
def entries (r : Collector) : List ((String × Tags) × Count) :=
  r.counters.flatMap fun (c, m) =>
    m.samples.map fun (values, count) => ((c.sampleName, m.labels.zip values), count)

/--
Every sample. The first count that is no whole number once its places are left out is the error.
-/
def samples (r : Collector) : Except MetricsError (List ((String × Tags) × Int)) :=
  r.entries.mapM fun (key, count) => return (key, ← count.whole?)

/-- The client. -/
def client : CounterClient Collector where
  empty := {}
  declare := declare
  choose := choose
  inc := inc
  samples := samples

end Collector

end SingleFlight.Metrics
