/-
SingleFlight.Metrics.Sink — where counts go.

* `Sink` — a tally, declared counters, or nothing at all.
* `Sink.tallied?` — what a tally has counted, in the order of names and tags.
* `Sink.counters` — everything that was counted, in that order.
-/
import SingleFlight.Metrics.Collector
import SingleFlight.Metrics.Declared

namespace SingleFlight.Metrics

/-- Where counts go. -/
inductive Sink where
  /-- Counts are dropped. -/
  | silent
  | tally (t : Tally)
  /-- The counters are declared with a client that collects doubles. -/
  | declared (d : Declared Collector)
deriving DecidableEq, Repr

namespace Sink

/-- Counts; a sink may change before it refuses. -/
def add (s : Sink) (name : String) (amount : Amount) (tags : Tags) : Sink × Option MetricsError :=
  match s with
  | silent => (silent, none)
  | tally t =>
    match amount.whole? with
    | .ok n => (tally (t.add name n tags), none)
    | .error e => (tally t, some e)
  | declared d =>
    let (d, refusal) := d.add Collector.client name amount tags
    (declared d, refusal)

/-- Whether one list of tags comes before another: by the first pair that differs. -/
def tagsLe : Tags → Tags → Bool
  | [], _ => true
  | _ :: _, [] => false
  | (k, v) :: r, (k', v') :: r' =>
    if k = k' then (if v = v' then tagsLe r r' else decide (v ≤ v')) else decide (k ≤ k')

/-- Counters in the order of their names and tags. -/
def inOrder (cs : List ((String × Tags) × Int)) : List ((String × Tags) × Int) :=
  cs.mergeSort fun a b => if a.1.1 = b.1.1 then tagsLe a.1.2 b.1.2 else decide (a.1.1 ≤ b.1.1)

/-- What a tally has counted; other sinks keep it to themselves. -/
def tallied? : Sink → Option (List ((String × Tags) × Int))
  | tally t => some (inOrder t.counters)
  | _ => none

/-- Everything that was counted, if a sink can tell: a silent one has no list. -/
def counters : Sink → Except MetricsError (Option (List ((String × Tags) × Int)))
  | declared d => d.registry.samples.map fun cs => some (inOrder cs)
  | s => .ok s.tallied?

end Sink

end SingleFlight.Metrics
