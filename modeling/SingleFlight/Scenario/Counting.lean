/-
SingleFlight.Scenario.Counting — scripted uses of a metrics sink.
-/
import SingleFlight.Metrics.Sink

namespace SingleFlight.Scenario

open Metrics

/-- One use of a sink. -/
inductive CountStep where
  | add (name : String) (amount : Amount) (tags : Tags)
  | get (name : String) (tags : Tags)
  | total (name : String)

/-- A use of a sink and its answer; only a tally can be asked for a value. -/
def CountStep.run (s : Sink) : CountStep → Sink × Except MetricsError (Option Int)
  | add name amount tags =>
    match s.add name amount tags with
    | (s, none) => (s, .ok none)
    | (s, some e) => (s, .error e)
  | get name tags =>
    match s with
    | .tally t => (s, (t.ask name tags).map some)
    | _ => (s, .ok none)
  | total name =>
    match s with
    | .tally t => (s, .ok (some (t.total name)))
    | _ => (s, .ok none)

/-- Several uses of a sink, one after the other. -/
def countAll (s : Sink) : List CountStep → Sink × List (Except MetricsError (Option Int))
  | [] => (s, [])
  | step :: rest =>
    let (s, answer) := step.run s
    let (s, answers) := countAll s rest
    (s, answer :: answers)

end SingleFlight.Scenario
