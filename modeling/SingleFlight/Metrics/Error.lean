/-
SingleFlight.Metrics.Error — why a sink refuses.

* `MetricsError` — the causes, one constructor each.
* `MetricsError.message` — their wording.
-/
import SingleFlight.Text.Quoted

namespace SingleFlight.Metrics

/-- Why a sink refuses a count, or a question about one. -/
inductive MetricsError where
  /-- The label names differ from those of the first use. -/
  | labelDrift (name : String) (declared given : List String)
  | negativeAmount
  | emptyName
  /-- A name of which nothing is left once its suffix is taken off. -/
  | emptyFamily
  /-- A label whose name is reserved. -/
  | reservedLabel (label : String)
  /-- Another counter publishes series of these names already. -/
  | taken (names : List String)
  /-- A label of the name that the choice of a sample uses itself. -/
  | labelClash (label : String)
  /-- A tag of a name that a question about a counter uses itself. -/
  | tagClash (tag : String)
  /-- An amount beyond the largest double. -/
  | hugeAmount
  /-- An infinite amount where a whole number is wanted. -/
  | infiniteAmount
  /-- An amount that is no number where a whole number is wanted. -/
  | notANumber
deriving DecidableEq, Repr

/-- A name as messages quote it. -/
def quotedName (s : String) : String :=
  String.ofList (Text.quote s.toList)

/-- Label names as messages list them. -/
def labelText : List String → String
  | [] => "()"
  | [l] => "(" ++ quotedName l ++ ",)"
  | ls => "(" ++ ", ".intercalate (ls.map quotedName) ++ ")"

/-- The wording of a refusal. -/
def MetricsError.message : MetricsError → String
  | labelDrift name declared given =>
    "Metric " ++ name ++ " was declared with labels " ++ labelText declared ++ ", got " ++
      labelText given
  | negativeAmount => "Counters can only be incremented by non-negative amounts."
  | emptyName => "Metric name should not be empty"
  | emptyFamily => "metric name cannot be empty"
  | reservedLabel label => "Reserved label metric name: " ++ label
  | taken names =>
    "Duplicated timeseries in CollectorRegistry: \x7b" ++
      ", ".intercalate (names.map quotedName) ++ "\x7d"
  | labelClash label =>
    "MetricWrapperBase.labels() got multiple values for argument " ++ quotedName label
  | tagClash tag =>
    "InMemoryLoaderMetrics.get() got multiple values for argument " ++ quotedName tag
  | hugeAmount => "int too large to convert to float"
  | infiniteAmount => "cannot convert float infinity to integer"
  | notANumber => "cannot convert float NaN to integer"

end SingleFlight.Metrics
