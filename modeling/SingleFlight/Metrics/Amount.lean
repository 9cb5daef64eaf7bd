/-
SingleFlight.Metrics.Amount — what a counter is counted up by.

* `Amount.whole?` — the amount as a whole number, as a tally keeps it.
* `Count` — what a declared counter keeps: a double.
* `Amount.count?` — the amount as a double.
-/
import SingleFlight.Double
import SingleFlight.Metrics.Error

namespace SingleFlight.Metrics

/-- What a counter is counted up by. -/
inductive Amount where
  | whole (n : Int)
  | real (x : Float)

/--
What a declared counter has counted, in units of the least double. It is `none` from the time on
when something was counted that is no number.
-/
abbrev Count := Option Nat

namespace Count

/-- The sum of two counts. -/
def add (a b : Count) : Count :=
  match a, b with
  | some a, some b => some (Double.add a b)
  | _, _ => none

/-- A count without its places, if it is a finite number. -/
def whole? : Count → Except MetricsError Int
  | none => .error .notANumber
  | some units =>
    if units < Double.infinity then .ok (units / Double.one : Nat) else .error .infiniteAmount

end Count

namespace Amount

/-- Whether an amount is below zero. -/
def isNegative : Amount → Bool
  | whole n => n < 0
  | real x => x < 0

/-- An amount as a whole number: a double loses its places. -/
def whole? : Amount → Except MetricsError Int
  | whole n => .ok n
  | real x =>
    if x.isNaN then .error .notANumber
    else if x.isInf then .error .infiniteAmount
    else .ok (Double.truncate x)

/-- The size of an amount as a double; a whole number may be beyond all of them. -/
def count? : Amount → Except MetricsError Count
  | whole n =>
    match Double.ofNat? n.natAbs with
    | some n => .ok (some (n * Double.one))
    | none => .error .hugeAmount
  | real x => .ok (if x.isNaN then none else some (Double.units x))

end Amount

end SingleFlight.Metrics
