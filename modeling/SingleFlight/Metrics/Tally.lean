/-
SingleFlight.Metrics.Tally — counters kept per name and set of tags.

Tags are kept in the order of their names, so that sets of tags are equal when
their lists are.

* `Tally.add`, `Tally.get`, `Tally.total` — counting, and what was counted.
* `valueAt_addAt` — what a count does to the value of every counter.
-/
import SingleFlight.Metrics.Error
import SingleFlight.Pairs

namespace SingleFlight.Metrics

/-- The tags of one counter: names and values, in the order of the names. -/
abbrev Tags := List (String × String)

/-- Puts tags in the order of their names. -/
def sortTags (tags : Tags) : Tags :=
  tags.mergeSort fun a b => a.1 ≤ b.1

/-- What counters hold under a key; one that was never counted holds zero. -/
def valueAt {κ : Type} [DecidableEq κ] (counters : Pairs κ Int) (key : κ) : Int :=
  (counters.get? key).getD 0

/-- Adds `amount` to what counters hold under a key. -/
def addAt {κ : Type} [DecidableEq κ] (counters : Pairs κ Int) (key : κ) (amount : Int) :
    Pairs κ Int :=
  counters.put key (valueAt counters key + amount)

theorem valueAt_addAt {κ : Type} [DecidableEq κ] (counters : Pairs κ Int) (key k : κ)
    (amount : Int) :
    valueAt (addAt counters key amount) k =
      valueAt counters k + if k = key then amount else 0 := by
  simp only [addAt, valueAt, Pairs.get?_put]
  by_cases h : k = key
  · simp [h]
  · simp [h]

/-- Counters by name and tags, in the order of their first use. -/
structure Tally where
  counters : Pairs (String × Tags) Int := []
deriving DecidableEq, Repr

namespace Tally

/-- Adds to one counter. -/
def add (t : Tally) (name : String) (amount : Int) (tags : Tags) : Tally :=
  ⟨addAt t.counters (name, sortTags tags) amount⟩

/-- The value of the counter with this name and exactly these tags. -/
def get (t : Tally) (name : String) (tags : Tags) : Int :=
  valueAt t.counters (name, sortTags tags)

/-- The names that a question about a counter uses itself, so that none of its tags can. -/
def ownNames : List String := ["self", "name"]

/-- The value of a counter, unless one of its tags has a name that cannot be asked for. -/
def ask (t : Tally) (name : String) (tags : Tags) : Except MetricsError Int :=
  match tags.find? fun (tag, _) => ownNames.contains tag with
  | some (tag, _) => .error (.tagClash tag)
  | none => .ok (t.get name tags)

/-- The sum of the counters with this name. -/
def total (t : Tally) (name : String) : Int :=
  (t.counters.filter (·.1.1 == name)).foldl (fun sum counter => sum + counter.2) 0

end Tally

end SingleFlight.Metrics
