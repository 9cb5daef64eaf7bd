/-
SingleFlight.Promise — what the waiters of a load hold.

A promise is pending until it is settled, and its first outcome is its last.

* `Promise.settle` — one promise after an outcome.
* `Promises` — all promises of a loader, and the order in which they settled.
-/
import SingleFlight.Failure
import SingleFlight.Table

namespace SingleFlight

/-- How a promise ends. -/
inductive Outcome where
  | ok
  | cancelled
  | failed (f : LoadFailure)

/-- A promise: its outcome, once it has one. -/
abbrev Promise := Option Outcome

/-- A promise after an outcome: a settled one stays as it is. -/
def Promise.settle (p : Promise) (o : Outcome) : Promise :=
  some (p.getD o)

/-- A promise after each of several outcomes. -/
def Promise.trace (p : Promise) : List Outcome → List Promise
  | [] => []
  | o :: rest => p.settle o :: trace (p.settle o) rest

@[simp] theorem Promise.settle_some (o o' : Outcome) :
    Promise.settle (some o) o' = some o := rfl

@[simp] theorem Promise.settle_none (o : Outcome) : Promise.settle none o = some o := rfl

/-- A promise, by its place among the promises of its loader. -/
abbrev PromiseId := Nat

/-- The promises of a loader. -/
structure Promises where
  table : Table Promise := {}
  /-- The settled ones, in the order in which they settled. -/
  settled : List PromiseId := []

namespace Promises

/-- The outcome of a promise, if it has one. -/
def outcome? (ps : Promises) (p : PromiseId) : Option Outcome :=
  (ps.table.get? p).join

/-- Whether a promise still waits for its outcome. -/
def isPending (ps : Promises) (p : PromiseId) : Bool :=
  match ps.table.get? p with
  | some none => true
  | _ => false

/-- Makes a pending promise. -/
def create (ps : Promises) : Promises × PromiseId :=
  ({ ps with table := ps.table.add none }, ps.table.size)

/-- Settles a promise that is pending. -/
def settle (ps : Promises) (p : PromiseId) (o : Outcome) : Promises :=
  if ps.isPending p then
    { table := ps.table.update p (Promise.settle · o), settled := ps.settled ++ [p] }
  else ps

/-- A promise that has an outcome keeps it, whatever settles afterwards. -/
theorem outcome?_settle_of_some {ps : Promises} {p q : PromiseId} {o o' : Outcome}
    (h : ps.outcome? p = some o) : (ps.settle q o').outcome? p = some o := by
  unfold settle
  split
  · simp only [outcome?, Table.get?_update] at h ⊢
    split
    · subst q
      cases hp : ps.table.get? p with
      | none => simp [hp] at h
      | some r =>
        simp only [hp, Option.join_some] at h
        subst h
        simp
    · exact h
  · exact h

end Promises

end SingleFlight
