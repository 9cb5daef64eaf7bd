/-
SingleFlight.Proofs.Histories — the moves that led to a state.

A state does not tell when things happened. A history does: the list of moves
from the start of a use, each of them allowed where it was made.

* `Run.Reachable.mono` — moves that are allowed here are allowed where more is.
* `Run.Admits` — such a list.
* `Run.Admits.keeps` — what every allowed move keeps, a history keeps.
* `Run.exists_flip` — a property that holds and later fails stops to hold at one
  of the moves between.
-/
import SingleFlight.Loader.Run

namespace SingleFlight.Run

variable {allowed : Run → Move → Prop} {r : Run}

theorem steps_append (r : Run) (ms ms' : List Move) :
    r.steps (ms ++ ms') = (r.steps ms).steps ms' :=
  List.foldl_append

theorem steps_cons (r : Run) (m : Move) (ms : List Move) :
    r.steps (m :: ms) = (r.step m).steps ms := rfl

theorem steps_concat (r : Run) (ms : List Move) (m : Move) :
    r.steps (ms ++ [m]) = (r.steps ms).step m :=
  steps_append r ms [m]

theorem Reachable.mono {allowed' : Run → Move → Prop} {r' : Run}
    (h : ∀ s m, allowed s m → allowed' s m) (hr : Reachable allowed r r') :
    Reachable allowed' r r' := by
  induction hr with
  | start => exact .start
  | step _ hm ih => exact .step ih (h _ _ hm)

/-- Every move is allowed in the state in which it is made. -/
def Admits (allowed : Run → Move → Prop) : Run → List Move → Prop
  | _, [] => True
  | r, m :: ms => allowed r m ∧ Admits allowed (r.step m) ms

theorem admits_append : ∀ {r : Run} {ms ms' : List Move},
    r.Admits allowed (ms ++ ms') ↔ r.Admits allowed ms ∧ (r.steps ms).Admits allowed ms'
  | r, [], ms' => by simp [Admits, steps]
  | r, m :: ms, ms' => by
    rw [List.cons_append, steps_cons]
    simp only [Admits, admits_append, and_assoc]

namespace Admits

/-- What every allowed move keeps, a history keeps. -/
theorem keeps {I : Run → Prop} (step : ∀ r m, I r → allowed r m → I (r.step m)) :
    ∀ {r : Run} {ms : List Move}, r.Admits allowed ms → I r → I (r.steps ms)
  | _, [], _, h => h
  | r, m :: ms, hm, h => by
    rw [steps_cons]
    exact keeps step hm.2 (step r m h hm.1)

/-- A move in the middle of a history was allowed after those before it. -/
theorem allowed_of_split {pre post : List Move} {m : Move}
    (h : r.Admits allowed (pre ++ m :: post)) : allowed (r.steps pre) m :=
  (admits_append.mp h).2.1

end Admits

/-- A property that holds and later fails stops to hold at one of the moves between. -/
theorem exists_flip {P : Run → Prop} : ∀ {r : Run} {ms : List Move}, P r → ¬ P (r.steps ms) →
    ∃ pre m post, ms = pre ++ m :: post ∧ P (r.steps pre) ∧ ¬ P ((r.steps pre).step m)
  | _, [], h, hn => absurd h hn
  | r, m :: ms, h, hn => by
    by_cases hm : P (r.step m)
    · obtain ⟨pre, m', post, rfl, hpre, hpost⟩ := exists_flip hm hn
      exact ⟨m :: pre, m', post, rfl, hpre, hpost⟩
    · exact ⟨[], m, ms, rfl, h, hm⟩

end SingleFlight.Run
