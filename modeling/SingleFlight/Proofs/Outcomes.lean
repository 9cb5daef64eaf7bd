/-
SingleFlight.Proofs.Outcomes — each load tells one outcome.

Signals, watchdogs, settlements from outside and a shutdown all want to end a
load, its handle may be shared, and whoever is told may use the loader again or
raise an error. Still a load is told once, when it is over, and not before.

* `Run.Counted` — the calls so far, counted by load.
* `Run.Watched` — the invariant of a use; `Run.stepped_of_move` is its step.
* `Run.one_outcome` — what it comes to.
-/
import SingleFlight.Proofs.Turns

namespace SingleFlight

/-- Whether a call tells the outcome of a load. -/
def Call.tells (a : AttemptId) : Call → Bool
  | .tell b _ _ => b == a
  | _ => false

namespace Run

/-! ## §1 The invariant -/

/-- The calls so far tell each load's outcome once, if it has one, to the one who is to know. -/
structure Counted (calls : List Call) (l : Loader) : Prop where
  told : ∀ a, calls.countP (Call.tells a) = if (l.attempts.get? a).any (·.settled) then 1 else 0
  addressed : ∀ a k e, .tell a k e ∈ calls →
    ∃ x, l.attempts.get? a = some x ∧ x.done = .call k

/-- Loads over a registry in use. -/
structure Watched (r : Run) : Prop where
  loading : r.loader.Loading none
  counted : Counted r.calls r.loader
  frames : ∀ s ∈ r.suspended, ∀ f ∈ s.rest, f.OfLoads

/-- A move keeps the invariant, and whoever it tells finds the load over. -/
structure Stepped (r r' : Run) : Prop where
  watched : Watched r'
  released : ∀ a k e, r'.calls = r.calls ++ [.tell a k e] → r'.loader.Released a e

section Moves

variable {r r' : Run} {l l' : Loader} {answer : Option Answer}

theorem Counted.congr {calls : List Call} (c : Counted calls l)
    (hat : l'.attempts = l.attempts) : Counted calls l' where
  told := by rw [hat]; exact c.told
  addressed := by rw [hat]; exact c.addressed

/-- A load that has just begun has told nothing. -/
theorem Counted.begun {calls : List Call} (c : Counted calls l) {x : Attempt}
    (hx : x.settled = false) (hat : l'.attempts = l.attempts.add x) : Counted calls l' where
  told := by
    intro a
    rw [c.told, hat, Table.get?_add]
    by_cases ha : a = l.attempts.size
    · subst ha
      simp [hx]
    · simp [ha]
  addressed := by
    intro a k e hm
    obtain ⟨y, hy, hd⟩ := c.addressed a k e hm
    refine ⟨y, ?_, hd⟩
    rw [hat]
    exact Table.get?_add_of_some hy x

/-- A load that has just been told has told once. -/
theorem Counted.told_one {calls : List Call} (c : Counted calls l) {a : AttemptId} {x : Attempt}
    {k : CallbackId} {e : LoadEvent} (ha : l.attempts.get? a = some x) (hx : x.settled = false)
    (hd : x.done = .call k)
    (hat : l'.attempts = l.attempts.update a ({ · with settled := true })) :
    Counted (calls ++ [.tell a k e]) l' where
  told := by
    intro b
    rw [List.countP_append, c.told, hat, Table.get?_update]
    by_cases hb : a = b
    · subst hb
      simp [ha, hx, Call.tells]
    · simp [hb, Call.tells]
  addressed := by
    intro b k' e' hm
    have old : ∀ y, l.attempts.get? b = some y → y.done = .call k' →
        ∃ y', l'.attempts.get? b = some y' ∧ y'.done = .call k' := by
      intro y hy hyd
      rw [hat, Table.get?_update, hy]
      split
      · exact ⟨_, rfl, hyd⟩
      · exact ⟨y, rfl, hyd⟩
    rcases List.mem_append.mp hm with hm | hm
    · obtain ⟨y, hy, hyd⟩ := c.addressed b k' e' hm
      exact old y hy hyd
    · cases List.mem_singleton.mp hm
      exact old x ha hd

/-- A move that calls nobody. -/
theorem Stepped.still (w : Watched r') (hc : r'.calls = r.calls) : Stepped r r' where
  watched := w
  released := by
    intro a k e he
    rw [hc] at he
    exact absurd (congrArg List.length he) (by simp)

/-- A load is told, and what is left of the work waits. -/
theorem Stepped.tell {loose : Option AttemptId} (loading : l.Loading loose)
    (counted : Counted r.calls l) (frames : ∀ s ∈ r.suspended, ∀ f ∈ s.rest, f.OfLoads)
    {a : AttemptId} {x : Attempt} {k : CallbackId} {e : LoadEvent} {rest : List Frame}
    (hl : ∀ b, loose = some b → b = a) (ha : l.attempts.get? a = some x)
    (hx : x.settled = false) (hd : x.done = .call k) (hcon : l.conclude a x e = (l', none))
    (hrest : ∀ f ∈ rest, f.OfLoads) :
    Stepped r (r.after answer (l', .calling (.tell a k e) rest)) := by
  obtain ⟨l₁, hcon', loading', released, ended⟩ := loading.conclude hl ha e
  rw [hcon] at hcon'
  cases hcon'
  refine ⟨⟨loading', counted.told_one ha hx hd ended.attempts, ?_⟩, ?_⟩
  · intro s hs
    rcases List.mem_cons.mp hs with rfl | hs
    · exact hrest
    · exact frames s hs
  · intro b k' e' heq
    have heq' : Call.tell a k e = Call.tell b k' e' := by
      simpa using List.append_cancel_left heq
    cases heq'
    exact released

/-- Work on loads, wherever it stops. -/
theorem Stepped.work (loading : l.Loading none) (counted : Counted r.calls l)
    (frames : ∀ s ∈ r.suspended, ∀ f ∈ s.rest, f.OfLoads) {p : Loader × Progress}
    (hp : Loader.Told (fun _ _ => True) l p) : Stepped r (r.after answer p) := by
  cases hp with
  | finished => exact .still ⟨loading, counted, frames⟩ rfl
  | observed k e hrest =>
    refine ⟨⟨loading, ?_, ?_⟩, ?_⟩
    · refine ⟨fun a => ?_, fun a k' e' hm => ?_⟩
      · show (r.calls ++ [Call.observe k e]).countP (Call.tells a) = _
        rw [List.countP_append]
        exact counted.told a
      · refine counted.addressed a k' e' ?_
        simpa [after] using hm
    · intro s hs
      rcases List.mem_cons.mp hs with rfl | hs
      · exact hrest
      · exact frames s hs
    · intro a k' e' heq
      have heq' : Call.observe k e = Call.tell a k' e' := by
        simpa using List.append_cancel_left heq
      cases heq'
  | told _ ha hx hd hcon hrest =>
    exact .tell loading counted frames (by simp) ha hx hd hcon hrest

/-! ## §2 Moves -/

theorem stepped_load (w : Watched r) (chunk : ChunkId) (url : String) (k : CallbackId) :
    Stepped r (r.step (.invoke (.load chunk url (.call k)))) := by
  rcases step_load w.loading chunk url k with
    ⟨l, h, hstep, loading, hat, -⟩ | ⟨l, h, e, l', hstep, loading, hat, -, hnew, hcon, -⟩
  · rw [hstep]
    exact .still ⟨loading, w.counted.begun rfl hat, w.frames⟩ rfl
  · -- The handle is complete: the load that has just begun is told within the same move.
    rw [hstep]
    exact .tell loading (w.counted.begun rfl hat) w.frames
      (fun b hb => (Option.some.inj hb).symm) hnew rfl rfl hcon
      (by simp [Frame.OfLoads, Frame.Within])

theorem stepped_of_turn {m : Move} (w : Watched r) (turn : Turn r m) : Stepped r (r.step m) := by
  cases turn with
  | load chunk url k => exact stepped_load w chunk url k
  | planted handle =>
    show Stepped r (r.after (some (.handle r.loader.handles.size))
      ((r.loader.plant handle).1, .finished))
    exact .still ⟨w.loading.plant handle, w.counted.congr rfl, w.frames⟩ rfl
  | assigned h onLoad onError loading =>
    show Stepped r (r.after (some .nothing)
      (r.loader.assign h onLoad onError loading, .finished))
    exact .still ⟨w.loading.change h fun _ => rfl, w.counted.congr rfl, w.frames⟩ rfl
  | aside hstep aside =>
    rw [hstep]
    exact .still ⟨aside.loading w.loading, w.counted.congr aside.attempts, w.frames⟩ rfl
  | worked hstep origin aside =>
    have loading := aside.loading w.loading
    rw [hstep]
    exact .work loading (w.counted.congr aside.attempts) w.frames
      (loading.told_drive origin.ofLoads)
  | resumed hs =>
    rename_i s outer
    have frames : ∀ s' ∈ s :: outer, ∀ f ∈ s'.rest, f.OfLoads := by
      rw [← hs]
      exact w.frames
    have left : Watched { r with suspended := outer } :=
      ⟨w.loading, w.counted, fun s' hs' => frames s' (List.mem_cons_of_mem s hs')⟩
    have done : Stepped { r with suspended := outer }
        ({ r with suspended := outer }.after s.answer (r.loader.drive s.rest)) :=
      .work left.loading left.counted left.frames
        (left.loading.told_drive (frames s (List.mem_cons_self ..)))
    rw [step_returns hs]
    exact ⟨done.watched, done.released⟩
  | raised f hs =>
    rename_i s outer
    have frames : ∀ s' ∈ s :: outer, ∀ f ∈ s'.rest, f.OfLoads := by
      rw [← hs]
      exact w.frames
    have left : Watched { r with suspended := outer } :=
      ⟨w.loading, w.counted, fun s' hs' => frames s' (List.mem_cons_of_mem s hs')⟩
    rw [step_raises hs (frames s (List.mem_cons_self ..))]
    exact .still left rfl

theorem stepped_of_move {m : Move} (w : Watched r) (hm : m.OfLoads) : Stepped r (r.step m) :=
  stepped_of_turn w (turn_of_move w.loading hm)

end Moves

/-! ## §3 One outcome -/

namespace Watched

variable {r : Run}

/-- A registry that is empty when the loads begin. -/
theorem opened (policy : Policy) {registry : Registry} (hr : registry.handles = [])
    {sink : Metrics.Sink} (hs : sink.Steady) :
    Watched { loader := .ofLoads policy registry sink } := by
  refine ⟨?_, ⟨fun a => by simp [Loader.ofLoads, Table.get?], fun a k e h => nomatch h⟩,
    fun s h => nomatch h⟩
  exact
    { orderly := ⟨List.nodup_nil, by simp [Loader.ofLoads, Table.get?], List.Perm.nil⟩
      steady := hs
      called := fun a x h => by simp [Loader.ofLoads, Table.get?] at h
      placed := fun a x h => by simp [Loader.ofLoads, Table.get?] at h
      tidy := .of_empty hr
      tasks := rfl
      unused := rfl }

theorem of_reachable {start : Run} (h : start.Watched)
    (hr : Run.Reachable (fun _ m => m.OfLoads) start r) : r.Watched := by
  induction hr with
  | start => exact h
  | step _ hm ih => exact (stepped_of_move ih hm).watched

/-- A load that was told is not active, and one that is active was not told. -/
theorem told_eq (w : r.Watched) {a : AttemptId} {x : Attempt}
    (ha : r.loader.attempts.get? a = some x) :
    r.calls.countP (Call.tells a) = if a ∈ r.loader.active then 0 else 1 := by
  rw [w.counted.told, ha]
  cases hx : x.settled with
  | true => simp [w.loading.orderly.not_mem_active_of_settled ha hx, hx]
  | false => simp [w.loading.orderly.mem_active_of_unsettled ha hx, hx]

/-- A load call makes a load that is to tell the one who called. -/
theorem made (w : r.Watched) (chunk : ChunkId) (url : String) (k : CallbackId) :
    ∃ x, (r.step (.invoke (.load chunk url (.call k)))).loader.attempts.get?
      r.loader.attempts.size = some x ∧ x.chunk = chunk ∧ x.done = .call k := by
  rcases step_load w.loading chunk url k with
    ⟨l, h, hstep, -, hat, -⟩ | ⟨l, h, e, l', hstep, -, -, -, hnew, -, ended⟩
  · refine ⟨{ chunk, handle := h, done := .call k }, ?_, rfl, rfl⟩
    rw [hstep]
    show l.attempts.get? r.loader.attempts.size = _
    rw [hat, Table.get?_add_size]
  · refine ⟨{ chunk, handle := h, done := .call k, settled := true }, ?_, rfl, rfl⟩
    rw [hstep]
    exact ended.self hnew

end Watched

/-- What use of loads over a registry comes to: each load has one outcome, and tells it once. -/
structure Outcomes (r : Run) : Prop where
  /-- Each load call makes a load, which is to tell the one who called. -/
  made : ∀ chunk url k,
    ∃ x, (r.step (.invoke (.load chunk url (.call k)))).loader.attempts.get?
      r.loader.attempts.size = some x ∧ x.chunk = chunk ∧ x.done = .call k
  addressed : ∀ a k e, .tell a k e ∈ r.calls →
    ∃ x, r.loader.attempts.get? a = some x ∧ x.done = .call k
  /-- A load has told its outcome once if it is not active any more, and else not yet. -/
  once : ∀ a x, r.loader.attempts.get? a = some x →
    r.calls.countP (Call.tells a) = if a ∈ r.loader.active then 0 else 1
  armed : r.loader.watchdogs.length = r.loader.active.length
  /-- Whoever is told finds that the load has let go of its handle and its watchdog. -/
  released : ∀ m, m.OfLoads → ∀ a k e, (r.step m).calls = r.calls ++ [.tell a k e] →
    (r.step m).loader.Released a e

/--
Loads over a registry, whatever the ones who are told and the observers of handles do: each load
tells one outcome, when it is over. The sink refuses no count.
-/
theorem one_outcome {policy : Policy} {registry : Registry} {sink : Metrics.Sink} {r : Run}
    (hempty : registry.handles = []) (hs : sink.Steady)
    (hr : Run.Reachable (fun _ m => m.OfLoads) { loader := .ofLoads policy registry sink } r) :
    Outcomes r := by
  have w := (Watched.opened policy hempty hs).of_reachable hr
  exact
    { made := w.made
      addressed := w.counted.addressed
      once := fun a x ha => w.told_eq ha
      armed := w.loading.orderly.length_watchdogs
      released := fun m hm => (stepped_of_move w hm).released }

/--
Two loads of one handle, and the one that began last is told of an error first. It starts another
load and raises: the load before it stays active, and is aborted later.
-/
theorem one_outcome_of_raising :
    let opened : Run := { loader := .ofLoads {} (.document [] 0) .silent }
    let r := opened.steps
      [.invoke (.load (.name "a") "/both.css" (.call 1)),
        .invoke (.load (.name "b") "/both.css" (.call 2)), .invoke (.dispatch 0 "error"),
        .invoke (.load (.name "b") "/both.css" (.call 3)), .raises (.foreign "no"),
        .invoke .closeLoads, .returns]
    Outcomes r ∧ r.loader.active = [] ∧ r.calls.length = 3 := by
  intro opened r
  have hr : Reachable (fun _ m => m.OfLoads) opened r := by
    refine Reachable.start.steps _ fun s m hm => ?_
    simp only [List.mem_cons, List.not_mem_nil, or_false] at hm
    rcases hm with rfl | rfl | rfl | rfl | rfl | rfl | rfl <;> trivial
  exact ⟨one_outcome rfl Metrics.Sink.steady_silent hr, by decide, by decide⟩

end Run

end SingleFlight
