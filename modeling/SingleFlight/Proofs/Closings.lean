/-
SingleFlight.Proofs.Closings — what fetches and shutdowns do to the rest of a loader.

A fetch that is cancelled or comes to its end, and a shutdown of the registry that
goes on, change stages and queue jobs about each other. They leave everything else
alone but the client, which may be closed. Laws about the rest of a loader need to
know nothing more.

* `Job.OfFetches` — the jobs that they queue.
* `Loader.Unloads` — what they do, with one lemma for each of the definitions.
* `Fetch.stop`, `Loader.get?_stopFetches` — what a shutdown does to the fetches.
-/
import SingleFlight.Loader.Operation

namespace SingleFlight

/-- The job was queued by a fetch or a shutdown. -/
def Job.OfFetches : Job → Prop
  | .answer _ => True
  | .forget _ => True
  | .fetchEnded _ _ => True
  | .wakeClosing _ => True
  | _ => False

/-- A fetch after it was cancelled; one that is over stays so. -/
def Fetch.stop (x : Fetch) : Fetch :=
  match x.stage with
  | .over => x
  | _ => { x with stage := .stopping }

theorem Fetch.stop_of_over {x : Fetch} (h : x.stage = .over) : x.stop = x := by
  simp [stop, h]

theorem Fetch.stop_of_ne_over {x : Fetch} (h : x.stage ≠ .over) :
    x.stop = { x with stage := .stopping } := by
  obtain ⟨h', stage⟩ := x
  cases stage with
  | created => rfl
  | asked => rfl
  | answered r => rfl
  | stopping => rfl
  | _ => exact absurd rfl h

/-- To cancel a fetch once more changes nothing. -/
theorem Fetch.stop_comp_stop : stop ∘ stop = stop := by
  funext x
  obtain ⟨h, stage⟩ := x
  cases stage <;> rfl

/-- To close a client once more changes nothing. -/
theorem Registry.shut_shut (r : Registry) : r.shut.shut = r.shut := by
  cases r with
  | document hs n => rfl
  | keyed entries client => simp [shut]

namespace Loader

/-- The fetches are for the same handles as before, and no more or less. -/
def SameFetches (fetches fetches' : Table Fetch) : Prop :=
  ∀ f, (fetches'.get? f).map (·.handle) = (fetches.get? f).map (·.handle)

/-- Fetches and shutdowns move on; the client may have been closed. -/
def Unloads (l l' : Loader) : Prop :=
  ∃ fetches closings registry jobs,
    l' = { l with fetches, closings, registry, ready := l.ready ++ jobs } ∧
      (registry = l.registry ∨ registry = l.registry.shut) ∧ (∀ j ∈ jobs, j.OfFetches) ∧
        SameFetches l.fetches fetches

variable {l l' l'' : Loader}

namespace Unloads

theorem refl (l : Loader) : Unloads l l :=
  ⟨l.fetches, l.closings, l.registry, [], by simp, .inl rfl, nofun, fun _ => rfl⟩

theorem trans (h : Unloads l l') (h' : Unloads l' l'') : Unloads l l'' := by
  obtain ⟨fetches, closings, registry, jobs, rfl, hr, hj, hf⟩ := h
  obtain ⟨fetches', closings', registry', jobs', rfl, hr', hj', hf'⟩ := h'
  refine ⟨fetches', closings', registry', jobs ++ jobs', by simp, ?_, fun j hm => ?_,
    fun f => (hf' f).trans (hf f)⟩
  · rcases hr with rfl | rfl
    · exact hr'
    · rcases hr' with rfl | rfl
      · exact .inr rfl
      · exact .inr (Registry.shut_shut _)
  · exact (List.mem_append.mp hm).elim (hj j) (hj' j)

/-- Only stages change. -/
theorem stages (l : Loader) {fetches : Table Fetch} (closings : Table Closing)
    (hf : SameFetches l.fetches fetches) : Unloads l { l with fetches, closings } :=
  ⟨fetches, closings, l.registry, [], by simp, .inl rfl, nofun, hf⟩

/-- Only jobs are queued. -/
theorem queued (l : Loader) (jobs : List Job) (hj : ∀ j ∈ jobs, j.OfFetches) :
    Unloads l { l with ready := l.ready ++ jobs } :=
  ⟨l.fetches, l.closings, l.registry, jobs, rfl, .inl rfl, hj, fun _ => rfl⟩

theorem queue (l : Loader) {j : Job} (hj : j.OfFetches) : Unloads l (l.queue j) :=
  queued l [j] (by simpa using hj)

theorem setStage (l : Loader) (f : FetchId) (stage : FetchStage) :
    Unloads l (l.setStage f stage) := by
  refine stages l l.closings fun g => ?_
  rw [Table.get?_update]
  split
  · rw [Option.map_map]
    rfl
  · rfl

theorem setClosing (l : Loader) (c : ClosingId) (closing : Closing) :
    Unloads l (l.setClosing c closing) :=
  stages l _ fun _ => rfl

theorem newClosing (l : Loader) : Unloads l l.newClosing.1 :=
  stages l _ fun _ => rfl

/-- The client is closed, if it is the registry's own. -/
theorem shut (l : Loader) : Unloads l { l with registry := l.registry.shut } :=
  ⟨l.fetches, l.closings, _, [], by simp, .inr rfl, nofun, fun _ => rfl⟩

theorem endFetch (l : Loader) (f : FetchId) : Unloads l (l.endFetch f) := by
  refine (setStage l f .over).trans (queued (l.setStage f .over) _ fun j hm => ?_)
  rcases List.mem_cons.mp hm with rfl | hm
  · trivial
  · obtain ⟨x, -, hx⟩ := List.mem_filterMap.mp hm
    obtain ⟨-, hj⟩ := Option.ite_none_right_eq_some.mp hx
    cases hj
    trivial

theorem respond (l : Loader) (url : String) (r : Reply) : Unloads l (l.respond url r).1 := by
  unfold Loader.respond
  split
  · exact (setStage ..).trans (queue _ trivial)
  · exact refl l

theorem stopFetch (l : Loader) (f : FetchId) : Unloads l (l.stopFetch f) := by
  unfold Loader.stopFetch
  split
  · exact setStage ..
  · exact (setStage l f .stopping).trans (queue _ trivial)
  · exact setStage ..
  · exact refl l

theorem releaseClient (l : Loader) (c : ClosingId) (cancelled : Bool) :
    Unloads l (l.releaseClient c cancelled) := by
  unfold Loader.releaseClient
  split
  · dsimp only
    split
    · exact ((shut l).trans (setClosing ..)).trans (queue _ trivial)
    · exact (shut l).trans (setClosing ..)
  · exact setClosing ..

theorem stopFetches (l : Loader) (c : ClosingId) (cancelled : Bool) :
    Unloads l (l.stopFetches c cancelled) := by
  unfold Loader.stopFetches
  split
  · exact releaseClient ..
  · have stopped : Unloads l (l.keptFetches.foldl Loader.stopFetch l) :=
      List.foldlRecOn _ _ (refl l) fun l' h f _ => h.trans (stopFetch l' f)
    refine (stopped.trans (setClosing _ c (.stopping l.keptFetches cancelled))).trans ?_
    refine queued _ ((l.keptFetches.filter l.isOver).map (.fetchEnded c)) fun j hm => ?_
    obtain ⟨f, -, rfl⟩ := List.mem_map.mp hm
    trivial

theorem closeRegistry (l : Loader) (c : ClosingId) : Unloads l (l.closeRegistry c) := by
  unfold Loader.closeRegistry
  split
  · exact stopFetches ..
  · exact refl l

theorem fetchEnded (l : Loader) (c : ClosingId) (f : FetchId) : Unloads l (l.fetchEnded c f) := by
  unfold Loader.fetchEnded
  split
  · dsimp only
    split
    · exact (setClosing ..).trans (queue _ trivial)
    · exact setClosing ..
  · exact refl l

theorem wakeClosing (l : Loader) (c : ClosingId) : Unloads l (l.wakeClosing c) := by
  unfold Loader.wakeClosing
  split
  · exact setClosing ..
  · exact releaseClient ..
  · exact setClosing ..
  · exact refl l

theorem clientClosed (l : Loader) (c : ClosingId) (problem : Option Fault) :
    Unloads l (l.clientClosed c problem).1 := by
  unfold Loader.clientClosed
  split
  · exact (setClosing ..).trans (queue _ trivial)
  · exact refl l

theorem cancelClosing (l : Loader) (c : ClosingId) : Unloads l (l.cancelClosing c).1 := by
  unfold Loader.cancelClosing
  split
  · exact setClosing ..
  · exact setClosing ..
  · exact (setClosing ..).trans (queue _ trivial)
  · exact setClosing ..
  · exact refl l

end Unloads

/-! ## Fetches that are cancelled -/

theorem get?_stopFetch (l : Loader) (f g : FetchId) : (l.stopFetch f).fetches.get? g =
    if f = g then (l.fetches.get? g).map Fetch.stop else l.fetches.get? g := by
  have staged : ∀ x, l.fetches.get? f = some x → ({ x with stage := .stopping } : Fetch) = x.stop →
      (l.setStage f .stopping).fetches.get? g =
        if f = g then (l.fetches.get? g).map Fetch.stop else l.fetches.get? g := by
    intro x hx hstop
    rw [setStage, Table.get?_update]
    by_cases hg : f = g
    · subst hg
      rw [if_pos rfl, if_pos rfl, hx, Option.map_some, Option.map_some, hstop]
    · rw [if_neg hg, if_neg hg]
  unfold stopFetch
  split
  · rename_i h hf
    exact staged _ hf rfl
  · rename_i h hf
    exact staged _ hf rfl
  · rename_i h r hf
    exact staged _ hf rfl
  · -- What is left has no fetch, or one that the cancellation changes nothing of.
    rename_i created asked answered
    split
    · rename_i hg
      subst hg
      cases hf : l.fetches.get? f with
      | none => rfl
      | some x =>
        obtain ⟨h, stage⟩ := x
        cases stage with
        | created => exact absurd hf (created h)
        | asked => exact absurd hf (asked h)
        | answered r => exact absurd hf (answered h r)
        | _ => rfl
    · rfl

theorem get?_stopAll (fs : List FetchId) (l : Loader) (g : FetchId) :
    (fs.foldl stopFetch l).fetches.get? g =
      if g ∈ fs then (l.fetches.get? g).map Fetch.stop else l.fetches.get? g := by
  induction fs generalizing l with
  | nil => rfl
  | cons f rest ih =>
    rw [List.foldl_cons, ih, get?_stopFetch]
    by_cases hr : g ∈ rest
    · rw [if_pos hr, if_pos (List.mem_cons_of_mem f hr)]
      split
      · rw [Option.map_map, Fetch.stop_comp_stop]
      · rfl
    · simp only [List.mem_cons, hr, or_false, if_false, eq_comm (a := g)]

/-- The client's part of a shutdown leaves the fetches alone. -/
@[simp] theorem fetches_releaseClient (l : Loader) (c : ClosingId) (cancelled : Bool) :
    (l.releaseClient c cancelled).fetches = l.fetches := by
  unfold releaseClient
  split
  · dsimp only
    split
    · rfl
    · rfl
  · rfl

/-- Where a shutdown has got to is nothing to the fetches. -/
@[simp] theorem fetches_fetchEnded (l : Loader) (c : ClosingId) (f : FetchId) :
    (l.fetchEnded c f).fetches = l.fetches := by
  unfold fetchEnded
  split
  · dsimp only
    split
    · rfl
    · rfl
  · rfl

@[simp] theorem fetches_wakeClosing (l : Loader) (c : ClosingId) :
    (l.wakeClosing c).fetches = l.fetches := by
  unfold wakeClosing
  split
  · rfl
  · exact fetches_releaseClient ..
  · rfl
  · rfl

@[simp] theorem fetches_clientClosed (l : Loader) (c : ClosingId) (problem : Option Fault) :
    (l.clientClosed c problem).1.fetches = l.fetches := by
  unfold clientClosed
  split
  · rfl
  · rfl

@[simp] theorem fetches_cancelClosing (l : Loader) (c : ClosingId) :
    (l.cancelClosing c).1.fetches = l.fetches := by
  unfold cancelClosing
  split
  · rfl
  · rfl
  · rfl
  · rfl
  · rfl

/-- A shutdown cancels every fetch that is not over. -/
theorem get?_stopFetches (l : Loader) (c : ClosingId) (cancelled : Bool) (f : FetchId) :
    (l.stopFetches c cancelled).fetches.get? f = (l.fetches.get? f).map Fetch.stop := by
  -- What is over is none of its business, whether the registry has forgotten it or not.
  have spared : f ∉ l.keptFetches → (l.fetches.get? f).map Fetch.stop = l.fetches.get? f := by
    intro hf
    cases hx : l.fetches.get? f with
    | none => rfl
    | some x =>
      have hlt : f < l.fetches.size := Table.lt_size_iff.mpr ⟨x, hx⟩
      have ended : x.stage = .over := by
        rw [← Decidable.not_not (p := x.stage = .over)]
        intro hstage
        exact hf (by simp [keptFetches, isOver, hx, hstage, hlt])
      rw [Option.map_some, Fetch.stop_of_over ended]
  have stopped : (l.keptFetches.foldl stopFetch l).fetches.get? f =
      (l.fetches.get? f).map Fetch.stop := by
    rw [get?_stopAll]
    split
    · rfl
    · rename_i hf
      exact (spared hf).symm
  unfold stopFetches
  split
  · rename_i hkept
    rw [fetches_releaseClient, spared (by simp [hkept])]
  · exact stopped

/-- A loader whose shutdown begins. -/
def closing (l : Loader) : Loader :=
  { l with closed := true }.newClosing.1

/-- A shutdown of a loader turns to the loads first. -/
theorem invoke_close {l : Loader} (h : l.closed = false) :
    l.invoke .close = (l.closing,
      .ok (.closing l.closings.size, [.abort l.active, .shut l.closings.size])) := by
  simp [invoke, h, closing, newClosing]

end Loader

end SingleFlight
