/-
SingleFlight.Proofs.Orders — the order of a shutdown does not matter.

A shutdown aborts all active loads, one after the other, and nothing promises in
which order it looks at them. Loads may share a handle, so the first of them to
end releases it and takes it out of the registry for all. What is left in the
end is the same: the ends of loads come to the same in any order, and so do the
ends of the attempts behind them, since no two chunks in flight have one promise.
Only the order in which users are told, promises settle and the log is written
is another one.

* `Run.steps_abort` — a shutdown of loads, when whoever is told returns.
* `Run.closeIn`, `Run.ClosedIn` — such a shutdown in a given order.
* `Loader.redeems`, `Loader.dropLoad`, `Loader.failLoad` — what the end of a load
  does to the cache and to the promises; `Coupled.abortAll_eq` is a shutdown of a
  whole loader, written out with them.
* `Run.shutIn`, `Run.ShutAlike` — shutdowns of a whole loader in two orders.
* `Run.order_irrelevant` — the result, for loads and for whole loaders.
-/
import Mathlib.Data.List.Forall2
import SingleFlight.Proofs.Endings
import SingleFlight.Proofs.Routes
import SingleFlight.Proofs.Untouched

namespace SingleFlight

namespace Loader

variable {l l' : Loader} {a b : AttemptId}

/-- Handles that are released keep their address. -/
theorem sourceOf_endLoad (l : Loader) (type : String) (a : AttemptId) (h : HandleId) :
    (l.endLoad type a).sourceOf h = l.sourceOf h := by
  cases ha : l.attempts.get? a with
  | none => simp only [endLoad, ha]
  | some x =>
    rw [endLoad_of_some ha]
    simp only [sourceOf, Table.get?_update]
    split
    · cases l.handles.get? h <;> rfl
    · rfl

/-- A load is ended by the same signal whichever loads have ended before. -/
theorem endSignal_endLoad (l : Loader) (type : String) (a b : AttemptId) (type' : String) :
    (l.endLoad type a).endSignal b type' = l.endSignal b type' := by
  simp only [endSignal, attempts_endLoad, Table.get?_update, sourceOf_endLoad]
  split
  · cases l.attempts.get? b <;> rfl
  · rfl

/-- The order in which loads are active has no part in it. -/
theorem endLoads_reordered {as : List AttemptId}
    (has : ∀ a ∈ as, ∃ x, l.attempts.get? a = some x) (active : List AttemptId) (type : String) :
    ({ l with active } : Loader).endLoads type as =
      { l.endLoads type as with active := active.filter (· ∉ as) } := by
  induction as generalizing l active with
  | nil => simp [endLoads]
  | cons a rest ih =>
    obtain ⟨x, hx⟩ := has a (List.mem_cons_self ..)
    have first : ({ l with active } : Loader).endLoad type a =
        { l.endLoad type a with active := active.filter (· ≠ a) } := by
      rw [endLoad_of_some hx, endLoad_of_some (l := { l with active }) hx]
      simp only [registryAfter_eq]
    have both : (active.filter (· ≠ a)).filter (· ∉ rest) = active.filter (· ∉ a :: rest) :=
      filter_not_mem_cons id active a rest
    rw [endLoads_cons, first,
      ih (exists_endLoad type a fun b hb => has b (List.mem_cons_of_mem a hb)), both, endLoads_cons]

section Active

variable {p q : List AttemptId} (o : l.Orderly none) (hp : p.Perm l.active)

include o hp

theorem exists_of_perm_active :
    ∀ a ∈ p, ∃ x, ({ l with active := p } : Loader).attempts.get? a = some x := by
  intro a ha
  obtain ⟨-, x, hx, -⟩ := (o.active_iff a).mp (hp.mem_iff.mp ha)
  exact ⟨x, hx⟩

/-- If all active loads end, none is active any more, and no watchdog is armed. -/
theorem none_left (type : String) :
    (({ l with active := p } : Loader).endLoads type p).active = [] ∧
      (({ l with active := p } : Loader).endLoads type p).watchdogs = [] := by
  have has := exists_of_perm_active o hp
  rw [active_endLoads has, watchdogs_endLoads has]
  refine ⟨List.filter_eq_nil_iff.mpr (by simp), List.filter_eq_nil_iff.mpr fun v hv => ?_⟩
  have ha : v.attempt ∈ p := hp.mem_iff.mpr (o.watched.mem_iff.mp (List.mem_map_of_mem hv))
  simp [ha]

/-- All active loads end in whatever order they stand and are looked at. -/
theorem endLoads_active (hq : q.Perm l.active) (type : String) :
    ({ l with active := q } : Loader).endLoads type q =
      ({ l with active := p } : Loader).endLoads type p := by
  have has : ∀ a ∈ p, ∃ x, l.attempts.get? a = some x := exists_of_perm_active o hp
  have hpq : p.Perm q := hp.trans hq.symm
  -- None of them is active in the end, in whatever order they stood.
  have all : ∀ {active : List AttemptId}, p.Perm active →
      ({ l with active } : Loader).endLoads type p = { l.endLoads type p with active := [] } := by
    intro active hperm
    have left : active.filter (· ∉ p) = [] := by
      refine List.filter_eq_nil_iff.mpr fun a ha => ?_
      simp [hperm.mem_iff.mpr ha]
    rw [endLoads_reordered has, left]
  calc ({ l with active := q } : Loader).endLoads type q
      = ({ l with active := q } : Loader).endLoads type p := (endLoads_perm hpq _ type).symm
    _ = { l.endLoads type p with active := [] } := all hpq
    _ = ({ l with active := p } : Loader).endLoads type p := (all (.refl p)).symm

end Active

end Loader

/-! ## §1 Loads that tell their user -/

namespace Run

variable {r : Run} {p q : List AttemptId}

/-- A shutdown tells one load after the other, and each of those who are told returns. -/
theorem steps_abort (answer : Option Answer) :
    ∀ (as : List AttemptId) (r : Run) {l : Loader}, l.Loading none → l.AllOpen as →
      ∃ calls log, List.Forall₂ (fun a c => l.Tells a (l.endSignal a "abort") c) as calls ∧
        (r.after answer (l.drive [.abort as])).steps (List.replicate as.length .returns) =
          { r with
            loader := { l.endLoads "abort" as with log }
            calls := r.calls ++ calls
            answers := r.answers ++ answer.toList }
  | [], r, l, _, _ => by
    refine ⟨[], l.log, .nil, ?_⟩
    simp [steps, Loader.drive, Loader.perform, Loader.abortAll, after, Loader.endLoads]
  | a :: rest, r, l, loading, o => by
    obtain ⟨k, log₁, tells, loading', o', hs⟩ := loading.tell_first o (l.endSignal a "abort")
    have hdrive : l.drive [.abort (a :: rest)] =
        ({ l.endLoad "abort" a with log := log₁ },
          .calling (.tell a k (l.endSignal a "abort"))
            [.signal {} (l.endSignal a "abort"), .abort rest]) := by
      simp only [Loader.drive, Loader.perform, Loader.abortAll, Loader.settleLoad, hs none []]
      rfl
    -- Nothing is left of the signal when the user returns, and the shutdown goes on.
    have hrest : ∀ (l : Loader) (e : LoadEvent),
        l.drive [.signal {} e, .abort rest] = l.drive [.abort rest] := fun _ _ => rfl
    obtain ⟨calls, log, told, hsteps⟩ := steps_abort answer rest
      { r with
        loader := { l.endLoad "abort" a with log := log₁ }
        calls := r.calls ++ [.tell a k (l.endSignal a "abort")] }
      (l := { l.endLoad "abort" a with log := log₁ }) loading' o'
    refine ⟨_ :: calls, log, .cons tells (told.imp fun b c hbc => ?_), ?_⟩
    · have hbc' : (l.endLoad "abort" a).Tells b ((l.endLoad "abort" a).endSignal b "abort") c :=
        hbc
      rw [Loader.endSignal_endLoad] at hbc'
      exact hbc'.of_endLoad
    · rw [hdrive, List.length_cons, List.replicate_succ, steps_cons, step_returns_after, hrest,
        hsteps]
      simp [Loader.endLoads_cons, Loader.endLoads_log]

/-- A shutdown of loads that looks at them in this order, and all who are told return. -/
def closeIn (r : Run) (p : List AttemptId) : Run :=
  ((r.step (.reorder p)).step (.invoke .closeLoads)).steps (List.replicate p.length .returns)

/--
A shutdown told each load in this order that it is aborted, called nobody else and left no load
active.
-/
structure ClosedIn (r : Run) (p : List AttemptId) (r' : Run) : Prop where
  calls : ∃ calls,
    List.Forall₂ (fun a c => r.loader.Tells a (r.loader.endSignal a "abort") c) p calls ∧
      r'.calls = r.calls ++ calls
  suspended : r'.suspended = r.suspended
  active : r'.loader.active = []
  watchdogs : r'.loader.watchdogs = []
  counted : r'.loader.sink = (Loader.countedEnd · "abort")^[p.length] r.loader.sink

theorem step_reorder (hp : p.Perm r.loader.active) :
    r.step (.reorder p) = { r with loader := { r.loader with active := p } } := by
  simp only [step, List.isPerm_iff.mpr hp, if_true]

theorem closeIn_eq (w : Watched r) (hp : p.Perm r.loader.active) :
    ∃ calls log,
      List.Forall₂ (fun a c => r.loader.Tells a (r.loader.endSignal a "abort") c) p calls ∧
        r.closeIn p =
          { r with
            loader := { ({ r.loader with active := p } : Loader).endLoads "abort" p with log }
            calls := r.calls ++ calls
            answers := r.answers ++ [.nothing] } := by
  have aside : r.loader.Aside { r.loader with active := p } :=
    .beside rfl hp rfl rfl rfl rfl rfl rfl
  have loading := aside.loading w.loading
  have o : Loader.AllOpen { r.loader with active := p } p := by
    refine ⟨loading.orderly.nodup, fun a ha => ?_⟩
    exact ((loading.orderly.active_iff a).mp ha).2
  obtain ⟨calls, log, told, hsteps⟩ := steps_abort (some .nothing) p
    { r with loader := { r.loader with active := p } } loading o
  refine ⟨calls, log, told, ?_⟩
  rw [closeIn, step_reorder hp]
  exact hsteps

theorem closedIn_closeIn (w : Watched r) (hp : p.Perm r.loader.active) :
    ClosedIn r p (r.closeIn p) := by
  obtain ⟨calls, log, told, hclose⟩ := closeIn_eq w hp
  obtain ⟨active, watchdogs⟩ := Loader.none_left w.loading.orderly hp "abort"
  rw [hclose]
  exact ⟨⟨calls, told, rfl⟩, rfl, active, watchdogs,
    Loader.sink_endLoads (Loader.exists_of_perm_active w.loading.orderly hp) "abort"⟩

/-- Whoever is told in one order is told in the other. -/
theorem perm_of_told {l : Loader} {event : AttemptId → LoadEvent} {told told' : List Call}
    (hpq : p.Perm q) (hp : List.Forall₂ (fun a c => l.Tells a (event a) c) p told)
    (hq : List.Forall₂ (fun a c => l.Tells a (event a) c) q told') : told'.Perm told := by
  obtain ⟨told₁, h₁, perm⟩ := List.perm_comp_forall₂ hpq hq
  have one : Relator.RightUnique fun a c => l.Tells a (event a) c := by
    rintro a _ _ ⟨x, k, hx, hd, rfl⟩ ⟨y, k', hy, hd', rfl⟩
    rw [hx] at hy
    cases hy
    rw [hd] at hd'
    cases hd'
    rfl
  obtain rfl := List.right_unique_forall₂' one hp h₁
  exact perm.symm

/-- Shutdowns of loads in two orders differ in the order of the calls and in the log. -/
structure CloseAlike (r : Run) (p q : List AttemptId) : Prop where
  closed : ClosedIn r p (r.closeIn p)
  alike : ∃ calls log, calls.Perm (r.closeIn p).calls ∧
    r.closeIn q = { r.closeIn p with loader := { (r.closeIn p).loader with log }, calls }

theorem closeAlike (w : Watched r) (hp : p.Perm r.loader.active) (hq : q.Perm r.loader.active) :
    CloseAlike r p q := by
  obtain ⟨told, log, hp', hcp⟩ := closeIn_eq w hp
  obtain ⟨told', log', hq', hcq⟩ := closeIn_eq w hq
  refine ⟨closedIn_closeIn w hp, r.calls ++ told', log', ?_, ?_⟩
  · rw [hcp]
    exact (perm_of_told (hp.trans hq.symm) hp' hq').append_left r.calls
  · rw [hcq, hcp, Loader.endLoads_active w.loading.orderly hp hq]

end Run

/-! ## §2 Loads that end attempts -/

/-- Settling a promise concerns its own row, and only while it is pending. -/
theorem Promises.table_settle (ps : Promises) (p : PromiseId) (o : Outcome) :
    (ps.settle p o).table = ps.table.update p (Promise.settle · o) := by
  unfold settle
  split
  · rfl
  · rename_i hp
    refine Table.ext_get? fun k => ?_
    rw [Table.get?_update]
    split
    · rename_i hk
      subst hk
      cases hrow : ps.table.get? p with
      | none => rfl
      | some row =>
        cases row with
        | none => simp [isPending, hrow] at hp
        | some o' => rfl
    · rfl

theorem Cache.drop_comm (c : Cache) (chunk chunk' : ChunkId) :
    (c.drop chunk).drop chunk' = (c.drop chunk').drop chunk := by
  simp only [drop, Pairs.erase_comm c.entries chunk chunk']

namespace Loader

variable {l l' : Loader} {a b : AttemptId} {p q : List AttemptId}

/-- The attempt that a load carries out, if it does not tell its user. -/
def redeems (l : Loader) (a : AttemptId) : Option Ticket :=
  (l.attempts.get? a).bind fun x =>
    match x.done with
    | .redeem t => some t
    | .call _ => none

/-- The cache when the attempt of a load has failed. -/
def dropLoad (l : Loader) (cache : Cache) (a : AttemptId) : Cache :=
  match l.redeems a with
  | none => cache
  | some t => cache.drop t.chunk

/-- The promises when the attempt of a load was aborted. -/
def failLoad (l : Loader) (promises : Table Promise) (a : AttemptId) : Table Promise :=
  match l.redeems a with
  | none => promises
  | some t =>
    promises.update t.promise
      (Promise.settle · (l.outcomeOf t.chunk (l.endSignal a "abort")))

theorem redeems_endLoad (l : Loader) (type : String) (a b : AttemptId) :
    (l.endLoad type a).redeems b = l.redeems b := by
  simp only [redeems, attempts_endLoad, Table.get?_update]
  split
  · cases l.attempts.get? b <;> rfl
  · rfl

theorem plan_endLoad (l : Loader) (type : String) (a : AttemptId) :
    (l.endLoad type a).plan = l.plan := by
  unfold endLoad
  split <;> rfl

/-- What the end of a load does to its attempt is settled before any load ends. -/
theorem dropLoad_endLoad (l : Loader) (type : String) (a : AttemptId) :
    (l.endLoad type a).dropLoad = l.dropLoad := by
  funext cache b
  simp only [dropLoad, redeems_endLoad]

theorem failLoad_endLoad (l : Loader) (type : String) (a : AttemptId) :
    (l.endLoad type a).failLoad = l.failLoad := by
  funext promises b
  simp only [failLoad, redeems_endLoad, endSignal_endLoad, outcomeOf, failureOf, plan_endLoad]

theorem dropLoad_perm (hp : p.Perm q) (l : Loader) (cache : Cache) :
    p.foldl l.dropLoad cache = q.foldl l.dropLoad cache := by
  refine hp.foldl_eq' (fun a _ b _ cache => ?_) cache
  unfold dropLoad
  cases l.redeems a with
  | none => rfl
  | some t =>
    cases l.redeems b with
    | none => rfl
    | some t' => exact cache.drop_comm t.chunk t'.chunk

/-- Attempts of different promises fail in either order. -/
theorem failLoad_perm (hp : p.Perm q) (l : Loader)
    (apart : ∀ a ∈ p, ∀ b ∈ p, ∀ t t', l.redeems a = some t → l.redeems b = some t' →
      t.promise = t'.promise → a = b) (promises : Table Promise) :
    p.foldl l.failLoad promises = q.foldl l.failLoad promises := by
  refine hp.foldl_eq' (fun a ha b hb promises => ?_) promises
  by_cases hab : a = b
  · rw [hab]
  · unfold failLoad
    cases ht : l.redeems a with
    | none => rfl
    | some t =>
      cases ht' : l.redeems b with
      | none => rfl
      | some t' =>
        have hne : t.promise ≠ t'.promise := fun e => hab (apart a ha b hb t t' ht ht' e)
        exact promises.update_comm_of_ne hne ..

/-- A shutdown of a whole loader: its loads end, and their attempts fail. -/
theorem Coupled.abortAll_eq (as : List AttemptId) (c : Coupled l none none) (hnodup : as.Nodup)
    (hact : ∀ a ∈ as, a ∈ l.active) :
    ∃ settled ready log, Loader.abortAll as l =
      ({ l.endLoads "abort" as with
          cache := as.foldl l.dropLoad l.cache
          promises := ⟨as.foldl l.failLoad l.promises.table, settled⟩
          ready
          log }, .through) := by
  induction as generalizing l with
  | nil => exact ⟨l.promises.settled, l.ready, l.log, rfl⟩
  | cons a rest ih =>
    obtain ⟨hnew, hrest⟩ := List.nodup_cons.mp hnodup
    obtain ⟨t, ⟨-, h, ha⟩, ht, -⟩ := c.carried a (hact a (List.mem_cons_self ..))
    have hred : l.redeems a = some t := by simp [redeems, ha]
    obtain ⟨ready₁, log₁, hset⟩ := c.settleLoad_eq ha ht (l.endSignal a "abort")
    obtain ⟨l₁, hset₁, c₁, hact₁, -⟩ := c.settleLoad a (l.endSignal a "abort")
    have first : l₁ =
        { l.endLoad "abort" a with
          cache := l.dropLoad l.cache a
          promises := l.promises.settle t.promise (l.outcomeOf t.chunk (l.endSignal a "abort"))
          ready := ready₁
          log := log₁ } := by
      rw [hset] at hset₁
      rw [← (Prod.mk.inj hset₁).1, endLoad_of_some ha]
      simp only [dropLoad, hred]
      rfl
    have left : ∀ b ∈ rest, b ∈ l₁.active := by
      intro b hb
      rw [hact₁, List.mem_filter]
      refine ⟨hact b (List.mem_cons_of_mem a hb), ?_⟩
      simpa using fun e : b = a => hnew (e ▸ hb)
    obtain ⟨settled, ready, log, habort⟩ := ih c₁ hrest left
    have dropped : l₁.dropLoad = l.dropLoad := by
      rw [first]
      exact l.dropLoad_endLoad "abort" a
    have failed : l₁.failLoad = l.failLoad := by
      rw [first]
      exact l.failLoad_endLoad "abort" a
    have cache : l₁.cache = l.dropLoad l.cache a := by rw [first]
    have table : l₁.promises.table = l.failLoad l.promises.table a := by
      rw [first]
      simp only [failLoad, hred]
      exact Promises.table_settle ..
    refine ⟨settled, ready, log, ?_⟩
    rw [Loader.abortAll, hset₁]
    refine habort.trans ?_
    rw [dropped, failed, cache, table, first, endLoads_beside, ← endLoads_cons]
    rfl

/-! ### Shutdowns of the registry -/

/-- Promises, the queue and the log may differ. -/
def Beside (promises : Promises) (log : List LogRecord) (l l' : Loader) : Prop :=
  ∃ ready, l' = { l with promises, ready, log }

namespace Beside

variable {promises : Promises} {log : List LogRecord}

theorem queue (h : Beside promises log l l') (j : Job) :
    Beside promises log (l.queue j) (l'.queue j) := by
  obtain ⟨ready, rfl⟩ := h
  exact ⟨_, rfl⟩

theorem stopFetch (h : Beside promises log l l') (f : FetchId) :
    Beside promises log (l.stopFetch f) (l'.stopFetch f) := by
  have staged : Beside promises log (l.setStage f .stopping) (l'.setStage f .stopping) := by
    obtain ⟨ready, rfl⟩ := h
    exact ⟨ready, rfl⟩
  have fetches : l'.fetches = l.fetches := by
    obtain ⟨ready, rfl⟩ := h
    rfl
  cases hf : l.fetches.get? f with
  | none =>
    simp only [Loader.stopFetch, fetches, hf]
    exact h
  | some x =>
    obtain ⟨handle, stage⟩ := x
    cases stage with
    | created =>
      simp only [Loader.stopFetch, fetches, hf]
      exact staged
    | asked =>
      simp only [Loader.stopFetch, fetches, hf]
      exact staged.queue _
    | answered reply =>
      simp only [Loader.stopFetch, fetches, hf]
      exact staged
    | _ =>
      simp only [Loader.stopFetch, fetches, hf]
      exact h

theorem stopAll (h : Beside promises log l l') (fs : List FetchId) :
    Beside promises log (fs.foldl Loader.stopFetch l) (fs.foldl Loader.stopFetch l') := by
  induction fs generalizing l l' with
  | nil => exact h
  | cons f rest ih => exact ih (h.stopFetch f)

theorem releaseClient (h : Beside promises log l l') (c : ClosingId) (cancelled : Bool) :
    Beside promises log (l.releaseClient c cancelled) (l'.releaseClient c cancelled) := by
  obtain ⟨ready, rfl⟩ := h
  unfold Loader.releaseClient
  dsimp only
  cases l.registry.ownsClient <;> cases cancelled <;> exact ⟨_, rfl⟩

/-- Whether the registry has forgotten a fetch is the only thing in the queue that matters. -/
theorem closeRegistry (h : Beside promises log l l')
    (hq : ∀ f, .forget f ∈ l'.ready ↔ .forget f ∈ l.ready) (c : ClosingId) :
    Beside promises log (l.closeRegistry c) (l'.closeRegistry c) := by
  have ended : l'.isOver = l.isOver := by
    obtain ⟨ready, rfl⟩ := h
    rfl
  have kept : l'.keptFetches = l.keptFetches := by
    have fetches : l'.fetches = l.fetches := by
      obtain ⟨ready, rfl⟩ := h
      rfl
    simp only [keptFetches, ended, fetches, List.contains_eq_mem, hq]
  have closings : l'.closings = l.closings := by
    obtain ⟨ready, rfl⟩ := h
    rfl
  have stopped : ∀ cancelled, Beside promises log (l.stopFetches c cancelled)
      (l'.stopFetches c cancelled) := by
    intro cancelled
    unfold stopFetches
    rw [kept]
    split
    · exact h.releaseClient c cancelled
    · obtain ⟨ready, heq⟩ := h.stopAll l.keptFetches
      rw [heq]
      exact ⟨_, rfl⟩
  unfold Loader.closeRegistry
  rw [closings]
  split
  · exact stopped _
  · exact h

end Beside

end Loader

namespace Run

variable {r : Run} {p q : List AttemptId}

/-- A shutdown of a whole loader that looks at its loads in this order. -/
def shutIn (r : Run) (p : List AttemptId) : Run :=
  (r.step (.reorder p)).step (.invoke .close)

/--
Shutdowns of a whole loader in two orders. The entries of all chunks and the outcomes of all
promises are the same, and if the loader was not shut down before, so is everything else but the
order in which promises have settled, the order of the jobs that tell of it, and the log.
-/
structure ShutAlike (r : Run) (p q : List AttemptId) : Prop where
  cache : (r.shutIn q).loader.cache = (r.shutIn p).loader.cache
  outcomes : ∀ k, (r.shutIn q).loader.promises.outcome? k = (r.shutIn p).loader.promises.outcome? k
  alike : r.loader.closed = false →
    (r.shutIn p).loader.active = [] ∧ (r.shutIn p).loader.watchdogs = [] ∧
      (r.shutIn p).calls = r.calls ∧ ∃ settled ready log,
        r.shutIn q =
          { r.shutIn p with
            loader :=
              { (r.shutIn p).loader with
                promises := ⟨(r.shutIn p).loader.promises.table, settled⟩
                ready
                log } }

/-- A loader that was shut down before has nothing to do. -/
theorem shutIn_of_closed (hp : p.Perm r.loader.active) (hc : r.loader.closed = true) :
    r.shutIn p =
      { r with loader := { r.loader with active := p }, answers := r.answers ++ [.nothing] } := by
  rw [shutIn, step_reorder hp]
  simp [step, Loader.invoke, hc, Loader.atOnce, Loader.drive, after]

/-- A shutdown, written out; it tells no fetch anything before it turns to the registry. -/
theorem shutIn_eq (s : r.Settled) (hp : p.Perm r.loader.active) (hc : r.loader.closed = false) :
    ∃ settled ready log, r.shutIn p =
      { r with
        loader := Loader.closeRegistry
          { ({ r.loader with active := p } : Loader).closing.endLoads "abort" p with
            cache := p.foldl r.loader.dropLoad r.loader.cache
            promises := ⟨p.foldl r.loader.failLoad r.loader.promises.table, settled⟩
            ready
            log } r.loader.closings.size
        answers := r.answers ++ [.closing r.loader.closings.size] } ∧
      ∀ f, Job.forget f ∈ ready ↔ .forget f ∈ r.loader.ready := by
  have c : Loader.Coupled ({ r.loader with active := p } : Loader).closing none none :=
    (s.coupled.reorder hp).congr rfl rfl rfl rfl rfl rfl rfl rfl
  obtain ⟨settled, ready, log, habort⟩ := c.abortAll_eq p c.orderly.nodup fun a ha => ha
  obtain ⟨l', hab, -, -, hdrive⟩ := c.drive_shut r.loader.closings.size
  have habort' : Loader.abortAll p ({ r.loader with active := p } : Loader).closing =
      (l', .through) := hab
  have spared := Loader.Untouched.abortAll p ({ r.loader with active := p } : Loader).closing
  rw [habort] at habort' spared
  cases habort'
  refine ⟨settled, ready, log, ?_, fun f => ⟨fun hf => ?_, fun hf => ?_⟩⟩
  · rw [shutIn, step_reorder hp]
    have invoked : ({ r.loader with active := p } : Loader).invoke .close = _ :=
      Loader.invoke_close hc
    simp only [step, invoked]
    exact congrArg (r.after (some _)) hdrive
  · exact spared.mem_of_ofFetches trivial hf
  · exact spared.mem_ready hf

/-- Each load has an attempt of its own, and that has a promise of its own. -/
theorem Settled.redeems_inj (s : r.Settled) (rested : r.Rested fun _ => True) {a b : AttemptId}
    (ha : a ∈ r.loader.active) (hb : b ∈ r.loader.active) {t t' : Ticket}
    (ht : r.loader.redeems a = some t) (ht' : r.loader.redeems b = some t')
    (heq : t.promise = t'.promise) : a = b := by
  have carried : ∀ a ∈ r.loader.active, ∀ t, r.loader.redeems a = some t →
      r.loader.Carries a t ∧ r.loader.cache.ticketOf? t.chunk = some t := by
    intro a ha t ht
    obtain ⟨t', hcar, hticket, -⟩ := s.coupled.carried a ha
    obtain ⟨-, h, hrow⟩ := id hcar
    simp only [Loader.redeems, hrow, Option.bind_some, Option.some.injEq] at ht
    exact ht ▸ ⟨hcar, hticket⟩
  obtain ⟨hcar, hticket⟩ := carried a ha t ht
  obtain ⟨hcar', hticket'⟩ := carried b hb t' ht'
  have chunk := rested.whole.distinct _ _ _ _ hticket hticket' heq
  rw [chunk, hticket'] at hticket
  cases hticket
  exact s.coupled.unique a b t hcar hcar'

theorem shutAlike (s : r.Settled) (rested : r.Rested fun _ => True)
    (hp : p.Perm r.loader.active) (hq : q.Perm r.loader.active) : ShutAlike r p q := by
  cases hc : r.loader.closed with
  | true =>
    have heq : ∀ {as : List AttemptId}, as.Perm r.loader.active → r.shutIn as =
        { r with loader := { r.loader with active := as }, answers := r.answers ++ [.nothing] } :=
      fun h => shutIn_of_closed h hc
    refine ⟨by rw [heq hp, heq hq], fun k => by rw [heq hp, heq hq], fun h => ?_⟩
    rw [hc] at h
    cases h
  | false =>
    obtain ⟨settled, ready, log, hshut, told⟩ := shutIn_eq s hp hc
    obtain ⟨settled', ready', log', hshut', told'⟩ := shutIn_eq s hq hc
    have hqp : q.Perm p := hq.trans hp.symm
    have apart : ∀ a ∈ q, ∀ b ∈ q, ∀ t t', r.loader.redeems a = some t →
        r.loader.redeems b = some t' → t.promise = t'.promise → a = b :=
      fun a ha b hb t t' => s.redeems_inj rested (hq.mem_iff.mp ha) (hq.mem_iff.mp hb)
    have orderly : Loader.Orderly r.loader.closing none := s.coupled.orderly.congr rfl rfl rfl
    have ends : ({ r.loader with active := q } : Loader).closing.endLoads "abort" q =
        ({ r.loader with active := p } : Loader).closing.endLoads "abort" p :=
      Loader.endLoads_active orderly hp hq "abort"
    obtain ⟨active, watchdogs⟩ := Loader.none_left orderly hp "abort"
    have cache := Loader.dropLoad_perm hqp r.loader r.loader.cache
    have table := Loader.failLoad_perm hqp r.loader apart r.loader.promises.table
    rw [cache, table, ends] at hshut'
    -- What is left after the loads is the same, and so is what the registry makes of it.
    obtain ⟨left, hleft⟩ : ∃ left : Loader, left =
      { ({ r.loader with active := p } : Loader).closing.endLoads "abort" p with
        cache := p.foldl r.loader.dropLoad r.loader.cache
        promises := ⟨p.foldl r.loader.failLoad r.loader.promises.table, settled⟩
        ready
        log } := ⟨_, rfl⟩
    have beside : Loader.Beside ⟨left.promises.table, settled'⟩ log' left
        { left with promises := ⟨left.promises.table, settled'⟩, ready := ready', log := log' } :=
      ⟨ready', rfl⟩
    have unloads := Loader.Unloads.closeRegistry left r.loader.closings.size
    obtain ⟨ready₁, closed⟩ := beside.closeRegistry (fun f => (told' f).trans
      ((told f).symm.trans (by rw [hleft]))) r.loader.closings.size
    have hshut₁ : r.shutIn p =
        { r with
          loader := left.closeRegistry r.loader.closings.size
          answers := r.answers ++ [.closing r.loader.closings.size] } := by rw [hshut, hleft]
    have hshut₂ : r.shutIn q =
        { r with
          loader :=
            { left.closeRegistry r.loader.closings.size with
              promises := ⟨left.promises.table, settled'⟩
              ready := ready₁
              log := log' }
          answers := r.answers ++ [.closing r.loader.closings.size] } := by
      rw [← closed, hshut', hleft]
    have same : (left.closeRegistry r.loader.closings.size).promises = left.promises := by
      obtain ⟨fetches, closings, registry, jobs, heq, -⟩ := unloads
      rw [heq]
    refine ⟨by rw [hshut₁, hshut₂], fun k => by rw [hshut₁, hshut₂, same]; rfl, fun _ => ?_⟩
    refine ⟨?_, ?_, by rw [hshut₁], settled', ready₁, log', by rw [hshut₁, hshut₂, same]⟩
    · rw [hshut₁]
      obtain ⟨fetches, closings, registry, jobs, heq, -⟩ := unloads
      rw [heq, hleft]
      exact active
    · rw [hshut₁]
      obtain ⟨fetches, closings, registry, jobs, heq, -⟩ := unloads
      rw [heq, hleft]
      exact watchdogs

/--
A shutdown may look at the active loads in any order, and loads may share handles. Whether loads
tell their user, who returns, or carry out the attempts of a whole loader: two orders leave the
same behind. The sink refuses no count.
-/
theorem order_irrelevant {policy : Policy} {registry : Registry} {sink : Metrics.Sink}
    (hs : sink.Steady) :
    (registry.handles = [] →
      ∀ r, Reachable (fun _ m => m.OfLoads) { loader := .ofLoads policy registry sink } r →
        ∀ p q, p.Perm r.loader.active → q.Perm r.loader.active → CloseAlike r p q) ∧
    ∀ (resolve : ChunkId → Except Fault String) (hasAsset : ChunkId → Bool)
      (installed : List (ChunkId × String)) (cache : Cache), Cache.seed installed = .ok cache →
      ∀ r, Reachable (fun _ m => m.Outer)
          { loader := .whole policy resolve hasAsset cache registry sink } r →
        ∀ p q, p.Perm r.loader.active → q.Perm r.loader.active → ShutAlike r p q := by
  constructor
  · intro hempty r hr p q hp hq
    exact closeAlike ((Watched.opened policy hempty hs).of_reachable hr) hp hq
  · intro resolve hasAsset installed cache hc r hr p q hp hq
    have opened : Settled { loader := .whole policy resolve hasAsset cache registry sink } :=
      ⟨Loader.coupled_whole policy resolve hasAsset hc registry hs, fun _ h => nomatch h⟩
    have fresh := Rested.opened (fun _ => True) policy resolve hasAsset hc registry sink
    obtain ⟨rested, -⟩ := Rested.of_reachable (I := fun _ => True)
      (fun _ m hm => ⟨hm, m.asks_all⟩) (fun _ _ _ _ _ _ _ _ => trivial) fresh trivial hr
    exact shutAlike (opened.of_reachable hr) rested hp hq

/--
Three loads, of which two share a handle, and a whole loader with two chunks of one address. Users
are told in the order of the shutdown.
-/
theorem order_irrelevant_of_three :
    let opened : Run := { loader := .ofLoads {} (.keyed [] {}) (.tally {}) }
    let r := opened.steps [.invoke (.load (.name "a") "/both.css" (.call 1)),
      .invoke (.load (.name "b") "/both.css" (.call 2)),
      .invoke (.load (.name "c") "/other.css" (.call 3))]
    let whole : Run :=
      { loader := .whole {} (fun _ => .ok "/both.css") (fun _ => true) {} (.keyed [] {})
          (.tally {}) }
    let w := whole.steps [.invoke (.request (.name "a")), .invoke (.request (.name "b"))]
    CloseAlike r [0, 1, 2] [2, 1, 0] ∧ ShutAlike w [0, 1] [1, 0] ∧
      (r.closeIn [2, 1, 0]).calls = [.tell 2 3 (r.loader.signalFrom 1 "abort"),
        .tell 1 2 (r.loader.signalFrom 0 "abort"), .tell 0 1 (r.loader.signalFrom 0 "abort")] ∧
      (w.shutIn [1, 0]).loader.promises.settled = [1, 0] := by
  intro opened r whole w
  obtain ⟨loads, wholes⟩ :=
    @order_irrelevant {} (.keyed [] {}) (.tally {}) (Metrics.Sink.steady_tally {})
  have hr : Reachable (fun _ m => m.OfLoads) opened r := by
    refine Reachable.start.steps _ fun s m hm => ?_
    simp only [List.mem_cons, List.not_mem_nil, or_false] at hm
    rcases hm with rfl | rfl | rfl <;> trivial
  have hw : Reachable (fun _ m => m.Outer) whole w := by
    refine Reachable.start.steps _ fun s m hm => ?_
    simp only [List.mem_cons, List.not_mem_nil, or_false] at hm
    rcases hm with rfl | rfl <;> trivial
  exact ⟨loads rfl r hr [0, 1, 2] [2, 1, 0] (by decide) (by decide),
    wholes (fun _ => .ok "/both.css") (fun _ => true) [] {} rfl w hw [0, 1] [1, 0] (by decide)
      (by decide), by decide, by decide⟩

end Run

end SingleFlight
