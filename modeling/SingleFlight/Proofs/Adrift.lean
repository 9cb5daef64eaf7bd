/-
SingleFlight.Proofs.Adrift — counts that are refused.

A sink of declared counters refuses the counts of a name that was declared with
other labels. A whole loader counts in the middle of its work. If the handle of a
load is not counted, the attempt is abandoned, and the next request for its chunk
starts another one. But the start of an attempt is counted when its entry has been
made, and nothing takes the entry back; and the end of a load is counted when the
load waits for nothing any more, and nobody is told of its outcome then. Either
way the attempt stays in flight, with no load that could end it: the chunk is
adrift. Requests join that attempt, and no time is up for it.

Nothing is lost for good. A report ends the attempt in flight when it finds no load
of the chunk, and a report that is refused itself leaves one load less to be found.

* `Loader.Adrift` — such a chunk.
* `Loader.uncounted`, `Requested.standing` — requests that raise: only a start that
  is not counted leaves anything behind.
* `Loader.cutShort`, `Run.Reaches` — ends of loads that are not counted, and the
  moves that come to them.
* `Run.reported`, `Rested.reported_ends` — reports, until one of them is heard.
* `Run.refused_counts` — all of this, in every use of a whole loader with any sink.
-/
import SingleFlight.Proofs.Refusals

namespace SingleFlight

namespace Loader

variable {asked : ChunkId → Prop} {l l' l'' : Loader} {m : Move} {chunk : ChunkId} {f : Fault}

/-- A chunk is in flight, and no load is active that could end its attempt. -/
def Adrift (l : Loader) (chunk : ChunkId) : Prop :=
  (l.cache.ticketOf? chunk).isSome = true ∧ l.loadsOf chunk = []

instance (l : Loader) (chunk : ChunkId) : Decidable (l.Adrift chunk) :=
  inferInstanceAs (Decidable (_ ∧ _))

/-- The sink's objection to the count of a load's end with this outcome, if it has one. -/
def objectionToEnd? (l : Loader) (outcome : String) : Option Fault :=
  (l.count outcomesTotal ("outcome", outcome)).2

/-! ## §1 Loads that wait have begun -/

/-- Active loads and armed watchdogs are those of loads that have begun. -/
structure Issued (l : Loader) : Prop where
  active : ∀ a ∈ l.active, a < l.attempts.size
  armed : ∀ w ∈ l.watchdogs, w.attempt < l.attempts.size

namespace Issued

theorem still (i : Issued l) (h : Eases l l') : Issued l' where
  active := fun a hm => Nat.lt_of_lt_of_le (i.active a (h.active a hm)) h.size
  armed := fun w hm => Nat.lt_of_lt_of_le (i.armed w (h.watchdogs w hm)) h.size

/-- The load that begins is the newest. -/
theorem wait (i : Issued l) (h : Waits l l') : Issued l' where
  active := by
    intro a hm
    obtain ⟨x, hat⟩ := h.begun
    rw [hat, Table.size_add]
    rw [h.active] at hm
    rcases List.mem_append.mp hm with hm | hm
    · exact Nat.lt_succ_of_lt (i.active a hm)
    · rw [List.mem_singleton.mp hm]
      exact Nat.lt_succ_self _
  armed := by
    intro w hm
    obtain ⟨x, hat⟩ := h.begun
    rw [hat, Table.size_add]
    rw [h.watchdogs] at hm
    rcases List.mem_append.mp hm with hm | hm
    · exact Nat.lt_succ_of_lt (i.armed w hm)
    · rw [List.mem_singleton.mp hm]
      exact Nat.lt_succ_self _

/-- The newest load was never active. -/
theorem filter_active (i : Issued l) : l.active.filter (· ≠ l.attempts.size) = l.active :=
  List.filter_eq_self.mpr fun a hm => by simpa using Nat.ne_of_lt (i.active a hm)

theorem filter_watchdogs (i : Issued l) :
    l.watchdogs.filter (·.attempt ≠ l.attempts.size) = l.watchdogs :=
  List.filter_eq_self.mpr fun w hm => by simpa using Nat.ne_of_lt (i.armed w hm)

end Issued

theorem Act.issued (h : Act asked l m l') (i : Issued l) : Issued l' := by
  rcases h.timing.loads with eases | waits
  · exact i.still eases
  · exact i.wait waits

/-! ## §2 Requests that raise -/

/-- No attempt and no load has begun or ended, and nobody has been answered. -/
structure Standing (l l' : Loader) : Prop where
  tickets : ∀ k, l'.cache.ticketOf? k = l.cache.ticketOf? k
  loads : ∀ k, l'.loadsOf k = l.loadsOf k
  active : l'.active = l.active
  watchdogs : l'.watchdogs = l.watchdogs
  registry : l'.registry = l.registry
  outcomes : ∀ p, l'.promises.outcome? p = l.promises.outcome? p
  handed : l'.handed = l.handed

namespace Standing

theorem refl (l : Loader) : Standing l l :=
  ⟨fun _ => rfl, fun _ => rfl, rfl, rfl, rfl, fun _ => rfl, rfl⟩

theorem trans (h : Standing l l') (h' : Standing l' l'') : Standing l l'' where
  tickets := fun k => (h'.tickets k).trans (h.tickets k)
  loads := fun k => (h'.loads k).trans (h.loads k)
  active := h'.active.trans h.active
  watchdogs := h'.watchdogs.trans h.watchdogs
  registry := h'.registry.trans h.registry
  outcomes := fun p => (h'.outcomes p).trans (h.outcomes p)
  handed := h'.handed.trans h.handed

/-- Entries change, but none of those in flight; counts, handles and the log may change. -/
theorem entries (l : Loader) {cache : Cache} (handles : Table Handle) (sink : Metrics.Sink)
    (log : List LogRecord) (h : ∀ k, cache.ticketOf? k = l.cache.ticketOf? k) :
    Standing l { l with cache, handles, sink, log } :=
  ⟨h, fun _ => rfl, rfl, rfl, rfl, fun _ => rfl, rfl⟩

/-- A load has begun and ended. -/
theorem load (i : Issued l) (x : Attempt) (handles : Table Handle) (sink : Metrics.Sink)
    (log : List LogRecord) :
    Standing l { l with attempts := l.attempts.add x, handles, sink, log } where
  tickets := fun _ => rfl
  loads := by
    intro k
    refine List.filter_congr fun a hm => ?_
    rw [Table.get?_add, if_neg (Nat.ne_of_lt (i.active a hm))]
  active := rfl
  watchdogs := rfl
  registry := rfl
  outcomes := fun _ => rfl
  handed := rfl

end Standing

/-- A loader after a request for an unknown chunk, if the sink refuses to count the start. -/
def uncounted (l : Loader) (chunk : ChunkId) : Loader :=
  { l with
    cache := ({ l.cache with used := true }.begin chunk l.promises.create.2).1
    promises := l.promises.create.1
    sink := (l.sink.add requestsTotal (.whole 1) [("result", "start")]).1 }

/-- The start of an attempt that is not counted: its entry stays, and no starter is called. -/
theorem request_uncounted (ho : l.closed = false) (ha : l.plan.hasAsset chunk = true)
    (hf : l.cache.find? chunk = none) (hc : l.objection? "start" = some f) :
    l.request chunk = (l.uncounted chunk, .error f) := by
  have hf' : { l.cache with used := true }.find? chunk = none := hf
  have counted : ({ l with
      cache := ({ l.cache with used := true }.begin chunk l.promises.create.2).1
      promises := l.promises.create.1 } : Loader).count requestsTotal ("result", "start") =
      (l.uncounted chunk, some f) := Prod.ext rfl hc
  have served : l.request chunk = l.serve chunk := by simp [request, ho, ha]
  rw [served]
  simp only [serve, hf', newPromise]
  simp only [Cache.begin] at counted ⊢
  rw [counted]

/-- What a start that is not counted leaves behind. -/
structure LeftInFlight (l : Loader) (chunk : ChunkId) (l' : Loader) : Prop where
  ticket : l'.cache.ticketOf? chunk = some (l.nextTicket chunk)
  pending : l'.promises.isPending (l.nextTicket chunk).promise = true
  /-- Nobody was ever answered with the promise of the attempt. -/
  unheld : ∀ k, (k, (l.nextTicket chunk).promise) ∉ l'.handed
  /-- Loads, handles and watchdogs are as they were. -/
  others : ∃ cache promises sink, l' = { l with cache, promises, sink }
  adrift : l.loadsOf chunk = [] → l'.Adrift chunk

theorem uncounted_spec (w : Whole asked l) (chunk : ChunkId) :
    l.LeftInFlight chunk (l.uncounted chunk) := by
  have ticket : (l.uncounted chunk).cache.ticketOf? chunk = some (l.nextTicket chunk) :=
    (Cache.ticketOf?_begin _ chunk chunk _).trans (if_pos rfl)
  exact
    { ticket
      pending := l.promises.isPending_created
      unheld := fun k hm => Nat.lt_irrefl _ (w.bounded k _ hm)
      others := ⟨_, _, _, rfl⟩
      adrift := fun none => ⟨by rw [ticket]; rfl, none⟩ }

/-- The cache refuses a request because a count was refused. -/
theorem standing_serve (hs : l.serve chunk = (l', .error f)) :
    Standing l l' ∨ l.cache.find? chunk = none := by
  cases hf : l.cache.find? chunk with
  | none => exact .inr rfl
  | some e =>
    refine .inl ?_
    have hf' : { l.cache with used := true }.find? chunk = some e := hf
    cases e with
    | inFlight p =>
      obtain ⟨sink, refusal, hc⟩ := count_eq
        { l with cache := { l.cache with used := true }.join chunk p } requestsTotal
        ("result", "join")
      simp only [serve, hf', hc] at hs
      cases refusal with
      | some f' =>
        cases hs
        exact .entries l l.handles sink l.log fun k => Cache.ticketOf?_join _ chunk k hf'
      | none => cases hs
    | _ =>
      obtain ⟨sink, refusal, hc⟩ := count_eq
        { l with cache := { l.cache with used := true } } requestsTotal ("result", "hit")
      simp only [serve, hf', hc] at hs
      cases refusal with
      | some f' =>
        cases hs
        exact .entries l l.handles sink l.log fun _ => rfl
      | none => cases hs

/-- A request that the cache refuses. -/
theorem standing_request (hr : l.request chunk = (l', .error f)) :
    Standing l l' ∨
      l.closed = false ∧ l.plan.hasAsset chunk = true ∧ l.cache.find? chunk = none := by
  cases ho : l.closed with
  | true =>
    have hr' : l.request chunk = (l, .error .closed) := by simp [request, ho]
    cases hr'.symm.trans hr
    exact .inl (.refl l)
  | false =>
    cases ha : l.plan.hasAsset chunk with
    | true =>
      have served : l.request chunk = l.serve chunk := by simp [request, ho, ha]
      exact (standing_serve (served.symm.trans hr)).imp_right fun hf => ⟨rfl, rfl, hf⟩
    | false =>
      have served : l.request chunk = (l.mark chunk .skipped).serve chunk := by
        simp [request, ho, ha]
      have marked : Standing l (l.mark chunk .skipped) :=
        .entries l l.handles l.sink l.log fun k =>
          Cache.ticketOf?_mark _ chunk k (by simp [Entry.state])
      rcases standing_serve (served.symm.trans hr) with h | hf
      · exact .inl (marked.trans h)
      · simp [mark, Cache.find?_mark] at hf

/-- Only a request for an unknown chunk makes a ticket. -/
theorem ticketed_of_request {p : PromiseId} {t : Ticket}
    (hr : l.request chunk = (l', .ok (p, some t))) :
    l.cache.find? chunk = none ∧ l' = l.ticketed chunk ∧ t = l.nextTicket chunk := by
  have unanswered : ∀ {l₁ : Loader} {e : Entry}, l.request chunk = l₁.serve chunk →
      l₁.cache.find? chunk = some e → False := by
    intro l₁ e served hf
    rcases serve_known hf with ⟨l₂, q, hs⟩ | ⟨_, l₂, f', -, hs⟩
    · cases (hr.symm.trans served).trans hs
    · cases (hr.symm.trans served).trans hs
  cases ho : l.closed with
  | true => simp [request, ho] at hr
  | false =>
    cases ha : l.plan.hasAsset chunk with
    | false =>
      have marked : ∃ e, (l.mark chunk .skipped).cache.find? chunk = some e :=
        Option.ne_none_iff_exists'.mp (by simp [mark, Cache.find?_mark])
      exact (unanswered (by simp [request, ho, ha]) marked.choose_spec).elim
    | true =>
      cases hf : l.cache.find? chunk with
      | some e => exact (unanswered (by simp [request, ho, ha]) hf).elim
      | none =>
        cases hc : l.objection? "start" with
        | some f' => cases (request_uncounted ho ha hf hc).symm.trans hr
        | none =>
          cases (request_unknown ho ha hf hc).symm.trans hr
          exact ⟨rfl, rfl, rfl⟩

/-- A load that ends as soon as it has begun, and whose end is not counted. -/
theorem standing_found (i : Issued l) {t : Ticket} {h : HandleId} {sink : Metrics.Sink}
    {log : List LogRecord} {l₁ : Loader}
    (h₁ : l₁ = { l with
      attempts := l.attempts.add { chunk := t.chunk, handle := h, done := .redeem t }
      sink
      log })
    (hs : l₁.settleLoad l.attempts.size (l₁.signalFrom h "load") = (l', .fails f)) :
    Standing l l' ∧ l'.cache = l.cache := by
  let x : Attempt := { chunk := t.chunk, handle := h, done := .redeem t }
  have row : l₁.attempts.get? l.attempts.size = some x := by
    rw [h₁]
    exact Table.get?_add_size ..
  obtain ⟨sink', log', refusal, hcon⟩ :=
    l₁.conclude_shape l.attempts.size x (l₁.signalFrom h "load")
  have fresh : x.settled = false := rfl
  simp only [settleLoad, signal, row, fresh, hcon, Bool.false_eq_true, if_false] at hs
  cases refusal with
  | none => cases hs
  | some f' =>
    cases hs
    subst h₁
    have ended := detach_eq { l with attempts := l.attempts.add x, sink, log } l.attempts.size h
      (signalFrom { l with attempts := l.attempts.add x, sink, log } h "load")
    have loads : (signalFrom { l with attempts := l.attempts.add x, sink, log } h "load").isLoad =
      true := rfl
    simp only [registryAfter, loads, if_true, Table.update_add_size, i.filter_active,
      i.filter_watchdogs] at ended
    rw [ended]
    exact ⟨.load i _ _ sink' log', rfl⟩

/-- A load whose handle or end is not counted. -/
theorem standing_fetch (i : Issued l) {resolve : ChunkId → Except Fault String} {t : Ticket}
    (hs : l.fetch resolve t = (l', .fails f)) :
    ∃ l₁, Standing l l₁ ∧ l₁.cache = l.cache ∧ l' = l₁.abandon t := by
  unfold fetch at hs
  cases hr : resolve t.chunk with
  | error f' =>
    rw [hr] at hs
    cases hs
    exact ⟨l, .refl l, rfl, rfl⟩
  | ok url =>
    simp only [hr] at hs
    cases hf : l.findHandle t.chunk url with
    | none =>
      obtain ⟨sink, refusal, hc⟩ := count_eq
        { l with handles := l.handles.add (l.madeHandle t.chunk url) } handlesTotal
        ("mode", HandleMode.created.word)
      cases refusal with
      | some f' =>
        rw [load_refused_of_unfound _ hf hc] at hs
        cases hs
        exact ⟨_, .entries l _ sink l.log fun _ => rfl, rfl, rfl⟩
      | none =>
        obtain ⟨log, fetches, asks, hl, -⟩ := load_taken_of_unfound (.redeem t) hf hc
        rw [hl] at hs
        cases hs
    | some h =>
      cases hload : (l.handles.get? h).any (·.loading) with
      | true =>
        obtain ⟨sink, refusal, hc⟩ :=
          count_eq l handlesTotal ("mode", HandleMode.adoptedLoading.word)
        cases refusal with
        | some f' =>
          rw [load_refused_of_found _ hf (by simp [hload]) hc] at hs
          cases hs
          exact ⟨_, .entries l l.handles sink l.log fun _ => rfl, rfl, rfl⟩
        | none =>
          obtain ⟨log, hl⟩ := load_taken_of_loading (.redeem t) hf hload hc
          rw [hl] at hs
          cases hs
      | false =>
        obtain ⟨sink, refusal, hc⟩ :=
          count_eq l handlesTotal ("mode", HandleMode.adoptedComplete.word)
        cases refusal with
        | some f' =>
          rw [load_refused_of_found _ hf (by simp [hload]) hc] at hs
          cases hs
          exact ⟨_, .entries l l.handles sink l.log fun _ => rfl, rfl, rfl⟩
        | none =>
          obtain ⟨log, hl⟩ := load_taken_of_complete (.redeem t) hf hload hc
          rw [hl] at hs
          dsimp only at hs
          split at hs
          · rename_i l₂ f' hend
            cases hs
            obtain ⟨standing, cache⟩ := standing_found i rfl hend
            exact ⟨l₂, standing, cache, rfl⟩
          · cases hs
          · cases hs

/--
A request of a whole loader raises. Either no attempt and no load has begun or ended, or the sink
has refused to count the start of an attempt.
-/
theorem Requested.standing (i : Issued l) {resolve : ChunkId → Except Fault String}
    (hw : l.plan.wiring = .fetch resolve) (h : l.Requested chunk l' (.error f)) :
    Standing l l' ∨ l.objection? "start" = some f ∧ l' = l.uncounted chunk := by
  cases h with
  | refused h =>
    refine (standing_request h).imp_right fun ⟨ho, ha, hf⟩ => ?_
    cases hc : l.objection? "start" with
    | none => cases (request_unknown ho ha hf hc).symm.trans h
    | some f' =>
      cases (request_uncounted ho ha hf hc).symm.trans h
      exact ⟨rfl, rfl⟩
  | failed h hs =>
    refine .inl ?_
    obtain ⟨hf, rfl, rfl⟩ := ticketed_of_request h
    have hw' : (l.ticketed chunk).plan.wiring = .fetch resolve := hw
    have issued : Issued (l.ticketed chunk) := i.still (.of_eq rfl rfl rfl)
    simp only [start, hw'] at hs
    obtain ⟨l₁, standing, cache, rfl⟩ := standing_fetch issued hs
    -- The entry that was made for the attempt is dropped again, and it was the only new one.
    have honoured : l₁.cache.honours (l.nextTicket chunk) = true := by
      rw [cache]
      exact Cache.honours_of_ticketOf? ((Cache.ticketOf?_begin _ chunk chunk _).trans (if_pos rfl))
    have dropped : ∀ k, (l₁.cache.drop chunk).ticketOf? k = l.cache.ticketOf? k := by
      intro k
      have begun : (l.ticketed chunk).cache.ticketOf? k =
          if k = chunk then some (l.nextTicket chunk) else l.cache.ticketOf? k :=
        Cache.ticketOf?_begin { l.cache with used := true } chunk k _
      rw [Cache.ticketOf?_drop, cache, begun]
      split
      · rename_i hk
        rw [hk, Cache.ticketOf?, hf]
      · rfl
    unfold abandon
    rw [if_pos honoured]
    exact
      { tickets := dropped
        loads := standing.loads
        active := standing.active
        watchdogs := standing.watchdogs
        registry := standing.registry
        outcomes := fun p => (standing.outcomes p).trans (Promises.outcome?_create l.promises p)
        handed := standing.handed }

/-! ## §3 Ends that are not counted -/

/-- A loader after the end of a load, when it has been counted and before anyone is told. -/
def cutShort (l : Loader) (a : AttemptId) (x : Attempt) (e : LoadEvent) : Loader :=
  { l.detach a x.handle e with sink := countedEnd l.sink e.type }

section CutShort

variable {a : AttemptId} {x : Attempt} {e : LoadEvent}

theorem count_end (l : Loader) (a : AttemptId) (x : Attempt) (e : LoadEvent) :
    (l.detach a x.handle e).count outcomesTotal ("outcome", e.type) =
      (l.cutShort a x e, l.objectionToEnd? e.type) := by
  unfold cutShort
  rw [detach_eq]
  rfl

theorem conclude_refused (hc : l.objectionToEnd? e.type = some f) :
    l.conclude a x e = (l.cutShort a x e, some f) := by
  simp only [conclude, count_end, hc]

theorem conclude_taken (hc : l.objectionToEnd? e.type = none) :
    ∃ l', l.conclude a x e = (l', none) ∧ l'.cache = l.cache := by
  obtain ⟨log, hn⟩ := noteOutcome_eq (l.cutShort a x e) x.chunk e
  refine ⟨{ l.cutShort a x e with log }, by simp only [conclude, count_end, hc, hn], ?_⟩
  unfold cutShort
  rw [detach_eq]

/-- The signal stops at the load whose end is not counted; whoever comes after it is not told. -/
theorem signal_cutShort (ha : l.attempts.get? a = some x) (hx : x.settled = false)
    (hc : l.objectionToEnd? e.type = some f) (foreign : Option CallbackId)
    (rest : List AttemptId) :
    signal e foreign (a :: rest) l = (l.cutShort a x e, .fails f) := by
  simp only [signal, ha, hx, conclude_refused hc, Bool.false_eq_true, if_false]

/-- A load is over and nobody has been told of it. -/
structure CutShort (l : Loader) (a : AttemptId) (l' : Loader) : Prop where
  ended : ∃ x, l'.attempts.get? a = some x ∧ x.settled = true
  inactive : a ∉ l'.active
  disarmed : ∀ w ∈ l'.watchdogs, w.attempt ≠ a
  loads : ∀ k, l'.loadsOf k = (l.loadsOf k).filter (· ≠ a)
  cache : l'.cache = l.cache
  promises : l'.promises = l.promises
  handed : l'.handed = l.handed
  ready : l'.ready = l.ready
  /-- If the load was the only one of a chunk in flight, the chunk is adrift. -/
  adrift : ∀ k t, l.cache.ticketOf? k = some t → l.loadsOf k = [a] → l'.Adrift k

theorem cutShort_spec (ha : l.attempts.get? a = some x) (e : LoadEvent) :
    l.CutShort a (l.cutShort a x e) := by
  unfold cutShort
  rw [detach_eq]
  have loads : ∀ k, (l.active.filter (· ≠ a)).filter
      (fun b => ((l.attempts.update a ({ · with settled := true })).get? b).any (·.chunk == k)) =
      (l.loadsOf k).filter (· ≠ a) := by
    intro k
    unfold loadsOf
    rw [List.filter_comm]
    refine congrArg (List.filter _) (List.filter_congr fun b hm => ?_)
    rw [Table.get?_update]
    split
    · rename_i hb
      subst hb
      simp [ha]
    · rfl
  exact
    { ended := ⟨_, Table.get?_update_self ha _, rfl⟩
      inactive := fun hm => by simpa using List.of_mem_filter hm
      disarmed := fun w hm => by simpa using List.of_mem_filter hm
      loads
      cache := rfl
      promises := rfl
      handed := rfl
      ready := rfl
      adrift := by
        intro k t ht only
        refine ⟨Option.isSome_iff_exists.mpr ⟨t, ht⟩, (loads k).trans ?_⟩
        rw [only]
        simp }

end CutShort

/-! ## §4 Reports -/

/-- A report of an outcome has ended the attempt of a ticket. -/
structure Heard (t : Ticket) (e : LoadEvent) (l : Loader) : Prop where
  state : l.cache.state t.chunk = if e.isLoad then .loaded else .unknown
  settled : l.promises.isPending t.promise = false

section Heard

variable {t t' : Ticket} {e : LoadEvent}

theorem heard_settleEntry (l : Loader) (t : Ticket) (e : LoadEvent) :
    Heard t e (l.settleEntry t e) := by
  obtain ⟨ready, log, hs⟩ := l.settleEntry_eq t e
  rw [hs]
  refine ⟨?_, ?_⟩
  · cases he : e.isLoad with
    | true => simp [Cache.state, Cache.find?_finish, Entry.state]
    | false => simp [Cache.state, Cache.find?_drop]
  · simp [Promises.isPending_settle]

/-- A load of the chunk ends its attempt, unless it was for another one. -/
theorem heard_redeem (hh : l.cache.honours t = true) (t' : Ticket) (e : LoadEvent) :
    (l.redeem t' e).cache.honours t = true ∨ Heard t e (l.redeem t' e) := by
  cases hh' : l.cache.honours t' with
  | false =>
    obtain ⟨log, hr⟩ := redeem_of_not_honours hh' e
    rw [hr]
    exact .inl hh
  | true =>
    rw [redeem_of_honours hh']
    by_cases hk : t.chunk = t'.chunk
    · refine .inr ?_
      obtain ⟨p, hp, hprom⟩ := Cache.honours_iff.mp hh
      obtain ⟨p', hp', hprom'⟩ := Cache.honours_iff.mp hh'
      rw [← hk, hp] at hp'
      cases hp'
      have heard := heard_settleEntry l t' e
      exact ⟨hk ▸ heard.state, by rw [← hprom, hprom']; exact heard.settled⟩
    · refine .inl ?_
      obtain ⟨ready, log, hs⟩ := l.settleEntry_eq t' e
      obtain ⟨p, hp, hprom⟩ := Cache.honours_iff.mp hh
      rw [hs]
      exact Cache.honours_iff.mpr ⟨p, by rw [Cache.find?_ended, if_neg hk]; exact hp, hprom⟩

/-- What the cache makes of a report when the loads are through with it. -/
theorem heard_settle (h : l.cache.honours t = true ∨ Heard t e l) :
    ∃ l', l.drive [.settle t e] = (l', .finished) ∧ Heard t e l' := by
  cases hh : l.cache.honours t with
  | true => exact ⟨_, by simp [drive, perform, hh], heard_settleEntry l t e⟩
  | false =>
    refine ⟨l, by simp [drive, perform, hh], h.resolve_left ?_⟩
    simp [hh]

/-- A report ends the attempt in flight, unless the end of a load of its chunk is not counted. -/
theorem Whole.heard_report (w : Whole asked l) (hh : l.cache.honours t = true) (e : LoadEvent) :
    (∃ l', l.drive [.consult t.chunk e, .settle t e] = (l', .finished) ∧ Heard t e l') ∨
      ∃ a l' f, a ∈ l.loadsOf t.chunk ∧
        l.drive [.consult t.chunk e, .settle t e] = (l', .raised f) ∧ l.CutShort a l' := by
  obtain ⟨resolve, hw⟩ := w.wired
  cases hfor : l.activeFor? t.chunk with
  | none =>
    have silent : l.drive [.consult t.chunk e, .settle t e] = l.drive [.settle t e] := by
      simp [drive, perform, consult, hw, hfor]
    rw [silent]
    exact .inl (heard_settle (.inl hh))
  | some a =>
    have hmem : a ∈ l.loadsOf t.chunk := by
      have of_chunk := List.find?_some hfor
      exact List.mem_filter.mpr ⟨List.mem_of_find?_eq_some hfor, of_chunk⟩
    have of_through : ∀ {l₁ : Loader}, l.settleLoad a e = (l₁, .through) →
        l.drive [.consult t.chunk e, .settle t e] = l₁.drive [.settle t e] := by
      intro l₁ hset
      simp [drive, perform, consult, hw, hfor, hset]
    cases ha : l.attempts.get? a with
    | none => simp [loadsOf, ha] at hmem
    | some x =>
      cases hx : x.settled with
      | true =>
        have hset : l.settleLoad a e = (l, .through) := by simp [settleLoad, signal, ha, hx]
        rw [of_through hset]
        exact .inl (heard_settle (.inl hh))
      | false =>
        cases hc : l.objectionToEnd? e.type with
        | some f =>
          refine .inr ⟨a, l.cutShort a x e, f, hmem, ?_, cutShort_spec ha e⟩
          have hset : l.settleLoad a e = (l.cutShort a x e, .fails f) :=
            signal_cutShort ha hx hc none []
          simp [drive, perform, consult, hw, hfor, hset, unwind]
        | none =>
          obtain ⟨t', ht'⟩ := w.redeems a x ha
          obtain ⟨l₁, hcon, cache⟩ := l.conclude_taken (a := a) (x := x) hc
          have hset : l.settleLoad a e = (l₁.redeem t' e, .through) := by
            simp [settleLoad, signal, ha, hx, hcon, ht']
          rw [of_through hset]
          exact .inl (heard_settle (heard_redeem (by rw [cache]; exact hh) t' e))

end Heard

/-! ## §5 Moves -/

/-- Work that ends a load before it does anything else. -/
inductive EndsFirst (l : Loader) : List Frame → AttemptId → LoadEvent → Prop
  /-- The load's handle gives a signal, or its watchdog. -/
  | signal (a : AttemptId) (rest : List AttemptId) (foreign : Option CallbackId) (e : LoadEvent) :
      EndsFirst l [.signal ⟨a :: rest, foreign⟩ e] a e
  | report {resolve : ChunkId → Except Fault String} {chunk : ChunkId} {a : AttemptId}
      (hw : l.plan.wiring = .fetch resolve) (ha : l.activeFor? chunk = some a) (t : Ticket)
      (e : LoadEvent) : EndsFirst l [.consult chunk e, .settle t e] a e
  | shutdown (a : AttemptId) (rest : List AttemptId) (c : ClosingId) :
      EndsFirst l [.abort (a :: rest), .shut c] a (l.endSignal a "abort")

theorem EndsFirst.drive {work : List Frame} {a : AttemptId} {x : Attempt} {e : LoadEvent}
    (h : EndsFirst l work a e) (ha : l.attempts.get? a = some x) (hx : x.settled = false)
    (hc : l.objectionToEnd? e.type = some f) :
    ∃ l', l.drive work = (l', .raised f) ∧ l.CutShort a l' := by
  have hset : l.settleLoad a e = (l.cutShort a x e, .fails f) := signal_cutShort ha hx hc none []
  have cut := cutShort_spec ha e
  cases h with
  | signal a rest foreign e =>
    refine ⟨_, ?_, cut⟩
    simp only [Loader.drive, perform, signal_cutShort ha hx hc foreign rest, unwind]
  | report hw hfor t e =>
    refine ⟨_, ?_, cut⟩
    simp only [Loader.drive, perform, consult, hw, hfor, hset, unwind]
  | shutdown a rest c =>
    -- The shutdown is over with the error, which is nothing to loads and chunks.
    refine ⟨(l.cutShort a x (l.endSignal a "abort")).setClosing c (.over (.fault f)), ?_,
      { cut with adrift := fun k t ht hl => { cut.adrift k t ht hl with } }⟩
    simp only [Loader.drive, perform, abortAll, hset, unwind]

end Loader

namespace Run

open Loader (Standing LeftInFlight CutShort Heard)

variable {asked : ChunkId → Prop} {r : Run} {m : Move} {l : Loader} {a : AttemptId} {e : LoadEvent}
  {f : Fault} {chunk : ChunkId} {t : Ticket}

/-- A move is about to end a load of this loader. -/
inductive Reaches (r : Run) : Move → Loader → AttemptId → LoadEvent → Prop
  | invoked {op : Operation} {l : Loader} {answer : Answer} {work : List Frame} {a : AttemptId}
      {e : LoadEvent} (h : r.loader.invoke op = (l, .ok (answer, work))) (hc : l.EndsFirst work a e) :
      Reaches r (.invoke op) l a e
  | ran {job : Job} {l₀ l : Loader} {work : List Frame} {a : AttemptId} {e : LoadEvent}
      (hi : r.idle = true) (hj : r.loader.nextJob? = some (job, l₀))
      (h : l₀.runJob job = (l, work)) (hc : l.EndsFirst work a e) : Reaches r .runJob l a e
  | fired {target : Float} {l : Loader} {work : List Frame} {a : AttemptId} {e : LoadEvent}
      (hi : r.idle = true) (h : r.loader.fireNext? target = some (l, work))
      (hc : l.EndsFirst work a e) : Reaches r (.fire target) l a e

theorem Reaches.step {x : Attempt} (h : r.Reaches m l a e) (ha : l.attempts.get? a = some x)
    (hx : x.settled = false) (hc : l.objectionToEnd? e.type = some f) :
    ∃ l', r.step m = { r with loader := l' } ∧ l.CutShort a l' := by
  cases h with
  | invoked h comes =>
    obtain ⟨l', hd, cut⟩ := comes.drive ha hx hc
    exact ⟨l', by simp only [Run.step, h, hd, after], cut⟩
  | ran hi hj h comes =>
    obtain ⟨l', hd, cut⟩ := comes.drive ha hx hc
    exact ⟨l', by simp only [Run.step, hi, hj, h, hd, after], cut⟩
  | fired hi h comes =>
    obtain ⟨l', hd, cut⟩ := comes.drive ha hx hc
    exact ⟨l', by simp only [Run.step, hi, h, hd, after], cut⟩

/-- The use after an outcome has been reported for a chunk so many times. -/
def reported (r : Run) (chunk : ChunkId) (e : LoadEvent) (n : Nat) : Run :=
  r.steps (List.replicate n (.invoke (.report chunk e)))

/-- One report of an outcome for a chunk in flight. -/
theorem Rested.heard_report (h : r.Rested asked) (ht : r.loader.cache.ticketOf? t.chunk = some t)
    (e : LoadEvent) :
    Heard t e (r.step (.invoke (.report t.chunk e))).loader ∨
      ∃ b ∈ r.loader.loadsOf t.chunk,
        r.loader.CutShort b (r.step (.invoke (.report t.chunk e))).loader := by
  have asks : r.loader.invoke (.report t.chunk e) =
      (r.loader, .ok (.nothing, [.consult t.chunk e, .settle t e])) := by
    simp [Loader.invoke, Loader.report, ht]
  rcases h.whole.heard_report (Cache.honours_of_ticketOf? ht) e with
    ⟨l', hd, heard⟩ | ⟨b, l', f, hmem, hd, cut⟩
  · refine .inl ?_
    simp only [step, asks, hd, after]
    exact heard
  · refine .inr ⟨b, hmem, ?_⟩
    simp only [step, asks, hd, after]
    exact cut

/-- Reports for a chunk in flight, each of which ends a load of the chunk until one is heard. -/
theorem Rested.reported_ends (h : r.Rested asked)
    (ht : r.loader.cache.ticketOf? t.chunk = some t) (e : LoadEvent) :
    ∃ n, n ≤ (r.loader.loadsOf t.chunk).length + 1 ∧ Heard t e (r.reported t.chunk e n).loader := by
  induction hn : (r.loader.loadsOf t.chunk).length using Nat.strong_induction_on generalizing r with
  | _ left ih =>
    rcases h.heard_report ht e with heard | ⟨b, hmem, cut⟩
    · exact ⟨1, by simp, heard⟩
    · have fewer : ((r.step (.invoke (.report t.chunk e))).loader.loadsOf t.chunk).length < left := by
        rw [cut.loads, ← hn]
        exact List.length_filter_lt_length_iff_exists.mpr ⟨b, hmem, by simp⟩
      have rested := (h.acts (m := .invoke (.report t.chunk e)) trivial trivial).2
      obtain ⟨n, hle, heard⟩ := ih _ fewer rested (by rw [cut.cache]; exact ht) rfl
      exact ⟨n + 1, by omega, heard⟩

/-- What counts that are refused do to a whole loader, and what helps afterwards. -/
structure Uncounted (r : Run) : Prop where
  /-- A start that is not counted: the attempt is in flight, and no load begins. -/
  started : ∀ chunk f, r.loader.closed = false → r.loader.plan.hasAsset chunk = true →
    r.loader.cache.find? chunk = none → r.loader.objection? "start" = some f →
      ∃ l, r.loader.Requested chunk l (.error f) ∧ r.loader.LeftInFlight chunk l
  /-- No other request that raises leaves anything behind, whatever was not counted. -/
  requested : ∀ chunk l f, r.loader.Requested chunk l (.error f) →
    r.loader.Standing l ∨ r.loader.objection? "start" = some f ∧ r.loader.LeftInFlight chunk l
  /-- An end that is not counted: the load is over, and its attempt stays in flight. -/
  ended : ∀ m l a e x f, r.Reaches m l a e → l.attempts.get? a = some x → x.settled = false →
    l.objectionToEnd? e.type = some f → ∃ l', r.step m = { r with loader := l' } ∧ l.CutShort a l'
  /-- Reports settle every promise that somebody was answered with, and its chunk is free again. -/
  reported : ∀ chunk p e, (chunk, p) ∈ r.loader.handed → r.loader.promises.isPending p = true →
    ∃ n t, n ≤ (r.loader.loadsOf chunk).length + 1 ∧ t.chunk = chunk ∧ t.promise = p ∧
      Heard t e (r.reported chunk e n).loader

/--
In every use of a whole loader, whatever its sink refuses: a request whose start is not counted
leaves its attempt in flight with nothing to end it, and so does the end of a load that is not
counted. Every other request that raises leaves all attempts as they were, and promises that were
handed out can be settled by reports.
-/
theorem refused_counts {policy : Policy} {resolve : ChunkId → Except Fault String}
    {hasAsset : ChunkId → Bool} {installed : List (ChunkId × String)} {cache : Cache}
    {registry : Registry} {sink : Metrics.Sink} {r : Run}
    (hc : Cache.seed installed = .ok cache)
    (hr : Reachable (fun _ m => m.Outer)
      { loader := .whole policy resolve hasAsset cache registry sink } r) : r.Uncounted := by
  have opened := Rested.opened (fun _ => True) policy resolve hasAsset hc registry sink
  obtain ⟨rested, issued⟩ := Rested.of_reachable (I := Loader.Issued)
    (fun _ m hm => ⟨hm, m.asks_all⟩) (fun _ _ _ _ _ _ h i => h.issued i) opened
    ⟨nofun, nofun⟩ hr
  exact
    { started := fun chunk f ho ha hf hobj =>
        ⟨_, .refused (Loader.request_uncounted ho ha hf hobj),
          Loader.uncounted_spec rested.whole chunk⟩
      requested := by
        intro chunk l f h
        obtain ⟨resolve', hw⟩ := rested.whole.wired
        refine (h.standing issued hw).imp_right fun ⟨hobj, hl⟩ => ⟨hobj, ?_⟩
        rw [hl]
        exact Loader.uncounted_spec rested.whole chunk
      ended := fun m l a e x f h ha hx hobj => h.step ha hx hobj
      reported := by
        intro chunk p e hm hp
        obtain ⟨t, ht, hprom⟩ := rested.whole.awaited chunk p hm hp
        have hchunk := Cache.chunk_of_ticketOf? ht
        subst hchunk
        obtain ⟨n, hle, heard⟩ := rested.reported_ends ht e
        exact ⟨n, t, hle, rfl, hprom, heard⟩ }

/--
Two sinks, each with a counter that was declared with another label. With the first a request
raises and leaves its chunk adrift. With the second the signal of the handle raises: the load is
over, the promise that the request was answered with is still pending, and so it is handed out to
the next request, which starts nothing.
-/
theorem refused_counts_strand :
    let chunk : ChunkId := .name "a"
    let opened (counter : String) : Run :=
      { loader := .whole {} (fun _ => .ok "/a.css") (fun _ => true) {} (.document [] 0)
          (SinkBackend.declared.create.add counter (.whole 1) [("chunk", "a")]).1 }
    let unstarted := (opened Loader.requestsTotal).step (.invoke (.request chunk))
    let ended := (opened Loader.outcomesTotal).steps
      [.invoke (.request chunk), .invoke (.dispatch 0 "error")]
    let joined := ended.step (.invoke (.request chunk))
    (unstarted.loader.Adrift chunk ∧ unstarted.answers = [] ∧ unstarted.loader.attempts.rows = []) ∧
      (ended.loader.Adrift chunk ∧ ended.loader.attempts.rows.map (·.settled) = [true] ∧
        ended.loader.watchdogs = [] ∧ ended.loader.promises.isPending 0 = true) ∧
      joined.answers = [.promise 0, .promise 0] ∧ joined.loader.Adrift chunk := by
  intro chunk opened unstarted ended joined
  decide +kernel

/-- A report ends the attempt of a chunk that a signal has left adrift. -/
theorem refused_counts_reported :
    let chunk : ChunkId := .name "a"
    let opened : Run :=
      { loader := .whole {} (fun _ => .ok "/a.css") (fun _ => true)
          { entries := [(.name "base", .loaded)] } (.document [] 0)
          (SinkBackend.declared.create.add Loader.outcomesTotal (.whole 1) [("chunk", "a")]).1 }
    let r := opened.steps [.invoke (.request chunk), .invoke (.dispatch 0 "error")]
    r.Uncounted ∧ r.loader.Adrift chunk ∧
      Heard ⟨chunk, 0, 1⟩ { type := "error" } (r.reported chunk { type := "error" } 1).loader := by
  intro chunk opened r
  have hc : Cache.seed [(.name "base", "loaded")] =
      .ok { entries := [(.name "base", .loaded)] } := rfl
  have hr : Reachable (fun _ m => m.Outer) opened r := by
    refine Reachable.start.steps _ fun s m hm => ?_
    simp only [List.mem_cons, List.not_mem_nil, or_false] at hm
    rcases hm with rfl | rfl
    · trivial
    · trivial
  have found : r.loader.Adrift chunk := by decide +kernel
  have left : (r.reported chunk { type := "error" } 1).loader.cache.state chunk = .unknown ∧
      (r.reported chunk { type := "error" } 1).loader.promises.isPending 0 = false := by
    decide +kernel
  exact ⟨refused_counts hc hr, found, left.1, left.2⟩

end Run

end SingleFlight
