/-
SingleFlight.Proofs.Entries — what requests and outcomes do to the cache.

One equation for each change of the cache, read through `Cache.find?`, and one
equation for each function of a loader that works on entries. The latter have
the form `f l = { l with … }`: what is not listed stays as it is, and what is of
no account (the log, the queue of the event loop) is left open.

* `Cache.find?_begin`, `find?_join`, `find?_finish`, `find?_drop`,
  `find?_mark`, `honours_iff` — the cache.
* `Loader.settleEntry_eq`, `redeem_of_honours`, `redeem_of_not_honours` — the
  end of an attempt.
* `Loader.serve_of_inFlight`, `serve_of_final`, `serve_of_unknown` — the three
  answers to a request, in a loader whose sink is steady.
-/
import SingleFlight.Loader.Flow
import SingleFlight.Proofs.Steady

namespace SingleFlight

/-! ## Promises -/

namespace Promises

variable (ps : Promises) (p q : PromiseId)

theorem isPending_settle (o : Outcome) :
    (ps.settle p o).isPending q = (ps.isPending q && decide (q ≠ p)) := by
  unfold settle
  split
  · rename_i hp
    by_cases hq : q = p
    · subst hq
      unfold isPending at hp ⊢
      simp only [Table.get?_update, if_true, ne_eq, not_true_eq_false, decide_false,
        Bool.and_false]
      cases h : ps.table.get? q with
      | none => rfl
      | some r => rfl
    · have hq' : ¬ p = q := fun e => hq e.symm
      simp [isPending, Table.get?_update, hq, hq']
  · rename_i hp
    by_cases hq : q = p
    · subst hq
      simp [hp]
    · simp [hq]

theorem isPending_create :
    ps.create.1.isPending q = (decide (q = ps.table.size) || ps.isPending q) := by
  unfold create isPending
  simp only [Table.get?_add]
  by_cases hq : q = ps.table.size
  · simp [hq]
  · simp [hq]

/-- A promise is pending when it is made. -/
theorem isPending_created : ps.create.1.isPending ps.create.2 = true := by
  rw [isPending_create]
  simp [create]

variable {ps p}

theorem isPending_iff : ps.isPending p = true ↔ p < ps.table.size ∧ ps.outcome? p = none := by
  unfold isPending outcome? Table.size Table.get?
  rcases Nat.lt_or_ge p ps.table.rows.length with h | h
  · rw [List.getElem?_eq_getElem h]
    cases hr : ps.table.rows[p] with
    | none => simp [h]
    | some o => simp
  · rw [List.getElem?_eq_none h]
    simp [h]

theorem isPending_of_outcome? {o : Outcome} (h : ps.outcome? p = some o) :
    ps.isPending p = false := by
  rw [← Bool.not_eq_true, isPending_iff, h]
  simp

/-- A promise that exists and is not pending has an outcome. -/
theorem exists_outcome? (hlt : p < ps.table.size) (hp : ps.isPending p = false) :
    ∃ o, ps.outcome? p = some o := by
  cases ho : ps.outcome? p with
  | none =>
    rw [isPending_iff.mpr ⟨hlt, ho⟩] at hp
    cases hp
  | some o => exact ⟨o, rfl⟩

theorem outcome?_settle_of_isPending (h : ps.isPending p = true) (o : Outcome) :
    (ps.settle p o).outcome? p = some o := by
  unfold settle
  rw [if_pos h]
  unfold isPending at h
  simp only [outcome?, Table.get?_update, if_true]
  split at h
  · rename_i hp
    rw [hp]
    rfl
  · cases h

variable (ps p)

theorem outcome?_settle_of_ne (o : Outcome) (h : q ≠ p) :
    (ps.settle p o).outcome? q = ps.outcome? q := by
  have h' : ¬p = q := fun e => h e.symm
  unfold settle
  split
  · simp only [outcome?, Table.get?_update, if_neg h']
  · rfl

/-- A promise that settles gets the outcome that it is settled with. -/
theorem outcome?_settle_cases {o o' : Outcome} (h : (ps.settle p o).outcome? q = some o') :
    ps.outcome? q = some o' ∨ q = p ∧ ps.isPending p = true ∧ o' = o := by
  by_cases hq : q = p
  · subst hq
    cases hp : ps.isPending q with
    | true =>
      rw [outcome?_settle_of_isPending hp] at h
      exact .inr ⟨rfl, rfl, (Option.some.inj h).symm⟩
    | false =>
      rw [settle, hp] at h
      exact .inl h
  · rw [outcome?_settle_of_ne ps p q o hq] at h
    exact .inl h

/-- A promise that is not there has no outcome. -/
theorem outcome?_of_le (h : ps.table.size ≤ q) : ps.outcome? q = none := by
  unfold outcome? Table.get?
  rw [List.getElem?_eq_none h]
  rfl

theorem outcome?_create : ps.create.1.outcome? q = ps.outcome? q := by
  unfold create outcome?
  simp only [Table.get?_add]
  by_cases hq : q = ps.table.size
  · subst hq
    simp
  · simp [hq]

@[simp] theorem size_settle (o : Outcome) : (ps.settle p o).table.size = ps.table.size := by
  unfold settle
  split
  · exact Table.size_update ..
  · rfl

@[simp] theorem size_create : ps.create.1.table.size = ps.table.size + 1 :=
  Table.size_add ..

end Promises

/-! ## The cache -/

namespace Cache

variable (c : Cache) (chunk k : ChunkId)

theorem find?_begin (p : PromiseId) :
    (c.begin chunk p).1.find? k =
      if k = chunk then some (.inFlight { promise := p, attempt := c.attemptsAt chunk + 1 })
      else c.find? k :=
  Pairs.get?_put ..

theorem attemptsAt_begin (p : PromiseId) :
    (c.begin chunk p).1.attemptsAt k =
      if k = chunk then c.attemptsAt chunk + 1 else c.attemptsAt k := by
  simp only [begin, attemptsAt, Pairs.get?_put]
  by_cases hk : k = chunk
  · simp [hk]
  · simp [hk]

theorem find?_join (p : Pending) :
    (c.join chunk p).find? k =
      if k = chunk then some (.inFlight { p with waiters := p.waiters + 1 }) else c.find? k :=
  Pairs.get?_put ..

theorem find?_finish :
    (c.finish chunk).find? k = if k = chunk then some .loaded else c.find? k :=
  Pairs.get?_put ..

theorem find?_drop : (c.drop chunk).find? k = if k = chunk then none else c.find? k :=
  Pairs.get?_erase ..

theorem find?_mark (e : Entry) :
    (c.mark chunk e).find? k =
      if k = chunk then some ((c.find? chunk).getD e) else c.find? k := by
  unfold mark
  by_cases hk : k = chunk
  · subst hk
    cases h : c.find? k with
    | some e' => simp [h]
    | none => simp [find?, Pairs.get?_put]
  · cases h : c.find? chunk with
    | some e' => simp [hk]
    | none => simp [find?, Pairs.get?_put, hk]

/-- A chunk that has an entry keeps it, whatever is marked. -/
theorem find?_mark_of_some {c : Cache} {chunk k : ChunkId} {e' : Entry}
    (h : c.find? k = some e') (e : Entry) :
    (c.mark chunk e).find? k = some e' := by
  rw [find?_mark]
  split
  · rename_i hk
    rw [← hk, h]
    rfl
  · exact h

/-- A ticket is good while its chunk is in flight and the entry waits with the ticket's promise. -/
theorem honours_iff {c : Cache} {t : Ticket} :
    c.honours t = true ↔
      ∃ p, c.find? t.chunk = some (.inFlight p) ∧ p.promise = t.promise := by
  unfold honours
  cases h : c.find? t.chunk with
  | none => simp
  | some e => cases e <;> simp

/-! ### The attempts in flight -/

theorem ticketOf?_eq_some {c : Cache} {chunk : ChunkId} {t : Ticket} :
    c.ticketOf? chunk = some t ↔
      ∃ p, c.find? chunk = some (.inFlight p) ∧ t = ⟨chunk, p.promise, p.attempt⟩ := by
  unfold ticketOf?
  cases h : c.find? chunk with
  | none => simp
  | some e => cases e <;> simp [eq_comm]

theorem chunk_of_ticketOf? {c : Cache} {chunk : ChunkId} {t : Ticket}
    (h : c.ticketOf? chunk = some t) : t.chunk = chunk := by
  obtain ⟨p, -, rfl⟩ := ticketOf?_eq_some.mp h
  rfl

theorem honours_of_ticketOf? {c : Cache} {chunk : ChunkId} {t : Ticket}
    (h : c.ticketOf? chunk = some t) : c.honours t = true := by
  obtain ⟨p, hp, rfl⟩ := ticketOf?_eq_some.mp h
  exact honours_iff.mpr ⟨p, hp, rfl⟩

/-- A chunk is in flight when it has a ticket. -/
theorem state_eq_inFlight {c : Cache} {chunk : ChunkId} :
    c.state chunk = .inFlight ↔ ∃ t, c.ticketOf? chunk = some t := by
  unfold state ticketOf?
  cases h : c.find? chunk with
  | none => simp
  | some e => cases e <;> simp [Entry.state]

/-- A ticket whose chunk is not in flight is not good any more. -/
theorem not_honours_of_ticketOf? {c : Cache} {t : Ticket} (h : c.ticketOf? t.chunk = none) :
    c.honours t = false := by
  rw [← Bool.not_eq_true]
  intro hh
  obtain ⟨p, hp, -⟩ := honours_iff.mp hh
  simp [ticketOf?, hp] at h

theorem ticketOf?_congr {c c' : Cache} {k : ChunkId} (h : c'.find? k = c.find? k) :
    c'.ticketOf? k = c.ticketOf? k := by
  unfold ticketOf?
  rw [h]

theorem ticketOf?_begin (p : PromiseId) :
    (c.begin chunk p).1.ticketOf? k =
      if k = chunk then some ⟨chunk, p, c.attemptsAt chunk + 1⟩ else c.ticketOf? k := by
  unfold ticketOf?
  rw [find?_begin]
  by_cases hk : k = chunk
  · simp [hk]
  · simp [hk]

/-- One more waiter does not change whose attempt is in flight. -/
theorem ticketOf?_join {p : Pending} (h : c.find? chunk = some (.inFlight p)) :
    (c.join chunk p).ticketOf? k = c.ticketOf? k := by
  unfold ticketOf?
  rw [find?_join]
  by_cases hk : k = chunk
  · subst hk
    simp [h]
  · simp [hk]

theorem ticketOf?_finish :
    (c.finish chunk).ticketOf? k = if k = chunk then none else c.ticketOf? k := by
  unfold ticketOf?
  rw [find?_finish]
  by_cases hk : k = chunk
  · simp [hk]
  · simp [hk]

theorem ticketOf?_drop :
    (c.drop chunk).ticketOf? k = if k = chunk then none else c.ticketOf? k := by
  unfold ticketOf?
  rw [find?_drop]
  by_cases hk : k = chunk
  · simp [hk]
  · simp [hk]

theorem find?_ended (load : Bool) :
    (if load then c.finish chunk else c.drop chunk).find? k =
      if k = chunk then (if load then some .loaded else none) else c.find? k := by
  cases load with
  | true => exact find?_finish ..
  | false => exact find?_drop ..

/-- An attempt that ends, well or not, leaves its chunk without one. -/
theorem ticketOf?_ended (load : Bool) :
    (if load then c.finish chunk else c.drop chunk).ticketOf? k =
      if k = chunk then none else c.ticketOf? k := by
  cases load with
  | true => exact ticketOf?_finish ..
  | false => exact ticketOf?_drop ..

/-- A final entry is given to unknown chunks only, so attempts in flight stay. -/
theorem ticketOf?_mark {e : Entry} (he : e.state ≠ .inFlight) :
    (c.mark chunk e).ticketOf? k = c.ticketOf? k := by
  unfold ticketOf?
  rw [find?_mark]
  by_cases hk : k = chunk
  · subst hk
    cases h : c.find? k with
    | some e' => simp
    | none => cases e <;> simp_all [Entry.state]
  · simp [hk]

/-! ### Each chunk has one entry -/

/-- No chunk is listed twice. -/
def Single (c : Cache) : Prop :=
  c.entries.keys.Nodup

namespace Single

variable {c : Cache} (h : c.Single) (chunk : ChunkId)

include h

theorem mark (e : Entry) : (c.mark chunk e).Single := by
  unfold Cache.mark
  split
  · exact h
  · exact Pairs.nodup_keys_put h chunk e

theorem begin (p : PromiseId) : (c.begin chunk p).1.Single :=
  Pairs.nodup_keys_put h chunk _

theorem join (p : Pending) : (c.join chunk p).Single :=
  Pairs.nodup_keys_put h chunk _

theorem finish : (c.finish chunk).Single :=
  Pairs.nodup_keys_put h chunk .loaded

theorem drop : (c.drop chunk).Single :=
  Pairs.nodup_keys_erase h chunk

theorem ended (load : Bool) : (if load then c.finish chunk else c.drop chunk).Single := by
  cases load with
  | true => exact h.finish chunk
  | false => exact h.drop chunk

/-- The attempts in flight are those whose chunk has them as its ticket. -/
theorem mem_inFlight {t : Ticket} : t ∈ c.inFlight ↔ c.ticketOf? t.chunk = some t := by
  unfold inFlight
  rw [List.mem_filterMap]
  constructor
  · rintro ⟨⟨k, e⟩, hm, he⟩
    cases e with
    | skipped => cases he
    | loaded => cases he
    | inFlight p =>
      cases he
      exact ticketOf?_eq_some.mpr ⟨p, Pairs.get?_of_mem h hm, rfl⟩
  · intro ht
    obtain ⟨p, hp, he⟩ := ticketOf?_eq_some.mp ht
    exact ⟨(t.chunk, .inFlight p), Pairs.mem_of_get? hp, congrArg some he.symm⟩

/-- Attempts in flight have different chunks. -/
theorem nodup_inFlight : (c.inFlight.map (·.chunk)).Nodup := by
  have sub : ∀ entries : Pairs ChunkId Entry,
      ((⟨entries, [], false⟩ : Cache).inFlight.map (·.chunk)).Sublist entries.keys := by
    intro entries
    induction entries with
    | nil => exact .slnil
    | cons pair rest ih =>
      obtain ⟨chunk, e⟩ := pair
      cases e with
      | skipped => exact ih.cons _
      | loaded => exact ih.cons _
      | inFlight p => exact ih.cons_cons _
  exact (sub c.entries).nodup h

/-- Nothing is in flight if no chunk has a ticket. -/
theorem inFlight_eq_nil (hn : ∀ chunk, c.ticketOf? chunk = none) : c.inFlight = [] := by
  rw [List.eq_nil_iff_forall_not_mem]
  intro t ht
  rw [h.mem_inFlight, hn] at ht
  cases ht

end Single

/-! ### The entries known from the start -/

theorem nodup_keys_foldl_put : ∀ (pairs : List (ChunkId × String)) {ps : Pairs ChunkId String},
    ps.keys.Nodup → (pairs.foldl (fun ps (chunk, state) => ps.put chunk state) ps).keys.Nodup
  | [], _, h => h
  | (chunk, state) :: rest, _, h => nodup_keys_foldl_put rest (Pairs.nodup_keys_put h chunk state)

/-- An entry that is known from the start is a final one. -/
theorem state_of_final? {state : String} {e : Entry} (h : Entry.final? state = some e) :
    e.state ≠ .inFlight := by
  unfold Entry.final? at h
  split at h
  · cases h
    decide
  · cases h
    decide
  · cases h

theorem mapM_seedEntry : ∀ {places : Pairs ChunkId String} {entries : Pairs ChunkId Entry},
    places.mapM seedEntry = .ok entries →
      entries.keys = places.keys ∧ ∀ k e, (k, e) ∈ entries → e.state ≠ .inFlight
  | [], entries, h => by
    cases h
    simp
  | (chunk, state) :: rest, entries, h => by
    rw [List.mapM_cons] at h
    cases he : Entry.final? state with
    | none => simp [seedEntry, he, bind, Except.bind] at h
    | some e =>
      cases hr : rest.mapM seedEntry with
      | error f => simp [seedEntry, he, hr, bind, Except.bind] at h
      | ok others =>
        obtain ⟨hkeys, hfinal⟩ := mapM_seedEntry hr
        have hent : (chunk, e) :: others = entries := by
          simpa [seedEntry, he, hr, bind, Except.bind, pure, Except.pure] using h
        rw [← hent]
        refine ⟨by rw [Pairs.keys_cons, Pairs.keys_cons, hkeys], fun k e' hm => ?_⟩
        rcases List.mem_cons.mp hm with heq | hm
        · cases heq
          exact state_of_final? he
        · exact hfinal k e' hm

/-- A cache as it is opened has nothing in flight, and has made no attempt. -/
theorem seed_spec {installed : List (ChunkId × String)} {c : Cache} (h : seed installed = .ok c) :
    c.Single ∧ (∀ chunk, c.ticketOf? chunk = none) ∧ c.attempts = [] := by
  unfold seed at h
  cases hm : (installed.foldl (fun ps (chunk, state) => Pairs.put ps chunk state) []).mapM
      seedEntry with
  | error f => simp [hm, bind, Except.bind] at h
  | ok entries =>
    have hc : ({ entries } : Cache) = c := by
      simpa [hm, bind, Except.bind, pure, Except.pure] using h
    obtain ⟨hkeys, hfinal⟩ := mapM_seedEntry hm
    rw [← hc]
    refine ⟨?_, fun chunk => ?_, rfl⟩
    · unfold Single
      rw [hkeys]
      exact nodup_keys_foldl_put installed (by simp)
    · cases ht : ({ entries } : Cache).ticketOf? chunk with
      | none => rfl
      | some t =>
        obtain ⟨p, hp, -⟩ := ticketOf?_eq_some.mp ht
        exact absurd rfl (hfinal chunk _ (Pairs.mem_of_get? hp))

end Cache

namespace Loader

/-! ## The end of an attempt -/

theorem settlePromise_eq (l : Loader) (p : PromiseId) (o : Outcome) :
    ∃ ready, l.settlePromise p o = { l with promises := l.promises.settle p o, ready } := by
  unfold settlePromise
  split
  · exact ⟨_, rfl⟩
  · rename_i h
    exact ⟨l.ready, by simp [Promises.settle, h]⟩

/-- What the waiters of an attempt receive when a signal ends it. -/
def outcomeOf (l : Loader) (chunk : ChunkId) (e : LoadEvent) : Outcome :=
  if e.isLoad then .ok else .failed (l.failureOf chunk e)

theorem settleEntry_eq (l : Loader) (t : Ticket) (e : LoadEvent) :
    ∃ ready log, l.settleEntry t e =
      { l with
        cache := if e.isLoad then l.cache.finish t.chunk else l.cache.drop t.chunk
        promises := l.promises.settle t.promise (l.outcomeOf t.chunk e)
        ready
        log } := by
  unfold settleEntry outcomeOf
  cases h : e.isLoad with
  | true =>
    obtain ⟨ready, hp⟩ := settlePromise_eq { l with cache := l.cache.finish t.chunk } t.promise .ok
    exact ⟨ready, l.log, by simpa using hp⟩
  | false =>
    obtain ⟨ready, hp⟩ := settlePromise_eq
      ({ l with cache := l.cache.drop t.chunk }.note .cache .warning
        (l.failureOf t.chunk e).message) t.promise (.failed (l.failureOf t.chunk e))
    exact ⟨ready, _, by simpa [note] using hp⟩

theorem redeem_of_honours {l : Loader} {t : Ticket} (h : l.cache.honours t = true)
    (e : LoadEvent) : l.redeem t e = l.settleEntry t e := by
  simp [redeem, h]

/-- A signal for an attempt that has ended is noted and changes nothing. -/
theorem redeem_of_not_honours {l : Loader} {t : Ticket} (h : l.cache.honours t = false)
    (e : LoadEvent) : ∃ log, l.redeem t e = { l with log } := by
  exact ⟨_, by simp [redeem, h]; rfl⟩

theorem abortEntry_eq (l : Loader) (t : Ticket) :
    ∃ o ready, l.abortEntry t =
      { l with
        cache := l.cache.drop t.chunk
        promises := l.promises.settle t.promise o
        ready } := by
  obtain ⟨ready, h⟩ := settlePromise_eq { l with cache := l.cache.drop t.chunk } t.promise
    (.failed { chunk := t.chunk, cause := .aborted "abort", assetKind := l.plan.policy.assetKind })
  exact ⟨_, ready, h⟩

/-- Aborting attempts drops their entries and leaves the others. -/
theorem foldl_abortEntry : ∀ (ts : List Ticket) (l : Loader),
    ∃ cache promises ready, ts.foldl abortEntry l = { l with cache, promises, ready } ∧
      (l.cache.Single → cache.Single) ∧ cache.attempts = l.cache.attempts ∧
      (∀ k, cache.find? k = if k ∈ ts.map (·.chunk) then none else l.cache.find? k) ∧
      promises.table.size = l.promises.table.size
  | [], l => ⟨l.cache, l.promises, l.ready, rfl, id, rfl, by simp, rfl⟩
  | t :: ts, l => by
    obtain ⟨o, ready₁, ht⟩ := l.abortEntry_eq t
    obtain ⟨cache, promises, ready, hts, single, attempts, find, size⟩ :=
      foldl_abortEntry ts (l.abortEntry t)
    rw [List.foldl_cons, hts]
    rw [ht] at single attempts find size ⊢
    refine ⟨cache, promises, ready, rfl, fun h => single (h.drop t.chunk), attempts, fun k => ?_,
      size.trans (Promises.size_settle ..)⟩
    rw [find, Cache.find?_drop]
    by_cases hk : k = t.chunk
    · simp [hk]
    · simp [hk]

/-- Closing drops the entries in flight and keeps the final ones. -/
theorem closeCache_eq {l : Loader} (h : l.cache.Single) :
    ∃ cache promises ready, l.closeCache = { l with cache, promises, ready } ∧
      cache.Single ∧ cache.attempts = l.cache.attempts ∧
      (∀ k, cache.find? k =
        if (l.cache.ticketOf? k).isSome then none else l.cache.find? k) ∧
      promises.table.size = l.promises.table.size := by
  obtain ⟨cache, promises, ready, heq, single, attempts, find, size⟩ :=
    foldl_abortEntry l.cache.inFlight l
  refine ⟨cache, promises, ready, heq, single h, attempts, fun k => ?_, size⟩
  have hk : k ∈ l.cache.inFlight.map (·.chunk) ↔ (l.cache.ticketOf? k).isSome = true := by
    rw [List.mem_map, Option.isSome_iff_exists]
    constructor
    · rintro ⟨t, ht, rfl⟩
      exact ⟨t, h.mem_inFlight.mp ht⟩
    · rintro ⟨t, ht⟩
      have hchunk := Cache.chunk_of_ticketOf? ht
      exact ⟨t, h.mem_inFlight.mpr (hchunk.symm ▸ ht), hchunk⟩
  rw [find]
  simp only [hk]

/-! ## Requests -/

/-- A request for a chunk in flight joins the attempt. -/
theorem serve_of_inFlight {l : Loader} (hs : l.sink.Steady) {chunk : ChunkId} {p : Pending}
    (h : l.cache.find? chunk = some (.inFlight p)) :
    ∃ sink : Metrics.Sink, sink.Steady ∧
      l.serve chunk =
        ({ l with cache := { l.cache with used := true }.join chunk p, sink },
          .ok (p.promise, none)) := by
  have hf : { l.cache with used := true }.find? chunk = some (.inFlight p) := h
  obtain ⟨sink, steady, hc⟩ := count_steady
    (l := { l with cache := { l.cache with used := true }.join chunk p }) hs
    requestsTotal "result" (by simp [counters]) "join"
  exact ⟨sink, steady, by simp only [serve, hf, hc]⟩

/-- A request for a chunk that is loaded or skipped gets a promise that is kept already. -/
theorem serve_of_final {l : Loader} (hs : l.sink.Steady) {chunk : ChunkId} {e : Entry}
    (h : l.cache.find? chunk = some e) (he : e.state ≠ .inFlight) :
    ∃ sink ready, Metrics.Sink.Steady sink ∧
      l.serve chunk =
        ({ l with
            cache := { l.cache with used := true }
            promises := l.promises.create.1.settle l.promises.create.2 .ok
            sink
            ready },
          .ok (l.promises.create.2, none)) := by
  have hf : { l.cache with used := true }.find? chunk = some e := h
  obtain ⟨sink, steady, hc⟩ := count_steady
    (l := { l with cache := { l.cache with used := true } }) hs
    requestsTotal "result" (by simp [counters]) "hit"
  obtain ⟨ready, hp⟩ := settlePromise_eq
    ({ l with cache := { l.cache with used := true }, sink }.newPromise).1 l.promises.create.2 .ok
  refine ⟨sink, ready, steady, ?_⟩
  cases e with
  | inFlight p => simp [Entry.state] at he
  | skipped => simp only [serve, hf, hc]; exact Prod.ext hp rfl
  | loaded => simp only [serve, hf, hc]; exact Prod.ext hp rfl

/-- A request for an unknown chunk makes its entry and the ticket of an attempt. -/
theorem serve_of_unknown {l : Loader} (hs : l.sink.Steady) {chunk : ChunkId}
    (h : l.cache.find? chunk = none) :
    ∃ sink log, Metrics.Sink.Steady sink ∧
      l.serve chunk =
        ({ l with
            cache := ({ l.cache with used := true }.begin chunk l.promises.create.2).1
            promises := l.promises.create.1
            sink
            log },
          .ok (l.promises.create.2,
            some ⟨chunk, l.promises.create.2, l.cache.attemptsAt chunk + 1⟩)) := by
  have hf : { l.cache with used := true }.find? chunk = none := h
  obtain ⟨sink, steady, hc⟩ := count_steady
    (l := { l with
      cache := ({ l.cache with used := true }.begin chunk l.promises.create.2).1
      promises := l.promises.create.1 }) hs
    requestsTotal "result" (by simp [counters]) "start"
  have started : l.serve chunk =
      ({ l with
          cache := ({ l.cache with used := true }.begin chunk l.promises.create.2).1
          promises := l.promises.create.1
          sink }.noteStart ⟨chunk, l.promises.create.2, l.cache.attemptsAt chunk + 1⟩,
        .ok (l.promises.create.2,
          some ⟨chunk, l.promises.create.2, l.cache.attemptsAt chunk + 1⟩)) := by
    simp only [serve, hf, newPromise]
    simp only [Cache.begin] at hc ⊢
    rw [hc]
    rfl
  exact ⟨sink, _, steady, started⟩

end Loader

end SingleFlight
