/-
SingleFlight.Proofs.Tickets — what a move does to the tickets of a cache.

A cache by itself does not know its starter and its hook. Either may use the
cache again before it returns or raises, and a ticket may be given back at any
time, any number of times. What holds nevertheless:

* `Run.Effect` — all that a move can do to the entries and to the tickets, one
  constructor for each kind of change. Everything else is read off from it.
* `Run.Ledger` — the tickets handed out so far account for the attempt numbers
  and for the entries in flight.
* `Run.effect_of_move` — each move has an effect, and keeps the ledger.
-/
import Mathlib.Data.List.Nodup
import SingleFlight.Loader.Run
import SingleFlight.Proofs.Entries

namespace SingleFlight

/-- The loader is a cache by itself: it has no tasks and fetches nothing. -/
structure Loader.Lone (policy : Policy) (hook : Bool) (l : Loader) : Prop where
  plan : l.plan = { policy, wiring := .user hook }
  steady : l.sink.Steady
  tasks : l.tasks = {}
  fetches : l.fetches = {}
  closings : l.closings = {}
  opened : l.closed = false
  single : l.cache.Single

/-- The ticket that a call of the starter is about. -/
def Call.ticket? : Call → Option Ticket
  | .start t => some t
  | _ => none

/-- Whether a move requests a chunk. -/
def Move.requests (chunk : ChunkId) : Move → Bool
  | .invoke (.request k) => k == chunk
  | _ => false

theorem Move.requests_iff {chunk : ChunkId} {m : Move} :
    m.requests chunk = true ↔ m = .invoke (.request chunk) := by
  unfold requests
  split
  · simp
  · rename_i hno
    simp only [Bool.false_eq_true, false_iff]
    exact hno chunk

namespace Run

/-- The tickets handed out so far, in order. -/
def tickets (r : Run) : List Ticket :=
  r.calls.filterMap Call.ticket?

/-- The tickets handed out for a chunk, in order. -/
def ticketsOf (r : Run) (chunk : ChunkId) : List Ticket :=
  r.tickets.filter (·.chunk = chunk)

/--
What can happen to a cache by itself: its operations, tickets given back that were handed out,
calls that return or raise, and what the event loop does.
-/
def CacheMove (r : Run) : Move → Prop
  | .invoke (.request _) => True
  | .invoke (.mark _ e) => e.state ≠ .inFlight
  | .invoke (.report _ _) => True
  | .invoke (.reportLater _ _) => True
  | .invoke (.redeem t _) => t ∈ r.tickets
  | .invoke .closeCache => True
  | .invoke (.cancelPromise _) => True
  | .invoke _ => False
  | .returns => True
  | .raises _ => True
  | .runJob => True
  | .setClock _ => True
  | _ => False

/-! ## §1 What a move can do -/

/-- The move ends the attempt of a ticket, and not by a load. -/
inductive Fails (r : Run) (t : Ticket) : Move → Prop
  | redeemed (e : LoadEvent) (he : e.isLoad = false) : Fails r t (.invoke (.redeem t e))
  | reported (e : LoadEvent) (he : e.isLoad = false)
      (hw : r.loader.plan.wiring = .user false) : Fails r t (.invoke (.report t.chunk e))
  | reportedLater (e : LoadEvent) (he : e.isLoad = false) {rest : List Job}
      (hq : r.loader.ready = .report t.chunk e :: rest) : Fails r t .runJob
  /-- The hook has seen the report of a failure and returns. -/
  | consulted (e : LoadEvent) (he : e.isLoad = false) {answer : Option Answer}
      {outer : List Suspension}
      (hs : r.suspended = ⟨.consult t.chunk e, [.settle t e], answer⟩ :: outer) :
      Fails r t .returns
  /-- The starter raises an error. -/
  | raised (f : Fault) {rest : List Frame} {answer : Option Answer} {outer : List Suspension}
      (hs : r.suspended = ⟨.start t, rest, answer⟩ :: outer) : Fails r t (.raises f)
  | closed : Fails r t (.invoke .closeCache)

/-- What a move has done to entries, attempts and tickets. -/
inductive Effect (r : Run) (m : Move) (r' : Run) : Prop
  | quiet (hm : ∀ chunk, m = .invoke (.request chunk) → r.loader.cache.ticketOf? chunk = none)
      (find : ∀ k, r'.loader.cache.find? k = r.loader.cache.find? k)
      (attempts : r'.loader.cache.attempts = r.loader.cache.attempts)
      (calls : r'.tickets = r.tickets)
  /-- A request for an unknown chunk starts an attempt. -/
  | begun (t : Ticket) (hm : m = .invoke (.request t.chunk))
      (hf : r.loader.cache.find? t.chunk = none)
      (promise : t.promise = r.loader.promises.table.size)
      (attempt : t.attempt = r.loader.cache.attemptsAt t.chunk + 1)
      (made : t.promise < r'.loader.promises.table.size)
      (find : ∀ k, r'.loader.cache.find? k =
        if k = t.chunk then some (.inFlight { promise := t.promise, attempt := t.attempt })
        else r.loader.cache.find? k)
      (attempts : ∀ k, r'.loader.cache.attemptsAt k =
        if k = t.chunk then t.attempt else r.loader.cache.attemptsAt k)
      (calls : r'.calls = r.calls ++ [.start t])
  /-- A request for a chunk in flight waits for its attempt. -/
  | joined (chunk : ChunkId) (p : Pending) (hm : m = .invoke (.request chunk))
      (hf : r.loader.cache.find? chunk = some (.inFlight p))
      (find : ∀ k, r'.loader.cache.find? k =
        if k = chunk then some (.inFlight { p with waiters := p.waiters + 1 })
        else r.loader.cache.find? k)
      (attempts : r'.loader.cache.attempts = r.loader.cache.attempts)
      (calls : r'.tickets = r.tickets)
  | marked (chunk : ChunkId) (e : Entry) (he : e.state ≠ .inFlight)
      (hm : m = .invoke (.mark chunk e)) (hf : r.loader.cache.find? chunk = none)
      (find : ∀ k, r'.loader.cache.find? k =
        if k = chunk then some e else r.loader.cache.find? k)
      (attempts : r'.loader.cache.attempts = r.loader.cache.attempts)
      (calls : r'.tickets = r.tickets)
  /-- An attempt in flight ends, by a load or otherwise. -/
  | ended (t : Ticket) (load : Bool) (ht : r.loader.cache.ticketOf? t.chunk = some t)
      (cause : load = false → r.Fails t m) (hm : ∀ chunk, m ≠ .invoke (.request chunk))
      (find : ∀ k, r'.loader.cache.find? k =
        if k = t.chunk then (if load then some .loaded else none)
        else r.loader.cache.find? k)
      (attempts : r'.loader.cache.attempts = r.loader.cache.attempts)
      (calls : r'.tickets = r.tickets)
  /-- All attempts in flight end. -/
  | closed (hm : m = .invoke .closeCache)
      (find : ∀ k, r'.loader.cache.find? k =
        if (r.loader.cache.ticketOf? k).isSome then none else r.loader.cache.find? k)
      (attempts : r'.loader.cache.attempts = r.loader.cache.attempts)
      (calls : r'.tickets = r.tickets)

/-! ## §2 The ledger -/

/-- The work that goes on after a call of the starter or of the hook. -/
def Waiting (r : Run) (s : Suspension) : Prop :=
  (∃ t ∈ r.tickets, s.call = .start t ∧ s.rest = [.started t, .hand t.chunk t.promise]) ∨
    ∃ t ∈ r.tickets, ∃ e, s.call = .consult t.chunk e ∧ s.rest = [.settle t e]

/-- Nothing but the cache of a loader is used. -/
structure Alone (policy : Policy) (hook : Bool) (r : Run) : Prop where
  lone : r.loader.Lone policy hook
  waiting : ∀ s ∈ r.suspended, r.Waiting s

/-- The tickets handed out account for the attempts and for the entries in flight. -/
structure Ledger (r : Run) : Prop where
  numbered : ∀ chunk, (r.ticketsOf chunk).map (·.attempt) =
    List.range' 1 (r.loader.cache.attemptsAt chunk)
  distinct : (r.tickets.map (·.promise)).Nodup
  made : ∀ t ∈ r.tickets, t.promise < r.loader.promises.table.size
  current : ∀ chunk t, r.loader.cache.ticketOf? chunk = some t →
    t ∈ r.tickets ∧ t.attempt = r.loader.cache.attemptsAt chunk

namespace Ledger

variable {r r' : Run} {m : Move}

/-- Attempts that end, and requests that wait for one, leave the account as it is. -/
theorem keep (g : r.Ledger) (attempts : r'.loader.cache.attempts = r.loader.cache.attempts)
    (calls : r'.tickets = r.tickets)
    (grown : r.loader.promises.table.size ≤ r'.loader.promises.table.size)
    (flown : ∀ chunk t, r'.loader.cache.ticketOf? chunk = some t →
      r.loader.cache.ticketOf? chunk = some t) : r'.Ledger where
  numbered := by
    intro chunk
    simp only [ticketsOf, calls, Cache.attemptsAt, attempts]
    exact g.numbered chunk
  distinct := by rw [calls]; exact g.distinct
  made := by
    intro t ht
    rw [calls] at ht
    exact Nat.lt_of_lt_of_le (g.made t ht) grown
  current := by
    intro chunk t ht
    simp only [calls, Cache.attemptsAt, attempts]
    exact g.current chunk t (flown chunk t ht)

/-- A ticket is good as long as its own attempt is in flight, and never for another one. -/
theorem ticketOf?_of_honours (g : r.Ledger) {t : Ticket} (ht : t ∈ r.tickets)
    (h : r.loader.cache.honours t = true) : r.loader.cache.ticketOf? t.chunk = some t := by
  obtain ⟨p, hp, hprom⟩ := Cache.honours_iff.mp h
  have htick : r.loader.cache.ticketOf? t.chunk = some ⟨t.chunk, p.promise, p.attempt⟩ :=
    Cache.ticketOf?_eq_some.mpr ⟨p, hp, rfl⟩
  have hmem := (g.current t.chunk _ htick).1
  rw [htick]
  exact congrArg some (List.inj_on_of_nodup_map g.distinct hmem ht hprom)

/-- The next ticket of a chunk continues the numbers. -/
theorem begun (g : r.Ledger) {t : Ticket}
    (promise : t.promise = r.loader.promises.table.size)
    (attempt : t.attempt = r.loader.cache.attemptsAt t.chunk + 1)
    (made : t.promise < r'.loader.promises.table.size)
    (find : ∀ k, r'.loader.cache.find? k =
      if k = t.chunk then some (.inFlight { promise := t.promise, attempt := t.attempt })
      else r.loader.cache.find? k)
    (attempts : ∀ k, r'.loader.cache.attemptsAt k =
      if k = t.chunk then t.attempt else r.loader.cache.attemptsAt k)
    (calls : r'.tickets = r.tickets ++ [t]) : r'.Ledger where
  numbered := by
    intro chunk
    have old := g.numbered chunk
    unfold ticketsOf at old ⊢
    rw [calls, attempts, List.filter_append, List.map_append, old]
    by_cases hk : chunk = t.chunk
    · subst hk
      rw [if_pos rfl, attempt, List.range'_1_concat]
      simp [attempt, Nat.add_comm]
    · have hk' : ¬ t.chunk = chunk := fun e => hk e.symm
      simp [hk, hk']
  distinct := by
    rw [calls, List.map_append]
    refine List.nodup_append.mpr ⟨g.distinct, by simp, ?_⟩
    intro p hp q hq e
    obtain ⟨t', ht', rfl⟩ := List.mem_map.mp hp
    have hlt := g.made t' ht'
    rw [List.map_singleton, List.mem_singleton] at hq
    rw [e, hq, promise] at hlt
    exact Nat.lt_irrefl _ hlt
  made := by
    intro t' ht'
    rw [calls, List.mem_append, List.mem_singleton] at ht'
    rcases ht' with ht' | rfl
    · exact Nat.lt_trans (promise ▸ g.made t' ht') made
    · exact made
  current := by
    intro chunk t' ht'
    rw [calls, attempts]
    by_cases hk : chunk = t.chunk
    · subst hk
      obtain ⟨p, hp, rfl⟩ := Cache.ticketOf?_eq_some.mp ht'
      rw [find, if_pos rfl] at hp
      cases hp
      exact ⟨by simp, by simp⟩
    · have hold : r.loader.cache.ticketOf? chunk = some t' := by
        rw [← ht']
        refine (Cache.ticketOf?_congr ?_).symm
        rw [find, if_neg hk]
      obtain ⟨hmem, hatt⟩ := g.current chunk t' hold
      rw [if_neg hk]
      exact ⟨List.mem_append_left _ hmem, hatt⟩

/-- Whatever a move does, the tickets account for it. -/
theorem of_effect (g : r.Ledger) (eff : Effect r m r')
    (grown : r.loader.promises.table.size ≤ r'.loader.promises.table.size) : r'.Ledger := by
  have unflown : ∀ {chunk k : ChunkId} {e : Entry}, e.state ≠ .inFlight →
      r'.loader.cache.find? k = (if k = chunk then some e else r.loader.cache.find? k) →
      ∀ t, r'.loader.cache.ticketOf? k = some t → r.loader.cache.ticketOf? k = some t := by
    intro chunk k e he find t ht
    obtain ⟨p, hp, rfl⟩ := Cache.ticketOf?_eq_some.mp ht
    rw [find] at hp
    split at hp
    · cases hp
      exact absurd rfl he
    · exact Cache.ticketOf?_eq_some.mpr ⟨p, hp, rfl⟩
  cases eff with
  | quiet _ find attempts calls =>
    exact g.keep attempts calls grown fun k t ht => Cache.ticketOf?_congr (find k) ▸ ht
  | begun t _ _ promise attempt made find attempts calls =>
    exact g.begun promise attempt made find attempts (by simp [tickets, calls, Call.ticket?])
  | joined chunk p _ hf find attempts calls =>
    refine g.keep attempts calls grown fun k t ht => ?_
    obtain ⟨q, hq, rfl⟩ := Cache.ticketOf?_eq_some.mp ht
    rw [find] at hq
    split at hq
    · rename_i hk
      cases hq
      exact Cache.ticketOf?_eq_some.mpr ⟨p, hk ▸ hf, rfl⟩
    · exact Cache.ticketOf?_eq_some.mpr ⟨q, hq, rfl⟩
  | marked chunk e he _ _ find attempts calls =>
    exact g.keep attempts calls grown fun k t ht => unflown he (find k) t ht
  | ended t load _ _ _ find attempts calls =>
    refine g.keep attempts calls grown fun k t' ht => ?_
    cases load with
    | true => exact unflown (by decide : Entry.loaded.state ≠ .inFlight) (find k) t' ht
    | false =>
      obtain ⟨p, hp, rfl⟩ := Cache.ticketOf?_eq_some.mp ht
      rw [find] at hp
      split at hp
      · cases hp
      · exact Cache.ticketOf?_eq_some.mpr ⟨p, hp, rfl⟩
  | closed _ find attempts calls =>
    refine g.keep attempts calls grown fun k t ht => ?_
    obtain ⟨p, hp, rfl⟩ := Cache.ticketOf?_eq_some.mp ht
    rw [find] at hp
    split at hp
    · cases hp
    · exact Cache.ticketOf?_eq_some.mpr ⟨p, hp, rfl⟩

end Ledger

/-! ## §3 Moves -/

/-- A move keeps a cache by itself, makes promises only, and has an effect. -/
structure Booked (policy : Policy) (hook : Bool) (r : Run) (m : Move) (r' : Run) : Prop where
  alone : Alone policy hook r'
  grown : r.loader.promises.table.size ≤ r'.loader.promises.table.size
  effect : Effect r m r'

section Moves

variable {policy : Policy} {hook : Bool} {r r' : Run} {m : Move}

/-- Work that leaves the entries as they are. -/
theorem Booked.quiet (h : Alone policy hook r)
    (hm : ∀ chunk, m = .invoke (.request chunk) → r.loader.cache.ticketOf? chunk = none)
    (lone : r'.loader.Lone policy hook) (hs : r'.suspended = r.suspended)
    (hc : r'.calls = r.calls) (entries : r'.loader.cache.entries = r.loader.cache.entries)
    (attempts : r'.loader.cache.attempts = r.loader.cache.attempts)
    (grown : r.loader.promises.table.size ≤ r'.loader.promises.table.size) :
    Booked policy hook r m r' where
  alone := ⟨lone, by
    rw [hs]
    simp only [Waiting, tickets, hc]
    exact h.waiting⟩
  grown
  effect := .quiet hm (by simp [Cache.find?, entries]) attempts (by simp [tickets, hc])

/-- A call of the user's code begins, and the work that is to follow waits for it. -/
theorem Alone.calling (h : Alone policy hook r) {l : Loader} (lone : l.Lone policy hook)
    {call : Call} {rest : List Frame} {answer : Option Answer}
    (hw : (r.after answer (l, .calling call rest)).Waiting ⟨call, rest, answer⟩) :
    Alone policy hook (r.after answer (l, .calling call rest)) := by
  refine ⟨lone, fun s hs => ?_⟩
  rcases List.mem_cons.mp hs with rfl | hs
  · exact hw
  · have more : ∀ t ∈ r.tickets, t ∈ (r.after answer (l, .calling call rest)).tickets := by
      intro t ht
      simp only [after, tickets, List.filterMap_append, List.mem_append]
      exact .inl ht
    rcases h.waiting s hs with ⟨t, ht, hcall, hrest⟩ | ⟨t, ht, e, hcall, hrest⟩
    · exact .inl ⟨t, more t ht, hcall, hrest⟩
    · exact .inr ⟨t, more t ht, e, hcall, hrest⟩

/-- A request: the loader is open and every chunk has something to fetch. -/
theorem booked_request (h : Alone policy hook r) (chunk : ChunkId) :
    Booked policy hook r (.invoke (.request chunk)) (r.step (.invoke (.request chunk))) := by
  have hreq : r.loader.request chunk = r.loader.serve chunk := by
    simp [Loader.request, h.lone.opened, h.lone.plan]
  cases hf : r.loader.cache.find? chunk with
  | none =>
    obtain ⟨sink, log, steady, hserve⟩ := Loader.serve_of_unknown h.lone.steady hf
    have lone : Loader.Lone policy hook
        { r.loader with
          cache := ({ r.loader.cache with used := true }.begin chunk
            r.loader.promises.create.2).1
          promises := r.loader.promises.create.1
          sink
          log } := { h.lone with steady, single := h.lone.single.begin chunk _ }
    have hstep : r.step (.invoke (.request chunk)) =
        r.after (some (.promise r.loader.promises.create.2))
          ({ r.loader with
              cache := ({ r.loader.cache with used := true }.begin chunk
                r.loader.promises.create.2).1
              promises := r.loader.promises.create.1
              sink
              log },
            .calling
              (.start ⟨chunk, r.loader.promises.create.2, r.loader.cache.attemptsAt chunk + 1⟩)
              [.started ⟨chunk, r.loader.promises.create.2, r.loader.cache.attemptsAt chunk + 1⟩,
                .hand chunk r.loader.promises.create.2]) := by
      simp [step, Loader.invoke, hreq, hserve, Loader.drive, Loader.perform, Loader.start,
        h.lone.plan]
    rw [hstep]
    refine ⟨h.calling lone (.inl ⟨_, ?_, rfl, rfl⟩), ?_, ?_⟩
    · simp [after, tickets, Call.ticket?]
    · simp [after]
    · refine .begun ⟨chunk, r.loader.promises.create.2, r.loader.cache.attemptsAt chunk + 1⟩ rfl hf
        rfl rfl ?_ (fun k => Cache.find?_begin ..) (fun k => Cache.attemptsAt_begin ..) rfl
      simp [after, Promises.create]
  | some e =>
    by_cases he : e.state = .inFlight
    · cases e with
      | skipped => cases he
      | loaded => cases he
      | inFlight p =>
        obtain ⟨sink, steady, hserve⟩ := Loader.serve_of_inFlight h.lone.steady hf
        have lone : Loader.Lone policy hook
            { r.loader with cache := { r.loader.cache with used := true }.join chunk p, sink } :=
          { h.lone with steady, single := h.lone.single.join chunk p }
        have hstep : r.step (.invoke (.request chunk)) =
            r.after (some (.promise p.promise))
              ({ r.loader with cache := { r.loader.cache with used := true }.join chunk p, sink }.hand
                chunk p.promise, .finished) := by
          simp [step, Loader.invoke, hreq, hserve, Loader.atOnce, Loader.drive]
        rw [hstep]
        refine ⟨⟨{ lone with }, h.waiting⟩, Nat.le_refl _, ?_⟩
        exact .joined chunk p rfl hf (fun k => Cache.find?_join ..) rfl rfl
    · obtain ⟨sink, ready, steady, hserve⟩ := Loader.serve_of_final h.lone.steady hf he
      have hstep : r.step (.invoke (.request chunk)) =
          r.after (some (.promise r.loader.promises.create.2))
            ({ r.loader with
                cache := { r.loader.cache with used := true }
                promises := r.loader.promises.create.1.settle r.loader.promises.create.2 .ok
                sink
                ready }.hand chunk r.loader.promises.create.2, .finished) := by
        simp [step, Loader.invoke, hreq, hserve, Loader.atOnce, Loader.drive]
      have hno : r.loader.cache.ticketOf? chunk = none := by
        cases e with
        | skipped => simp [Cache.ticketOf?, hf]
        | loaded => simp [Cache.ticketOf?, hf]
        | inFlight p => exact absurd rfl he
      rw [hstep]
      refine .quiet h (fun k hk => ?_) { h.lone with steady } rfl rfl rfl rfl ?_
      · cases hk
        exact hno
      · simp [after, Loader.hand]

theorem booked_mark (h : Alone policy hook r) (chunk : ChunkId) {e : Entry}
    (he : e.state ≠ .inFlight) :
    Booked policy hook r (.invoke (.mark chunk e)) (r.step (.invoke (.mark chunk e))) := by
  have hstep : r.step (.invoke (.mark chunk e)) =
      r.after (some .nothing) (r.loader.mark chunk e, .finished) := rfl
  rw [hstep]
  have lone : Loader.Lone policy hook (r.loader.mark chunk e) :=
    { h.lone with single := h.lone.single.mark chunk e }
  cases hf : r.loader.cache.find? chunk with
  | some e' =>
    have same : r.loader.mark chunk e = r.loader := by simp [Loader.mark, Cache.mark, hf]
    rw [same]
    exact .quiet h (by simp) h.lone rfl rfl rfl rfl (Nat.le_refl _)
  | none =>
    refine ⟨⟨lone, h.waiting⟩, Nat.le_refl _, .marked chunk e he rfl hf (fun k => ?_) ?_ rfl⟩
    · show (r.loader.cache.mark chunk e).find? k = _
      rw [Cache.find?_mark, hf, Option.getD_none]
    · simp [after, Loader.mark, Cache.mark, hf]

/-- The attempt of a ticket that is in flight ends by a signal. -/
theorem Booked.settled (h : Alone policy hook r) {l : Loader} (lone : l.Lone policy hook)
    (cache : l.cache = r.loader.cache) (promises : l.promises = r.loader.promises) {t : Ticket}
    (ht : r.loader.cache.ticketOf? t.chunk = some t) (e : LoadEvent)
    (cause : e.isLoad = false → r.Fails t m) (hm : ∀ chunk, m ≠ .invoke (.request chunk))
    (hr : r'.loader = l.settleEntry t e) (hc : r'.calls = r.calls)
    (hs : ∀ s ∈ r'.suspended, s ∈ r.suspended) : Booked policy hook r m r' := by
  obtain ⟨ready, log, hset⟩ := l.settleEntry_eq t e
  rw [hset, cache, promises] at hr
  have single := h.lone.single
  refine ⟨⟨?_, fun s hs' => ?_⟩, ?_, .ended t e.isLoad ht cause hm (fun k => ?_) ?_ ?_⟩
  · rw [hr]
    exact { lone with single := single.ended t.chunk e.isLoad }
  · have hw := h.waiting s (hs s hs')
    simp only [Waiting, tickets, hc] at hw ⊢
    exact hw
  · rw [hr]
    exact Nat.le_of_eq (Promises.size_settle ..).symm
  · rw [hr]
    exact Cache.find?_ended ..
  · rw [hr]
    dsimp only
    split
    · rfl
    · rfl
  · simp only [tickets, hc]

/-- A ticket is given back. -/
theorem booked_redeem (h : Alone policy hook r) (g : r.Ledger) {t : Ticket} (ht : t ∈ r.tickets)
    (e : LoadEvent) :
    Booked policy hook r (.invoke (.redeem t e)) (r.step (.invoke (.redeem t e))) := by
  have hstep : r.step (.invoke (.redeem t e)) =
      r.after (some .nothing) (r.loader.redeem t e, .finished) := rfl
  rw [hstep]
  cases hon : r.loader.cache.honours t with
  | true =>
    rw [Loader.redeem_of_honours hon]
    exact .settled h h.lone rfl rfl (g.ticketOf?_of_honours ht hon) e (fun he => .redeemed e he)
      (by simp) rfl rfl fun s hs => hs
  | false =>
    obtain ⟨log, hl⟩ := Loader.redeem_of_not_honours hon e
    rw [hl]
    exact .quiet h (by simp) { h.lone with } rfl rfl rfl rfl (Nat.le_refl _)

/-- A report ends the attempt in flight, unless the hook is to see it first. -/
theorem booked_report (h : Alone policy hook r) (g : r.Ledger) {l : Loader}
    (lone : l.Lone policy hook) (cache : l.cache = r.loader.cache)
    (promises : l.promises = r.loader.promises) (chunk : ChunkId) (e : LoadEvent)
    (answer : Option Answer) (hm : ∀ chunk, m ≠ .invoke (.request chunk))
    (cause : ∀ t : Ticket, t.chunk = chunk → hook = false → e.isLoad = false → r.Fails t m) :
    Booked policy hook r m
      (r.after answer ((l.report chunk e).1.drive (l.report chunk e).2)) := by
  have asked : ∀ k, m = .invoke (.request k) → r.loader.cache.ticketOf? k = none :=
    fun k hk => absurd hk (hm k)
  cases htick : r.loader.cache.ticketOf? chunk with
  | none =>
    have hrep : l.report chunk e = (l.noteIdle chunk e, []) := by
      simp [Loader.report, cache, htick]
    rw [hrep]
    exact .quiet h asked { lone with } rfl rfl (by rw [← cache]; rfl) (by rw [← cache]; rfl)
      (by rw [← promises]; exact Nat.le_refl _)
  | some t =>
    have hchunk := Cache.chunk_of_ticketOf? htick
    have hrep : l.report chunk e = (l, [.consult chunk e, .settle t e]) := by
      simp [Loader.report, cache, htick]
    subst hchunk
    cases hook with
    | true =>
      have hd : l.drive [.consult t.chunk e, .settle t e] =
          (l, .calling (.consult t.chunk e) [.settle t e]) := by
        simp [Loader.drive, Loader.perform, Loader.consult, lone.plan]
      have same : (r.after answer (l, .calling (.consult t.chunk e) [.settle t e])).tickets =
          r.tickets := by simp [after, tickets, Call.ticket?]
      rw [hrep, hd]
      refine ⟨h.calling lone (.inr ⟨t, ?_, e, rfl, rfl⟩), Nat.le_of_eq (by rw [← promises]; rfl), ?_⟩
      · rw [same]
        exact (g.current t.chunk t htick).1
      · exact .quiet asked (by simp [after, cache]) (by simp [after, cache]) same
    | false =>
      have hon : l.cache.honours t = true := by
        rw [cache]
        exact Cache.honours_of_ticketOf? htick
      have hd : l.drive [.consult t.chunk e, .settle t e] = (l.settleEntry t e, .finished) := by
        simp [Loader.drive, Loader.perform, Loader.consult, lone.plan, hon]
      rw [hrep, hd]
      exact .settled h lone cache promises htick e (cause t rfl rfl) hm rfl rfl fun s hs => hs

theorem booked_returns (h : Alone policy hook r) (g : r.Ledger) :
    Booked policy hook r .returns (r.step .returns) := by
  cases hs : r.suspended with
  | nil =>
    have hstep : r.step .returns = r := by simp [step, hs]
    rw [hstep]
    exact .quiet h (by simp) h.lone rfl rfl rfl rfl (Nat.le_refl _)
  | cons s outer =>
    obtain ⟨call, rest, answer⟩ := s
    have inner : ∀ s ∈ outer, s ∈ r.suspended := by
      rw [hs]
      exact fun s h => List.mem_cons_of_mem _ h
    have hw := h.waiting ⟨call, rest, answer⟩ (by rw [hs]; exact List.mem_cons_self ..)
    rcases hw with ⟨t, ht, hcall, hrest⟩ | ⟨t, ht, e, hcall, hrest⟩
    · simp only at hcall hrest
      subst hcall hrest
      have hstep : r.step .returns =
          { r with suspended := outer }.after answer
            (r.loader.hand t.chunk t.promise, .finished) := by
        simp [step, hs, Loader.drive, Loader.perform]
      rw [hstep]
      refine ⟨⟨{ h.lone with }, fun s hs' => h.waiting s (inner s hs')⟩, Nat.le_refl _, ?_⟩
      exact .quiet (by simp) (fun k => rfl) rfl rfl
    · simp only at hcall hrest
      subst hcall hrest
      cases hon : r.loader.cache.honours t with
      | true =>
        have hstep : r.step .returns =
            { r with suspended := outer }.after answer (r.loader.settleEntry t e, .finished) := by
          simp [step, hs, Loader.drive, Loader.perform, hon]
        rw [hstep]
        exact .settled h h.lone rfl rfl (g.ticketOf?_of_honours ht hon) e
          (fun he => .consulted e he hs) (by simp) rfl rfl inner
      | false =>
        have hstep : r.step .returns =
            { r with suspended := outer }.after answer (r.loader, .finished) := by
          simp [step, hs, Loader.drive, Loader.perform, hon]
        rw [hstep]
        refine ⟨⟨h.lone, fun s hs' => h.waiting s (inner s hs')⟩, Nat.le_refl _, ?_⟩
        exact .quiet (by simp) (fun k => rfl) rfl rfl

/-- A starter that raises loses its attempt; an error of the hook keeps the report from the cache. -/
theorem booked_raises (h : Alone policy hook r) (g : r.Ledger) (f : Fault) :
    Booked policy hook r (.raises f) (r.step (.raises f)) := by
  cases hs : r.suspended with
  | nil =>
    have hstep : r.step (.raises f) = r := by simp [step, hs]
    rw [hstep]
    exact .quiet h (by simp) h.lone rfl rfl rfl rfl (Nat.le_refl _)
  | cons s outer =>
    obtain ⟨call, rest, answer⟩ := s
    have inner : ∀ s ∈ outer, s ∈ r.suspended := by
      rw [hs]
      exact fun s h => List.mem_cons_of_mem _ h
    have hw := h.waiting ⟨call, rest, answer⟩ (by rw [hs]; exact List.mem_cons_self ..)
    have keeps : ∀ l : Loader, l.Lone policy hook →
        Alone policy hook ({ r with suspended := outer }.after answer (l, .raised f)) :=
      fun l lone => ⟨lone, fun s hs' => h.waiting s (inner s hs')⟩
    rcases hw with ⟨t, ht, hcall, hrest⟩ | ⟨t, ht, e, hcall, hrest⟩
    · simp only at hcall hrest
      subst hcall hrest
      have hstep : r.step (.raises f) =
          { r with suspended := outer }.after answer (r.loader.abandon t, .raised f) := by
        simp [step, hs, Loader.unwind]
      rw [hstep]
      cases hon : r.loader.cache.honours t with
      | true =>
        have hab : r.loader.abandon t =
            { r.loader with cache := r.loader.cache.drop t.chunk } := by
          simp [Loader.abandon, hon]
        rw [hab]
        refine ⟨keeps _ { h.lone with single := h.lone.single.drop t.chunk }, Nat.le_refl _, ?_⟩
        exact .ended t false (g.ticketOf?_of_honours ht hon) (fun _ => .raised f hs) (by simp)
          (fun k => Cache.find?_drop ..) rfl rfl
      | false =>
        have hab : r.loader.abandon t = r.loader := by simp [Loader.abandon, hon]
        rw [hab]
        exact ⟨keeps _ h.lone, Nat.le_refl _, .quiet (by simp) (fun k => rfl) rfl rfl⟩
    · simp only at hcall hrest
      subst hcall hrest
      have hstep : r.step (.raises f) =
          { r with suspended := outer }.after answer (r.loader, .raised f) := by
        simp [step, hs, Loader.unwind]
      rw [hstep]
      exact ⟨keeps _ h.lone, Nat.le_refl _, .quiet (by simp) (fun k => rfl) rfl rfl⟩

theorem booked_closeCache (h : Alone policy hook r) :
    Booked policy hook r (.invoke .closeCache) (r.step (.invoke .closeCache)) := by
  have hstep : r.step (.invoke .closeCache) =
      r.after (some .nothing) (r.loader.closeCache, .finished) := rfl
  obtain ⟨cache, promises, ready, hclose, single, attempts, find, size⟩ :=
    Loader.closeCache_eq h.lone.single
  rw [hstep, hclose]
  refine ⟨⟨{ h.lone with single }, h.waiting⟩, Nat.le_of_eq size.symm, ?_⟩
  exact .closed rfl find attempts rfl

theorem booked_cancelPromise (h : Alone policy hook r) (p : PromiseId) :
    Booked policy hook r (.invoke (.cancelPromise p)) (r.step (.invoke (.cancelPromise p))) := by
  have hstep : r.step (.invoke (.cancelPromise p)) =
      r.after (some (.flag (r.loader.promises.isPending p)))
        (r.loader.settlePromise p .cancelled, .finished) := rfl
  obtain ⟨ready, hset⟩ := r.loader.settlePromise_eq p .cancelled
  rw [hstep, hset]
  refine .quiet h (by simp) { h.lone with } rfl rfl rfl rfl ?_
  exact Nat.le_of_eq (Promises.size_settle ..).symm

theorem booked_reportLater (h : Alone policy hook r) (chunk : ChunkId) (e : LoadEvent) :
    Booked policy hook r (.invoke (.reportLater chunk e))
      (r.step (.invoke (.reportLater chunk e))) := by
  cases hu : r.loader.cache.used with
  | true =>
    have hstep : r.step (.invoke (.reportLater chunk e)) =
        r.after (some .nothing) (r.loader.queue (.report chunk e), .finished) := by
      simp [step, Loader.invoke, hu, Loader.atOnce, Loader.drive]
    rw [hstep]
    exact .quiet h (by simp) { h.lone with } rfl rfl rfl rfl (Nat.le_refl _)
  | false =>
    have hstep : r.step (.invoke (.reportLater chunk e)) = r := by
      simp [step, Loader.invoke, hu]
    rw [hstep]
    exact .quiet h (by simp) h.lone rfl rfl rfl rfl (Nat.le_refl _)

/-- Without tasks, fetches and shutdowns, only reports on the queue do anything. -/
theorem booked_runJob (h : Alone policy hook r) (g : r.Ledger) :
    Booked policy hook r .runJob (r.step .runJob) := by
  have nothing : Booked policy hook r .runJob r :=
    .quiet h (by simp) h.lone rfl rfl rfl rfl (Nat.le_refl _)
  cases hi : r.idle with
  | false =>
    have hstep : r.step .runJob = r := by simp [step, hi]
    rw [hstep]
    exact nothing
  | true =>
    cases hq : r.loader.ready with
    | nil =>
      have hstep : r.step .runJob = r := by simp [step, hi, Loader.nextJob?, hq]
      rw [hstep]
      exact nothing
    | cons job rest =>
      have lone : Loader.Lone policy hook { r.loader with ready := rest } := { h.lone with }
      have hstep : r.step .runJob =
          r.after none (({ r.loader with ready := rest }.runJob job).1.drive
            ({ r.loader with ready := rest }.runJob job).2) := by
        simp [step, hi, Loader.nextJob?, hq]
      have idle : ∀ work : Loader × List Frame, work = ({ r.loader with ready := rest }, []) →
          Booked policy hook r .runJob (r.after none (work.1.drive work.2)) := by
        rintro _ rfl
        exact .quiet h (by simp) lone rfl rfl rfl rfl (Nat.le_refl _)
      rw [hstep]
      cases job with
      | report chunk e =>
        refine booked_report h g lone rfl rfl chunk e none (by simp) fun t ht _ he => ?_
        have head : r.loader.ready = .report t.chunk e :: rest := by rw [hq, ht]
        exact .reportedLater e he head
      | startTask t =>
        exact idle _ (by simp [Loader.runJob, Loader.startTask, h.lone.tasks, Table.get?])
      | childSettled t p =>
        exact idle _ (by simp [Loader.runJob, Loader.childSettled, h.lone.tasks, Table.get?])
      | wakeTask t =>
        exact idle _ (by simp [Loader.runJob, Loader.wakeTask, h.lone.tasks, Table.get?])
      | ask f => exact idle _ (by simp [Loader.runJob, Loader.ask, h.lone.fetches, Table.get?])
      | answer f =>
        exact idle _ (by simp [Loader.runJob, Loader.takeAnswer, h.lone.fetches, Table.get?])
      | forget f => exact idle _ rfl
      | fetchEnded c f =>
        exact idle _ (by simp [Loader.runJob, Loader.fetchEnded, h.lone.closings, Table.get?])
      | wakeClosing c =>
        exact idle _ (by simp [Loader.runJob, Loader.wakeClosing, h.lone.closings, Table.get?])

/-- Each move has an effect. -/
theorem effect_of_move (h : Alone policy hook r) (g : r.Ledger) (hm : r.CacheMove m) :
    Booked policy hook r m (r.step m) := by
  cases m with
  | invoke op =>
    cases op with
    | request chunk => exact booked_request h chunk
    | mark chunk e => exact booked_mark h chunk hm
    | report chunk e =>
      exact booked_report h g h.lone rfl rfl chunk e (some .nothing) (by simp)
        fun t ht hh he => ht ▸ .reported e he (by rw [h.lone.plan, hh])
    | reportLater chunk e => exact booked_reportLater h chunk e
    | redeem t e => exact booked_redeem h g hm e
    | closeCache => exact booked_closeCache h
    | cancelPromise p => exact booked_cancelPromise h p
    | _ => exact hm.elim
  | returns => exact booked_returns h g
  | raises f => exact booked_raises h g f
  | runJob => exact booked_runJob h g
  | setClock now =>
    simp only [step]
    split
    · exact .quiet h (by simp) { h.lone with } rfl rfl rfl rfl (Nat.le_refl _)
    · exact .quiet h (by simp) h.lone rfl rfl rfl rfl (Nat.le_refl _)
  | _ => exact hm.elim

end Moves

end Run

end SingleFlight
