/-
SingleFlight.Proofs.Changes — what the work of a whole loader is made of.

A whole loader fetches by itself, so its work calls nobody but the observers
that others put behind its loads. Whatever the work is, it makes one small change
after the other, and there are not many kinds of them. A law about whole loaders
is proved for each kind; the laws below carry it to any piece of work. Nothing
here asks the sink to take what is counted: work may stop at any count.

* `Loader.Change` — the kinds; `Loader.Leads` — some of them in a row.
* `Loader.Whole` — what holds of a whole loader whatever is done to it, with
  `Change.whole`.
* `Whole.leads_signal`, `leads_abortAll`, `leads_request`, `leads_start`,
  `leads_collect` — the pieces of work.
-/
import Mathlib.Data.List.Defs
import Mathlib.Logic.Relation
import SingleFlight.Proofs.Coupled

namespace SingleFlight.Loader

/-! ## §1 Changes -/

/-- A promise may be handed out for a chunk: the one of the attempt in flight, or a kept one. -/
def Due (l : Loader) (chunk : ChunkId) (p : PromiseId) : Prop :=
  p < l.promises.table.size ∧
    ((∃ t, l.cache.ticketOf? chunk = some t ∧ t.promise = p) ∨
      l.promises.outcome? p = some .ok)

/-- The chunk is loaded or skipped. -/
def Final (l : Loader) (chunk : ChunkId) : Prop :=
  ∃ e, l.cache.find? chunk = some e ∧ e.state ≠ .inFlight

/-- What a request was just answered with: nothing but a final entry has such a promise kept. -/
def Granted (l : Loader) (chunk : ChunkId) (p : PromiseId) : Prop :=
  p < l.promises.table.size ∧
    ((∃ t, l.cache.ticketOf? chunk = some t ∧ t.promise = p) ∨
      l.promises.outcome? p = some .ok ∧ l.Final chunk)

theorem Granted.due {l : Loader} {chunk : ChunkId} {p : PromiseId} (h : l.Granted chunk p) :
    l.Due chunk p :=
  ⟨h.1, h.2.imp_right And.left⟩

/-- One change that the work of a loader makes; `asked` says which chunks it may be about. -/
inductive Change (asked : ChunkId → Prop) (l : Loader) : Loader → Prop
  /-- Something is counted, or the log gets longer. -/
  | noted (sink : Metrics.Sink) (log : List LogRecord) : Change asked l { l with sink, log }
  | used (ho : l.closed = false) :
      Change asked l { l with cache := { l.cache with used := true } }
  | skipped (chunk : ChunkId) (ho : l.closed = false) : Change asked l (l.mark chunk .skipped)
  /-- A request for a chunk in flight. -/
  | joined {chunk : ChunkId} {p : Pending} (h : l.cache.find? chunk = some (.inFlight p))
      (ho : l.closed = false) : Change asked l { l with cache := l.cache.join chunk p }
  /-- A request for a chunk with a final entry. -/
  | kept {chunk : ChunkId} {e : Entry} (h : l.cache.find? chunk = some e)
      (he : e.state ≠ .inFlight) (ho : l.closed = false) :
      Change asked l (l.newPromise.1.settlePromise l.newPromise.2 .ok)
  /-- A request for an unknown chunk that has something to fetch. -/
  | begun {chunk : ChunkId} (h : l.cache.find? chunk = none) (ho : l.closed = false)
      (ha : l.plan.hasAsset chunk = true) :
      Change asked l { l with
        cache := (l.cache.begin chunk l.promises.create.2).1
        promises := l.promises.create.1 }
  /-- The start of an attempt failed, with whose promise nobody was answered. -/
  | abandoned {t : Ticket} (h : ∀ chunk, (chunk, t.promise) ∉ l.handed) :
      Change asked l (l.abandon t)
  | handed {chunk : ChunkId} {p : PromiseId} (h : Due l chunk p) (ho : l.closed = false) :
      Change asked l (l.hand chunk p)
  /-- A handle is made, and the load that it was made for is refused. -/
  | made (chunk : ChunkId) (url : String) :
      Change asked l { l with handles := l.handles.add (l.madeHandle chunk url) }
  /-- The load of an attempt begins to wait for a handle that it has made. -/
  | created {resolve : ChunkId → Except Fault String} {t : Ticket} {url : String}
      (hc : asked t.chunk) (ht : l.cache.ticketOf? t.chunk = some t)
      (hw : l.plan.wiring = .fetch resolve) (hr : resolve t.chunk = .ok url)
      (hf : l.findHandle t.chunk url = none) {fetches : Table Fetch} {asks : List FetchId}
      (hb : l.Engages l.handles.size fetches asks) :
      Change asked l { l with
        attempts := l.attempts.add { chunk := t.chunk, handle := l.handles.size, done := .redeem t }
        active := l.active ++ [l.attempts.size]
        watchdogs := l.watchdogs ++ [⟨l.attempts.size, l.now + l.plan.policy.timeout⟩]
        handles := (l.handles.add (l.madeHandle t.chunk url)).update l.handles.size
          (·.observe l.attempts.size)
        registry := l.registry.attach l.handles.size url
        fetches
        ready := l.ready ++ asks.map .ask }
  /-- The load of an attempt begins to wait for a registered handle. -/
  | adopted {t : Ticket} {url : String} {h : HandleId}
      (ht : l.cache.ticketOf? t.chunk = some t) (hf : l.findHandle t.chunk url = some h)
      (hl : (l.handles.get? h).any (·.loading) = true)
      {resolve : ChunkId → Except Fault String} (hc : asked t.chunk)
      (hw : l.plan.wiring = .fetch resolve) (hr : resolve t.chunk = .ok url) :
      Change asked l { l with
        attempts := l.attempts.add { chunk := t.chunk, handle := h, done := .redeem t }
        active := l.active ++ [l.attempts.size]
        watchdogs := l.watchdogs ++ [⟨l.attempts.size, l.now + l.plan.policy.timeout⟩]
        handles := l.handles.update h (·.observe l.attempts.size) }
  /-- The load of an attempt begins on a registered handle that is complete, and ends at once. -/
  | found {t : Ticket} {url : String} {h : HandleId}
      (ht : l.cache.ticketOf? t.chunk = some t) (hf : l.findHandle t.chunk url = some h)
      (hl : (l.handles.get? h).any (·.loading) = false)
      {resolve : ChunkId → Except Fault String} (hc : asked t.chunk)
      (hw : l.plan.wiring = .fetch resolve) (hr : resolve t.chunk = .ok url) :
      Change asked l { l with
        attempts := l.attempts.add
          { chunk := t.chunk, handle := h, done := .redeem t, settled := true }
        active := l.active.filter (· ≠ l.attempts.size)
        watchdogs := l.watchdogs.filter (·.attempt ≠ l.attempts.size)
        handles := l.handles.update h (·.release) }
  /-- A load ends. -/
  | concluded {a : AttemptId} {x : Attempt} (ha : l.attempts.get? a = some x)
      (hx : x.settled = false) (e : LoadEvent) : Change asked l (l.detach a x.handle e)
  /-- An attempt in flight ends. -/
  | settled {t : Ticket} (h : l.cache.honours t = true) (e : LoadEvent) :
      Change asked l (l.settleEntry t e)
  /-- An attempt in flight ends because the cache is closed. -/
  | aborted {t : Ticket} (h : l.cache.honours t = true) : Change asked l (l.abortEntry t)

/-- Some changes, one after the other. -/
abbrev Leads (asked : ChunkId → Prop) : Loader → Loader → Prop :=
  Relation.ReflTransGen (Change asked)

/-! ### What all changes leave alone -/

/-- What no work changes; answers and promises are only added. -/
structure Grows (l l' : Loader) : Prop where
  plan : l'.plan = l.plan
  tasks : l'.tasks = l.tasks
  closed : l'.closed = l.closed
  handed : l.handed ⊆ l'.handed
  size : l.promises.table.size ≤ l'.promises.table.size

namespace Grows

theorem refl (l : Loader) : Grows l l :=
  ⟨rfl, rfl, rfl, fun _ => id, Nat.le_refl _⟩

theorem trans {l l' l'' : Loader} (h : Grows l l') (h' : Grows l' l'') : Grows l l'' where
  plan := h'.plan.trans h.plan
  tasks := h'.tasks.trans h.tasks
  closed := h'.closed.trans h.closed
  handed := fun _ hx => h'.handed (h.handed hx)
  size := Nat.le_trans h.size h'.size

end Grows

theorem Change.grows {asked : ChunkId → Prop} {l l' : Loader} (h : Change asked l l') :
    Grows l l' := by
  cases h with
  | kept h he ho =>
    obtain ⟨ready, hs⟩ := l.newPromise.1.settlePromise_eq l.newPromise.2 .ok
    rw [hs]
    exact ⟨rfl, rfl, rfl, fun _ => id, by simp [newPromise]⟩
  | begun h ho ha => exact ⟨rfl, rfl, rfl, fun _ => id, by simp⟩
  | @abandoned t h =>
    unfold abandon
    split
    · exact ⟨rfl, rfl, rfl, fun _ => id, Nat.le_refl _⟩
    · exact .refl l
  | handed h ho => exact ⟨rfl, rfl, rfl, fun _ => List.mem_append_left _, Nat.le_refl _⟩
  | @concluded a x ha hx e =>
    rw [detach_eq]
    exact ⟨rfl, rfl, rfl, fun _ => id, Nat.le_refl _⟩
  | @settled t h e =>
    obtain ⟨ready, log, hs⟩ := l.settleEntry_eq t e
    rw [hs]
    exact ⟨rfl, rfl, rfl, fun _ => id, by simp⟩
  | @aborted t h =>
    obtain ⟨o, ready, hs⟩ := l.abortEntry_eq t
    rw [hs]
    exact ⟨rfl, rfl, rfl, fun _ => id, by simp⟩
  | _ => exact ⟨rfl, rfl, rfl, fun _ => id, Nat.le_refl _⟩

/-- Promises are made and settle; no change does anything else to them. -/
theorem Change.promises_keep {asked : ChunkId → Prop} {l l' : Loader} {P : Promises → Prop}
    (create : ∀ ps, P ps → P ps.create.1) (settle : ∀ ps p o, P ps → P (ps.settle p o))
    (h : Change asked l l') (i : P l.promises) : P l'.promises := by
  cases h with
  | kept h he ho =>
    obtain ⟨ready, hs⟩ := l.newPromise.1.settlePromise_eq l.newPromise.2 .ok
    rw [hs]
    exact settle _ _ _ (create _ i)
  | begun h ho => exact create _ i
  | @abandoned t h =>
    unfold abandon
    split
    · exact i
    · exact i
  | @concluded a x ha hx e =>
    rw [detach_eq]
    exact i
  | @settled t h e =>
    obtain ⟨ready, log, hs⟩ := l.settleEntry_eq t e
    rw [hs]
    exact settle _ _ _ i
  | @aborted t h =>
    obtain ⟨o, ready, hs⟩ := l.abortEntry_eq t
    rw [hs]
    exact settle _ _ _ i
  | _ => exact i

theorem Leads.grows {asked : ChunkId → Prop} {l l' : Loader} (h : Leads asked l l') :
    Grows l l' := by
  induction h with
  | refl => exact .refl l
  | tail _ hc ih => exact ih.trans hc.grows

/-! ## §2 Whole loaders -/

/-- What holds of a loader that fetches by itself, also in the middle of its work. -/
structure Whole (asked : ChunkId → Prop) (l : Loader) : Prop where
  wired : ∃ resolve, l.plan.wiring = .fetch resolve
  redeems : ∀ a x, l.attempts.get? a = some x → ∃ t, x.done = .redeem t
  requested : ∀ task chunks b, l.tasks.get? task = some (.created chunks b) →
    ∀ chunk ∈ chunks, asked chunk
  single : l.cache.Single
  made : ∀ chunk t, l.cache.ticketOf? chunk = some t → t.promise < l.promises.table.size
  /-- No two chunks in flight have one promise. -/
  distinct : ∀ k k' t t', l.cache.ticketOf? k = some t → l.cache.ticketOf? k' = some t' →
    t.promise = t'.promise → k = k'
  bounded : ∀ chunk p, (chunk, p) ∈ l.handed → p < l.promises.table.size
  /-- A promise that requests still wait for is the one of its chunk's attempt. -/
  awaited : ∀ chunk p, (chunk, p) ∈ l.handed → l.promises.isPending p = true →
    ∃ t, l.cache.ticketOf? chunk = some t ∧ t.promise = p

namespace Whole

variable {asked : ChunkId → Prop} {l l' : Loader}

/-- Handles, the registry, watchdogs and the event loop have no part in it. -/
theorem congr (w : Whole asked l) (hpl : l'.plan = l.plan) (hat : l'.attempts = l.attempts)
    (ht : l'.tasks = l.tasks) (hc : l'.cache = l.cache) (hp : l'.promises = l.promises)
    (hh : l'.handed = l.handed) : Whole asked l' where
  wired := by rw [hpl]; exact w.wired
  redeems := by rw [hat]; exact w.redeems
  requested := by rw [ht]; exact w.requested
  single := by rw [hc]; exact w.single
  made := by rw [hc, hp]; exact w.made
  distinct := by rw [hc]; exact w.distinct
  bounded := by rw [hp, hh]; exact w.bounded
  awaited := by rw [hc, hp, hh]; exact w.awaited

/-- A load begins that redeems a ticket. -/
theorem load (w : Whole asked l) {x : Attempt} {t : Ticket} (hx : x.done = .redeem t)
    (hat : l'.attempts = l.attempts.add x) (hpl : l'.plan = l.plan) (ht : l'.tasks = l.tasks)
    (hc : l'.cache = l.cache) (hp : l'.promises = l.promises) (hh : l'.handed = l.handed) :
    Whole asked l' := by
  have rest : Whole asked { l' with attempts := l.attempts } := w.congr hpl rfl ht hc hp hh
  refine { rest with redeems := ?_ }
  intro a y hy
  rw [hat, Table.get?_add] at hy
  split at hy
  · cases hy
    exact ⟨t, hx⟩
  · exact w.redeems a y hy

/-- The chunks in flight are as they were, with their promises. -/
theorem entries (w : Whole asked l) {cache : Cache}
    (tickets : ∀ k, cache.ticketOf? k = l.cache.ticketOf? k) (single : cache.Single) :
    Whole asked { l with cache } := by
  refine { w with single, made := ?_, distinct := ?_, awaited := ?_ }
  all_goals simp only [tickets]
  · exact w.made
  · exact w.distinct
  · exact w.awaited

/-- A promise is settled. -/
theorem settle (w : Whole asked l) (p : PromiseId) (o : Outcome) :
    Whole asked { l with promises := l.promises.settle p o } := by
  refine { w with made := ?_, bounded := ?_, awaited := ?_ }
  · simp only [Promises.size_settle]
    exact w.made
  · simp only [Promises.size_settle]
    exact w.bounded
  · intro chunk q hq hpend
    rw [Promises.isPending_settle, Bool.and_eq_true] at hpend
    exact w.awaited chunk q hq hpend.1

/-- A chunk is in flight no more, and nobody waits for the promise of its attempt. -/
theorem ended (w : Whole asked l) {chunk : ChunkId} {cache : Cache} {promises : Promises}
    (tickets : ∀ k, cache.ticketOf? k = if k = chunk then none else l.cache.ticketOf? k)
    (single : cache.Single) (size : promises.table.size = l.promises.table.size)
    (pending : ∀ p, promises.isPending p = true → l.promises.isPending p = true)
    (gone : ∀ k t, (k, t.promise) ∈ l.handed → l.cache.ticketOf? chunk = some t →
      promises.isPending t.promise = false) :
    Whole asked { l with cache, promises } := by
  have still : ∀ k t, cache.ticketOf? k = some t → l.cache.ticketOf? k = some t := by
    intro k t ht
    rw [tickets] at ht
    split at ht
    · cases ht
    · exact ht
  refine { w with single, made := ?_, distinct := ?_, bounded := ?_, awaited := ?_ }
  · intro k t ht
    rw [size]
    exact w.made k t (still k t ht)
  · intro k k' t t' ht ht'
    exact w.distinct k k' t t' (still k t ht) (still k' t' ht')
  · rw [size]
    exact w.bounded
  · intro k p hmem hpend
    obtain ⟨t, ht, rfl⟩ := w.awaited k p hmem (pending p hpend)
    refine ⟨t, ?_, rfl⟩
    rw [tickets, if_neg]
    · exact ht
    · rintro rfl
      rw [gone k t hmem ht] at hpend
      cases hpend

/-- The promise of a good ticket is the one of its chunk's attempt. -/
theorem promise_of_honours {c : Cache} {t t' : Ticket} (h : c.honours t = true)
    (ht : c.ticketOf? t.chunk = some t') : t'.promise = t.promise := by
  obtain ⟨p, hp, hprom⟩ := Cache.honours_iff.mp h
  obtain ⟨p', hp', rfl⟩ := Cache.ticketOf?_eq_some.mp ht
  rw [hp] at hp'
  cases hp'
  exact hprom

theorem finish (w : Whole asked l) {t : Ticket} (h : l.cache.honours t = true) (o : Outcome)
    (load : Bool) :
    Whole asked { l with
      cache := if load then l.cache.finish t.chunk else l.cache.drop t.chunk
      promises := l.promises.settle t.promise o } := by
  refine w.ended (fun _ => Cache.ticketOf?_ended ..) (w.single.ended ..) (Promises.size_settle ..)
    (fun p hp => ?_) (fun k t' _ ht => ?_)
  · rw [Promises.isPending_settle, Bool.and_eq_true] at hp
    exact hp.1
  · rw [promise_of_honours h ht, Promises.isPending_settle]
    simp

/-- A new promise is none of those of attempts in flight, and none of those handed out. -/
theorem begin (w : Whole asked l) {chunk : ChunkId} (h : l.cache.find? chunk = none) :
    Whole asked { l with
      cache := (l.cache.begin chunk l.promises.create.2).1
      promises := l.promises.create.1 } := by
  have hnone : l.cache.ticketOf? chunk = none := by simp [Cache.ticketOf?, h]
  have tickets : ∀ k t, (l.cache.begin chunk l.promises.create.2).1.ticketOf? k = some t →
      k = chunk ∧ t.promise = l.promises.table.size ∨ l.cache.ticketOf? k = some t := by
    intro k t ht
    rw [Cache.ticketOf?_begin] at ht
    split at ht
    · rename_i hk
      cases ht
      exact .inl ⟨hk, rfl⟩
    · exact .inr ht
  refine
    { w with
      single := w.single.begin chunk _
      made := ?_
      distinct := ?_
      bounded := ?_
      awaited := ?_ }
  · intro k t ht
    rw [Promises.size_create]
    rcases tickets k t ht with ⟨-, hp⟩ | ht
    · rw [hp]
      exact Nat.lt_succ_self _
    · exact Nat.lt_succ_of_lt (w.made k t ht)
  · intro k k' t t' ht ht' heq
    rcases tickets k t ht with ⟨hk, hp⟩ | old
    · rcases tickets k' t' ht' with ⟨hk', -⟩ | old'
      · rw [hk, hk']
      · have hlt := w.made k' t' old'
        rw [← heq, hp] at hlt
        exact absurd hlt (Nat.lt_irrefl _)
    · rcases tickets k' t' ht' with ⟨-, hp'⟩ | old'
      · have hlt := w.made k t old
        rw [heq, hp'] at hlt
        exact absurd hlt (Nat.lt_irrefl _)
      · exact w.distinct k k' t t' old old' heq
  · intro k p hm
    rw [Promises.size_create]
    exact Nat.lt_succ_of_lt (w.bounded k p hm)
  · intro k p hm hpend
    have hne : p ≠ l.promises.table.size := Nat.ne_of_lt (w.bounded k p hm)
    rw [Promises.isPending_create, decide_eq_false hne, Bool.false_or] at hpend
    obtain ⟨t, ht, hp⟩ := w.awaited k p hm hpend
    refine ⟨t, ?_, hp⟩
    rw [Cache.ticketOf?_begin, if_neg]
    · exact ht
    · rintro rfl
      rw [hnone] at ht
      cases ht

/-- A promise that is kept as soon as it is made has no part in what waits. -/
theorem keep (w : Whole asked l) :
    Whole asked { l with promises := l.promises.create.1.settle l.promises.create.2 .ok } := by
  have size : (l.promises.create.1.settle l.promises.create.2 .ok).table.size =
      l.promises.table.size + 1 := by simp
  refine { w with made := ?_, bounded := ?_, awaited := ?_ }
  · intro k t ht
    rw [size]
    exact Nat.lt_succ_of_lt (w.made k t ht)
  · intro k p hm
    rw [size]
    exact Nat.lt_succ_of_lt (w.bounded k p hm)
  · intro k p hm hpend
    have hne : p ≠ l.promises.table.size := Nat.ne_of_lt (w.bounded k p hm)
    rw [Promises.isPending_settle, Promises.isPending_create, decide_eq_false hne, Bool.false_or,
      Bool.and_eq_true] at hpend
    exact w.awaited k p hm hpend.1

end Whole

/-- Every change keeps what holds of a whole loader. -/
theorem Change.whole {asked : ChunkId → Prop} {l l' : Loader} (h : Change asked l l')
    (w : Whole asked l) : Whole asked l' := by
  cases h with
  | noted => exact w.congr rfl rfl rfl rfl rfl rfl
  | used => exact w.entries (fun _ => rfl) w.single
  | skipped chunk ho =>
    exact w.entries (fun _ => Cache.ticketOf?_mark _ _ _ (by simp [Entry.state]))
      (w.single.mark chunk _)
  | @joined chunk p h ho =>
    exact w.entries (fun _ => Cache.ticketOf?_join _ _ _ h) (w.single.join chunk p)
  | kept h he ho =>
    obtain ⟨ready, hs⟩ := l.newPromise.1.settlePromise_eq l.newPromise.2 .ok
    rw [hs]
    exact w.keep.congr rfl rfl rfl rfl rfl rfl
  | begun h ho ha => exact w.begin h
  | @abandoned t h =>
    unfold abandon
    split
    · rename_i hh
      refine w.ended (fun _ => Cache.ticketOf?_drop ..) (w.single.drop t.chunk) rfl (fun _ => id)
        (fun k t' hm ht => ?_)
      rw [Whole.promise_of_honours hh ht] at hm
      exact absurd hm (h k)
    · exact w
  | @handed chunk p h ho =>
    refine { w with bounded := ?_, awaited := ?_ }
    · intro k q hm
      rcases List.mem_append.mp hm with hm | hm
      · exact w.bounded k q hm
      · cases List.mem_singleton.mp hm
        exact h.1
    · intro k q hm hpend
      rcases List.mem_append.mp hm with hm | hm
      · exact w.awaited k q hm hpend
      · cases List.mem_singleton.mp hm
        rcases h.2 with ht | hout
        · exact ht
        · exact absurd hpend (by rw [hand, Promises.isPending_of_outcome? hout]; simp)
  | made => exact w.congr rfl rfl rfl rfl rfl rfl
  | created => exact w.load rfl rfl rfl rfl rfl rfl rfl
  | adopted => exact w.load rfl rfl rfl rfl rfl rfl rfl
  | found => exact w.load rfl rfl rfl rfl rfl rfl rfl
  | @concluded a x ha hx e =>
    rw [detach_eq]
    refine { w with redeems := ?_ }
    intro b y hy
    rw [Table.get?_update] at hy
    split at hy
    · obtain ⟨y', hy', rfl⟩ := Option.map_eq_some_iff.mp hy
      exact w.redeems b y' hy'
    · exact w.redeems b y hy
  | @settled t h e =>
    obtain ⟨ready, log, hs⟩ := l.settleEntry_eq t e
    rw [hs]
    exact (w.finish h _ e.isLoad).congr rfl rfl rfl rfl rfl rfl
  | @aborted t h =>
    obtain ⟨o, ready, hs⟩ := l.abortEntry_eq t
    rw [hs]
    exact (w.finish h o false).congr rfl rfl rfl rfl rfl rfl

theorem Leads.whole {asked : ChunkId → Prop} {l l' : Loader} (h : Leads asked l l')
    (w : Whole asked l) : Whole asked l' := by
  induction h with
  | refl => exact w
  | tail _ hc ih => exact hc.whole ih

/-! ## §3 Pieces of work -/

/-- An attempt is about to be started: its chunk is in flight, and nobody has its promise. -/
structure Starting (l : Loader) (t : Ticket) : Prop where
  opened : l.closed = false
  ticket : l.cache.ticketOf? t.chunk = some t
  pending : l.promises.isPending t.promise = true
  fresh : ∀ chunk, (chunk, t.promise) ∉ l.handed

/-- Loads do not show in the entries, before they end. -/
theorem Starting.congr {l l' : Loader} {t : Ticket} (st : Starting l t)
    (hc : l'.cache = l.cache) (hp : l'.promises = l.promises) (hh : l'.handed = l.handed)
    (hcl : l'.closed = l.closed) : Starting l' t where
  opened := hcl.trans st.opened
  ticket := by rw [hc]; exact st.ticket
  pending := by rw [hp]; exact st.pending
  fresh := by rw [hh]; exact st.fresh

namespace Whole

variable {asked : ChunkId → Prop} {l : Loader}

/-! ### Requests -/

theorem leads_serve_of_unknown (w : Whole asked l) (ho : l.closed = false) {chunk : ChunkId}
    (hf : l.cache.find? chunk = none) (ha : l.plan.hasAsset chunk = true) :
    (∃ l' f, l.serve chunk = (l', .error f) ∧ Leads asked l l') ∨
      ∃ l' t, l.serve chunk = (l', .ok (t.promise, some t)) ∧ t.chunk = chunk ∧
        Leads asked l l' ∧ Starting l' t := by
  have used : Leads asked l { l with cache := { l.cache with used := true } } := .single (.used ho)
  have hf' : { l.cache with used := true }.find? chunk = none := hf
  have begun := used.tail (.begun hf' ho ha)
  obtain ⟨sink, refusal, hc⟩ := count_eq
    { l with
      cache := ({ l.cache with used := true }.begin chunk l.promises.create.2).1
      promises := l.promises.create.1 } requestsTotal ("result", "start")
  cases refusal with
  | some f =>
    refine .inl ⟨_, f, ?_, begun.tail (.noted sink l.log)⟩
    simp only [serve, hf', newPromise]
    simp only [Cache.begin] at hc ⊢
    rw [hc]
  | none =>
    let t : Ticket := ⟨chunk, l.promises.create.2, l.cache.attemptsAt chunk + 1⟩
    let l₁ : Loader :=
      { l with
        cache := ({ l.cache with used := true }.begin chunk l.promises.create.2).1
        promises := l.promises.create.1
        sink }
    refine .inr ⟨l₁.noteStart t, t, ?_, rfl, begun.tail (.noted sink _), ho, ?_, ?_, ?_⟩
    · simp only [serve, hf', newPromise]
      simp only [Cache.begin] at hc ⊢
      rw [hc]
      rfl
    · exact (Cache.ticketOf?_begin _ chunk chunk _).trans (if_pos rfl)
    · exact l.promises.isPending_created
    · intro k hm
      exact Nat.lt_irrefl _ (w.bounded k _ hm)

theorem leads_serve_of_inFlight (w : Whole asked l) (ho : l.closed = false) {chunk : ChunkId}
    {p : Pending} (hf : l.cache.find? chunk = some (.inFlight p)) :
    (∃ l' f, l.serve chunk = (l', .error f) ∧ Leads asked l l') ∨
      ∃ l' p, l.serve chunk = (l', .ok (p, none)) ∧ Leads asked l l' ∧ l'.closed = false ∧
        Granted l' chunk p := by
  have used : Leads asked l { l with cache := { l.cache with used := true } } := .single (.used ho)
  have hf' : { l.cache with used := true }.find? chunk = some (.inFlight p) := hf
  have joined := used.tail (.joined hf' ho)
  have ht : l.cache.ticketOf? chunk = some ⟨chunk, p.promise, p.attempt⟩ :=
    Cache.ticketOf?_eq_some.mpr ⟨p, hf, rfl⟩
  obtain ⟨sink, refusal, hc⟩ := count_eq
    { l with cache := { l.cache with used := true }.join chunk p } requestsTotal ("result", "join")
  cases refusal with
  | some f => exact .inl ⟨_, f, by simp only [serve, hf', hc], joined.tail (.noted sink l.log)⟩
  | none =>
    refine .inr ⟨_, p.promise, by simp only [serve, hf', hc], joined.tail (.noted sink l.log), ho,
      w.made chunk _ ht, .inl ⟨⟨chunk, p.promise, p.attempt⟩, ?_, rfl⟩⟩
    exact (Cache.ticketOf?_join { l.cache with used := true } chunk chunk hf').trans ht

theorem leads_serve_of_final (ho : l.closed = false) {chunk : ChunkId} {e : Entry}
    (hf : l.cache.find? chunk = some e) (he : e.state ≠ .inFlight) :
    (∃ l' f, l.serve chunk = (l', .error f) ∧ Leads asked l l') ∨
      ∃ l' p, l.serve chunk = (l', .ok (p, none)) ∧ Leads asked l l' ∧ l'.closed = false ∧
        Granted l' chunk p := by
  have used : Leads asked l { l with cache := { l.cache with used := true } } := .single (.used ho)
  have hf' : { l.cache with used := true }.find? chunk = some e := hf
  obtain ⟨sink, refusal, hc⟩ := count_eq
    { l with cache := { l.cache with used := true } } requestsTotal ("result", "hit")
  have counted := used.tail (.noted sink l.log)
  cases refusal with
  | some f =>
    refine .inl ⟨_, f, ?_, counted⟩
    cases e with
    | inFlight p => exact absurd rfl he
    | _ => simp only [serve, hf', hc]
  | none =>
    have kept := counted.tail (.kept (l := { l with
      cache := { l.cache with used := true }, sink }) hf' he ho)
    refine .inr ⟨_, l.promises.create.2, ?_, kept, (Leads.grows kept).closed.trans ho, ?_⟩
    · cases e with
      | inFlight p => exact absurd rfl he
      | _ => simp only [serve, hf', hc]; rfl
    · obtain ⟨ready, hs⟩ := settlePromise_eq
        ({ l with cache := { l.cache with used := true }, sink }.newPromise).1
        l.promises.create.2 .ok
      have hs' : (newPromise { l with cache := { l.cache with used := true }, sink }).2 =
        l.promises.create.2 := rfl
      rw [hs', hs]
      refine ⟨?_, .inr ⟨?_, e, hf, he⟩⟩
      · show l.promises.table.size < (l.promises.create.1.settle _ .ok).table.size
        simp
      · exact Promises.outcome?_settle_of_isPending l.promises.isPending_created _

/-- What the cache makes of a request; an unknown chunk has something to fetch. -/
theorem leads_serve (w : Whole asked l) (ho : l.closed = false) (chunk : ChunkId)
    (ha : l.cache.find? chunk = none → l.plan.hasAsset chunk = true) :
    (∃ l' f, l.serve chunk = (l', .error f) ∧ Leads asked l l') ∨
      (∃ l' p, l.serve chunk = (l', .ok (p, none)) ∧ Leads asked l l' ∧ l'.closed = false ∧
        Granted l' chunk p) ∨
      ∃ l' t, l.serve chunk = (l', .ok (t.promise, some t)) ∧ t.chunk = chunk ∧
        Leads asked l l' ∧ Starting l' t := by
  cases hf : l.cache.find? chunk with
  | none => exact (w.leads_serve_of_unknown ho hf (ha hf)).imp_right .inr
  | some e =>
    by_cases he : e.state = .inFlight
    · cases e with
      | skipped => cases he
      | loaded => cases he
      | inFlight p => exact (w.leads_serve_of_inFlight ho hf).imp_right .inl
    · exact (leads_serve_of_final ho hf he).imp_right .inl

/-- A request is refused, answered, or makes the ticket of an attempt that is to be started. -/
theorem leads_request (w : Whole asked l) (chunk : ChunkId) :
    (∃ l' f, l.request chunk = (l', .error f) ∧ Leads asked l l') ∨
      (∃ l' p, l.request chunk = (l', .ok (p, none)) ∧ Leads asked l l' ∧ l'.closed = false ∧
        Granted l' chunk p) ∨
      ∃ l' t, l.request chunk = (l', .ok (t.promise, some t)) ∧ t.chunk = chunk ∧
        Leads asked l l' ∧ Starting l' t := by
  unfold request
  split
  · exact .inl ⟨l, .closed, rfl, .refl⟩
  · rename_i hcl
    have ho : l.closed = false := by simpa using hcl
    split
    · rename_i ha
      exact w.leads_serve ho chunk fun _ => ha
    · have skipped : Change asked l (l.mark chunk .skipped) := .skipped chunk ho
      have known : (l.mark chunk .skipped).cache.find? chunk ≠ none := by
        simp [mark, Cache.find?_mark]
      rcases (skipped.whole w).leads_serve ho chunk (absurd · known) with
        ⟨l', f, hs, hl⟩ | ⟨l', p, hs, hl, how⟩ | ⟨l', t, hs, ht, hl, st⟩
      · exact .inl ⟨l', f, hs, .head skipped hl⟩
      · exact .inr (.inl ⟨l', p, hs, .head skipped hl, how⟩)
      · exact .inr (.inr ⟨l', t, hs, ht, .head skipped hl, st⟩)

/-! ### The end of loads -/

/-- A load ends; all that can be refused is to count it. -/
theorem leads_conclude (asked : ChunkId → Prop) {a : AttemptId} {x : Attempt}
    (ha : l.attempts.get? a = some x) (hx : x.settled = false) (e : LoadEvent) :
    ∃ l' refusal, l.conclude a x e = (l', refusal) ∧ Leads asked l l' := by
  obtain ⟨sink, log, refusal, hcon⟩ := l.conclude_shape a x e
  have ended : Leads asked l (l.detach a x.handle e) := .single (.concluded ha hx e)
  exact ⟨_, refusal, hcon, ended.tail (.noted sink log)⟩

/-- The cache takes the outcome of an attempt in flight, and ignores any other. -/
theorem leads_redeem (t : Ticket) (e : LoadEvent) : Leads asked l (l.redeem t e) := by
  unfold redeem
  split
  · rename_i h
    exact .single (.settled h e)
  · exact .single (.noted l.sink _)

/-- A signal ends loads; it stops at a refused count, or at the observer behind the loads. -/
theorem leads_signal (e : LoadEvent) (foreign : Option CallbackId) (waiting : List AttemptId)
    (w : Whole asked l) :
    ∃ l', Leads asked l l' ∧
      (signal e foreign waiting l = (l', .through) ∨
        (∃ f, signal e foreign waiting l = (l', .fails f)) ∨
          ∃ k, foreign = some k ∧ signal e foreign waiting l = (l', .calls (.observe k e) [])) := by
  induction waiting generalizing l with
  | nil =>
    refine ⟨l, .refl, ?_⟩
    cases foreign with
    | none => exact .inl rfl
    | some k => exact .inr (.inr ⟨k, rfl, rfl⟩)
  | cons a rest ih =>
    cases ha : l.attempts.get? a with
    | none => exact ⟨l, .refl, .inl (by simp [signal, ha])⟩
    | some x =>
      cases hx : x.settled with
      | true => exact ⟨l, .refl, .inl (by simp [signal, ha, hx])⟩
      | false =>
        obtain ⟨t, ht⟩ := w.redeems a x ha
        obtain ⟨l₁, refusal, hcon, h₁⟩ := leads_conclude asked ha hx e
        cases refusal with
        | some f => exact ⟨l₁, h₁, .inr (.inl ⟨f, by simp [signal, ha, hx, hcon]⟩)⟩
        | none =>
          have h₂ : Leads asked l (l₁.redeem t e) := h₁.trans (leads_redeem t e)
          obtain ⟨l', h', hsig⟩ := ih (h₂.whole w)
          refine ⟨l', h₂.trans h', ?_⟩
          simp only [signal, ha, hx, hcon, ht, Bool.false_eq_true, if_false]
          exact hsig

theorem leads_settleLoad (w : Whole asked l) (a : AttemptId) (e : LoadEvent) :
    ∃ l', Leads asked l l' ∧
      (l.settleLoad a e = (l', .through) ∨ ∃ f, l.settleLoad a e = (l', .fails f)) := by
  obtain ⟨l', h, hs | hs | ⟨k, hk, -⟩⟩ := w.leads_signal e none [a]
  · exact ⟨l', h, .inl hs⟩
  · exact ⟨l', h, .inr hs⟩
  · cases hk

theorem leads_abortAll (attempts : List AttemptId) (w : Whole asked l) :
    ∃ l', Leads asked l l' ∧
      (abortAll attempts l = (l', .through) ∨ ∃ f, abortAll attempts l = (l', .fails f)) := by
  induction attempts generalizing l with
  | nil => exact ⟨l, .refl, .inl rfl⟩
  | cons a rest ih =>
    obtain ⟨l₁, h₁, hs | ⟨f, hs⟩⟩ := w.leads_settleLoad a (l.endSignal a "abort")
    · obtain ⟨l', h', hrest⟩ := ih (h₁.whole w)
      exact ⟨l', h₁.trans h', by simp only [abortAll, hs]; exact hrest⟩
    · exact ⟨l₁, h₁, .inr ⟨f, by simp only [abortAll, hs]⟩⟩

/-! ### Starts -/

/-- The load of an attempt on a handle that is complete: all that can be refused is to count it. -/
theorem leads_found {resolve : ChunkId → Except Fault String} {t : Ticket} {url : String}
    {h : HandleId} (hc : asked t.chunk) (hw : l.plan.wiring = .fetch resolve)
    (hr : resolve t.chunk = .ok url)
    (ht : l.cache.ticketOf? t.chunk = some t) (hf : l.findHandle t.chunk url = some h)
    (hl : (l.handles.get? h).any (·.loading) = false) {l₁ : Loader} {sink : Metrics.Sink}
    {log : List LogRecord}
    (h₁ : l₁ = { l with
      attempts := l.attempts.add { chunk := t.chunk, handle := h, done := .redeem t }
      sink
      log }) {e : LoadEvent} (he : e.isLoad = true) :
    ∃ l' refusal,
      l₁.conclude l.attempts.size { chunk := t.chunk, handle := h, done := .redeem t } e =
        (l', refusal) ∧ Leads asked l l' ∧ l'.cache = l.cache ∧ l'.promises = l.promises ∧
          l'.handed = l.handed := by
  subst h₁
  have begun : Leads asked l _ := .single (.found ht hf hl hc hw hr)
  have ended : detach { l with
        attempts := l.attempts.add { chunk := t.chunk, handle := h, done := .redeem t }
        sink
        log } l.attempts.size h e =
      { l with
        attempts := l.attempts.add
          { chunk := t.chunk, handle := h, done := .redeem t, settled := true }
        active := l.active.filter (· ≠ l.attempts.size)
        watchdogs := l.watchdogs.filter (·.attempt ≠ l.attempts.size)
        handles := l.handles.update h (·.release)
        sink
        log } := by
    rw [detach_eq]
    simp only [registryAfter, he, if_true, Table.update_add_size]
  obtain ⟨sink', log', refusal, hcon⟩ := conclude_shape { l with
    attempts := l.attempts.add { chunk := t.chunk, handle := h, done := .redeem t }
    sink
    log } l.attempts.size { chunk := t.chunk, handle := h, done := .redeem t } e
  rw [ended] at hcon
  exact ⟨_, refusal, hcon, begun.tail (.noted sink' log'), rfl, rfl, rfl⟩

/-- The load of an attempt is refused, begins to wait, or begins on a complete handle. -/
theorem leads_load {resolve : ChunkId → Except Fault String} {t : Ticket} {url : String}
    (hc : asked t.chunk) (st : Starting l t) (hw : l.plan.wiring = .fetch resolve)
    (hr : resolve t.chunk = .ok url) :
    (∃ l', Leads asked l l' ∧ Starting l' t ∧
      ((∃ f, l.load t.chunk url (.redeem t) = (l', .error f)) ∨
        ∃ h, l.load t.chunk url (.redeem t) = (l', .ok (h, none)))) ∨
      ∃ h l₁ sink log, l.findHandle t.chunk url = some h ∧
        (l.handles.get? h).any (·.loading) = false ∧
          l.load t.chunk url (.redeem t) = (l₁, .ok (h, some l.attempts.size)) ∧
            l₁ = { l with
              attempts := l.attempts.add { chunk := t.chunk, handle := h, done := .redeem t }
              sink
              log } := by
  cases hf : l.findHandle t.chunk url with
  | none =>
    obtain ⟨sink, refusal, hcount⟩ := count_eq
      { l with handles := l.handles.add (l.madeHandle t.chunk url) } handlesTotal
      ("mode", HandleMode.created.word)
    cases refusal with
    | some f =>
      have made : Leads asked l { l with handles := l.handles.add (l.madeHandle t.chunk url) } :=
        .single (.made t.chunk url)
      exact .inl ⟨_, made.tail (.noted sink l.log), st.congr rfl rfl rfl rfl,
        .inl ⟨f, load_refused_of_unfound _ hf hcount⟩⟩
    | none =>
      obtain ⟨log, fetches, asks, hl, begun⟩ := load_taken_of_unfound (.redeem t) hf hcount
      have created : Leads asked l _ :=
        .single (.created hc st.ticket hw hr hf begun)
      exact .inl ⟨_, created.tail (.noted sink log), st.congr rfl rfl rfl rfl, .inr ⟨_, hl⟩⟩
  | some h =>
    cases hload : (l.handles.get? h).any (·.loading) with
    | true =>
      obtain ⟨sink, refusal, hcount⟩ :=
        count_eq l handlesTotal ("mode", HandleMode.adoptedLoading.word)
      cases refusal with
      | some f =>
        exact .inl ⟨_, .single (.noted sink l.log), st.congr rfl rfl rfl rfl,
          .inl ⟨f, load_refused_of_found _ hf (by simp [hload]) hcount⟩⟩
      | none =>
        obtain ⟨log, hl⟩ := load_taken_of_loading (.redeem t) hf hload hcount
        have adopted : Leads asked l _ := .single (.adopted st.ticket hf hload hc hw hr)
        exact .inl ⟨_, adopted.tail (.noted sink log), st.congr rfl rfl rfl rfl, .inr ⟨_, hl⟩⟩
    | false =>
      obtain ⟨sink, refusal, hcount⟩ :=
        count_eq l handlesTotal ("mode", HandleMode.adoptedComplete.word)
      cases refusal with
      | some f =>
        exact .inl ⟨_, .single (.noted sink l.log), st.congr rfl rfl rfl rfl,
          .inl ⟨f, load_refused_of_found _ hf (by simp [hload]) hcount⟩⟩
      | none =>
        obtain ⟨log, hl⟩ := load_taken_of_complete (.redeem t) hf hload hcount
        exact .inr ⟨h, _, sink, log, rfl, hload, hl, rfl⟩

/-- An attempt gets its load, or is given up before anybody was answered with its promise. -/
theorem leads_start (w : Whole asked l) {t : Ticket} (hc : asked t.chunk) (st : Starting l t) :
    ∃ l', Leads asked l l' ∧
      (l.start t = (l', .through) ∧ Granted l' t.chunk t.promise ∨
        ∃ f, l.start t = (l', .fails f)) := by
  obtain ⟨resolve, hw⟩ := w.wired
  have given : ∀ {l₁ : Loader}, Leads asked l l₁ → (∀ chunk, (chunk, t.promise) ∉ l₁.handed) →
      Leads asked l (l₁.abandon t) := fun h₁ hn => h₁.tail (.abandoned hn)
  unfold start
  rw [hw]
  show ∃ l', _ ∧ (l.fetch resolve t = _ ∧ _ ∨ ∃ f, l.fetch resolve t = _)
  unfold fetch
  cases hr : resolve t.chunk with
  | error f => exact ⟨l.abandon t, given .refl st.fresh, .inr ⟨f, rfl⟩⟩
  | ok url =>
    rcases leads_load hc st hw hr with
      ⟨l₁, h₁, st₁, ⟨f, hl⟩ | ⟨h, hl⟩⟩ | ⟨h, l₁, sink, log, hf, hload, hl, hl₁⟩
    · exact ⟨l₁.abandon t, given h₁ st₁.fresh, .inr ⟨f, by simp only [hl]⟩⟩
    · exact ⟨l₁, h₁, .inl ⟨by simp only [hl],
        (h₁.whole w).made t.chunk t st₁.ticket, .inl ⟨t, st₁.ticket, rfl⟩⟩⟩
    · have ha : l₁.attempts.get? l.attempts.size =
          some { chunk := t.chunk, handle := h, done := .redeem t } := by
        rw [hl₁]
        exact Table.get?_add_size ..
      obtain ⟨l₂, refusal, hcon, h₂, hcache, hprom, hhanded⟩ :=
        leads_found hc hw hr st.ticket hf hload hl₁ (e := l₁.signalFrom h "load") rfl
      cases refusal with
      | some f =>
        refine ⟨l₂.abandon t, given h₂ (by rw [hhanded]; exact st.fresh), .inr ⟨f, ?_⟩⟩
        simp only [hl, settleLoad, signal, ha, hcon, Bool.false_eq_true, if_false]
      | none =>
        have honoured : l₂.cache.honours t = true := by
          rw [hcache]
          exact Cache.honours_of_ticketOf? st.ticket
        refine ⟨l₂.redeem t (l₁.signalFrom h "load"), h₂.trans (leads_redeem t _), .inl ⟨?_, ?_⟩⟩
        · simp only [hl, settleLoad, signal, ha, hcon, Bool.false_eq_true, if_false]
        · rw [redeem_of_honours honoured]
          obtain ⟨ready, log, hs⟩ := l₂.settleEntry_eq t (l₁.signalFrom h "load")
          rw [hs]
          refine ⟨?_, .inr ⟨?_, .loaded, ?_, by simp [Entry.state]⟩⟩
          · rw [Promises.size_settle, hprom]
            exact w.made t.chunk t st.ticket
          · exact Promises.outcome?_settle_of_isPending (by rw [hprom]; exact st.pending) _
          · exact (Cache.find?_finish ..).trans (if_pos rfl)

/-! ### Tasks -/

/-- A task gets a promise for each of its chunks, or one of its requests fails. -/
theorem leads_collect (task : TaskId) (chunks : List ChunkId) (got : List PromiseId)
    (w : Whole asked l) (hc : ∀ chunk ∈ chunks, asked chunk) :
    ∃ l', Leads asked l l' ∧
      ((∃ f, collect task got chunks l = (l'.endTask task (.fault f), .through)) ∨
        ∃ ps, collect task got chunks l = (l'.await task (got ++ ps), .through) ∧
          List.Forall₂ (fun chunk p => (chunk, p) ∈ l'.handed) chunks ps) := by
  induction chunks generalizing l got with
  | nil => exact ⟨l, .refl, .inr ⟨[], by simp [collect], .nil⟩⟩
  | cons chunk rest ih =>
    -- Once a promise is handed out for the first chunk, the others are asked for.
    have next : ∀ {l₁ : Loader} {p : PromiseId}, Leads asked l l₁ → l₁.closed = false →
        Granted l₁ chunk p →
        ∃ l', Leads asked l l' ∧
          ((∃ f, collect task (got ++ [p]) rest (l₁.hand chunk p) =
              (l'.endTask task (.fault f), .through)) ∨
            ∃ ps, collect task (got ++ [p]) rest (l₁.hand chunk p) =
                (l'.await task (got ++ p :: ps), .through) ∧
              List.Forall₂ (fun chunk p => (chunk, p) ∈ l'.handed) (chunk :: rest) (p :: ps)) := by
      intro l₁ p h₁ hopen ho
      have h₂ : Leads asked l (l₁.hand chunk p) := h₁.tail (.handed ho.due hopen)
      obtain ⟨l', h', hf | ⟨ps, hps, hall⟩⟩ := ih (l := l₁.hand chunk p) (got ++ [p]) (h₂.whole w)
        (fun k hk => hc k (List.mem_cons_of_mem _ hk))
      · exact ⟨l', h₂.trans h', .inl hf⟩
      · refine ⟨l', h₂.trans h', .inr ⟨ps, ?_, .cons (h'.grows.handed ?_) hall⟩⟩
        · rw [hps, List.append_assoc, List.singleton_append]
        · exact List.mem_append_right _ (List.mem_singleton.mpr rfl)
    rcases w.leads_request chunk with
      ⟨l₁, f, hr, h₁⟩ | ⟨l₁, p, hr, h₁, hopen, ho⟩ | ⟨l₁, t, hr, rfl, h₁, st⟩
    · exact ⟨l₁, h₁, .inl ⟨f, by simp only [collect, hr]⟩⟩
    · obtain ⟨l', h', hcol⟩ := next h₁ hopen ho
      refine ⟨l', h', ?_⟩
      simp only [collect, hr]
      rcases hcol with hf | ⟨ps, hps, hall⟩
      · exact .inl hf
      · exact .inr ⟨p :: ps, hps, hall⟩
    · obtain ⟨l₂, h₂, ⟨hs, ho⟩ | ⟨f, hs⟩⟩ :=
        (h₁.whole w).leads_start (hc _ (List.mem_cons_self ..)) st
      · obtain ⟨l', h', hcol⟩ := next (h₁.trans h₂) (h₂.grows.closed.trans st.opened) ho
        refine ⟨l', h', ?_⟩
        simp only [collect, hr, hs]
        rcases hcol with hf | ⟨ps, hps, hall⟩
        · exact .inl hf
        · exact .inr ⟨t.promise :: ps, hps, hall⟩
      · exact ⟨l₂, h₁.trans h₂, .inl ⟨f, by simp only [collect, hr, hs]⟩⟩

/-! ### Shutdown -/

/-- What holds and is kept where an attempt in flight is aborted, holds when all of them are. -/
theorem closeCache_keeps {I : Loader → Prop}
    (keeps : ∀ l t, Whole asked l → l.cache.honours t = true → I l → I (l.abortEntry t))
    (w : Whole asked l) (hI : I l) : I l.closeCache := by
  -- The attempts in flight have different chunks, so none ends another.
  have all : ∀ (ts : List Ticket) {l : Loader}, Whole asked l → I l →
      (ts.map (·.chunk)).Nodup → (∀ t ∈ ts, l.cache.honours t = true) →
      I (ts.foldl abortEntry l) := by
    intro ts
    induction ts with
    | nil => exact fun _ hI _ _ => hI
    | cons t rest ih =>
      intro l w hI hnodup hall
      rw [List.map_cons, List.nodup_cons] at hnodup
      have ht := hall t (List.mem_cons_self ..)
      have aborted : Change asked l (l.abortEntry t) := .aborted ht
      refine ih (aborted.whole w) (keeps l t w ht hI) hnodup.2 fun t' ht' => ?_
      obtain ⟨o, ready, hs⟩ := l.abortEntry_eq t
      obtain ⟨p, hp, hprom⟩ := Cache.honours_iff.mp (hall t' (List.mem_cons_of_mem _ ht'))
      have hne : t'.chunk ≠ t.chunk := fun e =>
        hnodup.1 (e ▸ List.mem_map_of_mem (f := Ticket.chunk) ht')
      rw [hs]
      refine Cache.honours_iff.mpr ⟨p, ?_, hprom⟩
      rw [Cache.find?_drop, if_neg hne]
      exact hp
  unfold closeCache
  refine all _ w hI w.single.nodup_inFlight fun t ht => ?_
  exact Cache.honours_of_ticketOf? (w.single.mem_inFlight.mp ht)

/-- Whatever is in flight is aborted. -/
theorem leads_closeCache (w : Whole asked l) : Leads asked l l.closeCache :=
  w.closeCache_keeps (I := Leads asked l) (fun _ _ _ ht h => h.tail (.aborted ht)) .refl

end Whole

end SingleFlight.Loader
