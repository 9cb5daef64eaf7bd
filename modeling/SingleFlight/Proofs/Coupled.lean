/-
SingleFlight.Proofs.Coupled — what couples the cache of a whole loader to its loads.

In a loader that fetches by itself, the entries in flight and the active loads
are two views of one thing: each attempt in flight has one load that carries it
out, and each active load carries one out. `Coupled` says so, also for the two
moments inside a request at which the sides differ: when the entry is made and
its load has not begun (`starting`), and when a load on a complete handle has
begun and is not concluded (`loose`).

§1 gives the invariant, §2 what single changes do to it, §3 requests.
`SingleFlight.Proofs.Coupling` goes on with whole pieces of work.
-/
import SingleFlight.Loader.Run
import SingleFlight.Proofs.Entries
import SingleFlight.Proofs.Loads

namespace SingleFlight.Loader

/-! ## §1 The invariant -/

/-- An active load carries out the attempt of a ticket. -/
def Carries (l : Loader) (a : AttemptId) (t : Ticket) : Prop :=
  a ∈ l.active ∧
    ∃ h, l.attempts.get? a = some { chunk := t.chunk, handle := h, done := .redeem t }

/-- A load carries out one attempt only. -/
theorem Carries.ticket_eq {l : Loader} {a : AttemptId} {t t' : Ticket} {h : HandleId}
    (hc : l.Carries a t')
    (ha : l.attempts.get? a = some { chunk := t.chunk, handle := h, done := .redeem t }) :
    t' = t := by
  obtain ⟨-, h', ha'⟩ := hc
  rw [ha] at ha'
  have hd : Done.redeem t = Done.redeem t' := congrArg Attempt.done (Option.some.inj ha')
  exact (Done.redeem.inj hd).symm

structure Coupled (l : Loader) (starting : Option Ticket) (loose : Option AttemptId) :
    Prop where
  orderly : Orderly l loose
  steady : l.sink.Steady
  wired : ∃ resolve, l.plan.wiring = .fetch resolve
  single : l.cache.Single
  carried : ∀ a ∈ l.active,
    ∃ t, l.Carries a t ∧ l.cache.ticketOf? t.chunk = some t ∧ starting ≠ some t
  carrier : ∀ chunk t, l.cache.ticketOf? chunk = some t → starting ≠ some t →
    ∃ a, l.Carries a t
  unique : ∀ a b t, l.Carries a t → l.Carries b t → a = b
  /-- Nobody has yet been answered with the promise of an attempt that is being started. -/
  fresh : ∀ t, starting = some t →
    l.cache.ticketOf? t.chunk = some t ∧ ∀ chunk, (chunk, t.promise) ∉ l.handed
  handed : ∀ chunk p, (chunk, p) ∈ l.handed → l.promises.isPending p = true →
    ∃ t, l.cache.ticketOf? chunk = some t ∧ t.promise = p
  bounded : ∀ chunk p, (chunk, p) ∈ l.handed → p < l.promises.table.size
  made : ∀ chunk t, l.cache.ticketOf? chunk = some t → t.promise < l.promises.table.size

namespace Coupled

variable {l l' : Loader} {starting : Option Ticket} {loose : Option AttemptId}

/-- The work of the event loop, of handles and of the log has no part in the coupling. -/
theorem congr (c : Coupled l starting loose) (hc : l'.cache = l.cache)
    (hp : l'.promises = l.promises) (hh : l'.handed = l.handed) (hat : l'.attempts = l.attempts)
    (hac : l'.active = l.active) (hw : l'.watchdogs = l.watchdogs) (hpl : l'.plan = l.plan)
    (hs : l'.sink = l.sink) : Coupled l' starting loose := by
  have carries : ∀ a t, l'.Carries a t ↔ l.Carries a t := by
    intro a t
    unfold Carries
    rw [hat, hac]
  refine
    { orderly := c.orderly.congr hat hac hw
      steady := by rw [hs]; exact c.steady
      wired := by rw [hpl]; exact c.wired
      single := by rw [hc]; exact c.single
      carried := ?_
      carrier := ?_
      unique := ?_
      fresh := by rw [hc, hh]; exact c.fresh
      handed := by rw [hc, hp, hh]; exact c.handed
      bounded := by rw [hp, hh]; exact c.bounded
      made := by rw [hc, hp]; exact c.made }
  · intro a ha
    rw [hac] at ha
    simp only [carries, hc]
    exact c.carried a ha
  · simp only [carries, hc]
    exact c.carrier
  · simp only [carries]
    exact c.unique

/-! ## §2 Single changes -/

theorem not_carries_starting {t : Ticket} (c : Coupled l (some t) loose) (a : AttemptId) :
    ¬ l.Carries a t := by
  intro ⟨hmem, h, ha⟩
  obtain ⟨t', hcar, -, hne⟩ := c.carried a hmem
  exact hne (congrArg some (hcar.ticket_eq ha).symm)

/-- Settling a promise keeps it from those that wait; entries stay as they are. -/
theorem settlePromise (c : Coupled l starting loose) (p : PromiseId) (o : Outcome) :
    Coupled (l.settlePromise p o) starting loose := by
  obtain ⟨ready, h⟩ := l.settlePromise_eq p o
  rw [h]
  refine
    { c with
      orderly := c.orderly.congr rfl rfl rfl
      handed := ?_
      bounded := by simp only [Promises.size_settle]; exact c.bounded
      made := by simp only [Promises.size_settle]; exact c.made }
  intro chunk q hq hpend
  rw [Promises.isPending_settle, Bool.and_eq_true] at hpend
  exact c.handed chunk q hq hpend.1

/-- When a load ends, the others carry out what they did before. -/
theorem carries_ended {a : AttemptId}
    (hat : l'.attempts = l.attempts.update a ({ · with settled := true }))
    (hac : l'.active = l.active.filter (· ≠ a)) (b : AttemptId) (t : Ticket) :
    l'.Carries b t ↔ l.Carries b t ∧ b ≠ a := by
  unfold Carries
  rw [hac, hat, List.mem_filter, Table.get?_update]
  by_cases hb : a = b
  · subst hb
    simp
  · have hb' : b ≠ a := fun e => hb e.symm
    simp [hb, hb']

/-- The load of an attempt in flight is the only one that carries it out. -/
theorem ticket_ne {a : AttemptId} {h : HandleId} {t : Ticket} (c : Coupled l starting loose)
    (ha : l.attempts.get? a = some { chunk := t.chunk, handle := h, done := .redeem t })
    (hw : starting = none ∧ loose = none ∨ starting = some t ∧ loose = some a) {b : AttemptId}
    {t' : Ticket} (hcar : l.Carries b t') (hba : b ≠ a) (hne : starting ≠ some t') : t' ≠ t := by
  rintro rfl
  rcases hw with ⟨-, hn⟩ | ⟨hs, -⟩
  · subst hn
    exact hba (c.unique b a t' hcar ⟨c.orderly.mem_active_of_unsettled ha rfl, h, ha⟩)
  · exact hne hs

/-- When the promise of an attempt is settled, the other pending ones have their entries still. -/
theorem handed_ended {t : Ticket} {o : Outcome} (c : Coupled l starting loose)
    (ht : l.cache.ticketOf? t.chunk = some t)
    (tickets : ∀ chunk, l'.cache.ticketOf? chunk =
      if chunk = t.chunk then none else l.cache.ticketOf? chunk)
    (hp : l'.promises = l.promises.settle t.promise o) (hh : l'.handed = l.handed)
    {chunk : ChunkId} {p : PromiseId} (hmem : (chunk, p) ∈ l'.handed)
    (hpend : l'.promises.isPending p = true) :
    ∃ t', l'.cache.ticketOf? chunk = some t' ∧ t'.promise = p := by
  rw [hh] at hmem
  rw [hp, Promises.isPending_settle, Bool.and_eq_true] at hpend
  obtain ⟨t', htick, hprom⟩ := c.handed chunk p hmem hpend.1
  refine ⟨t', ?_, hprom⟩
  rw [tickets, if_neg]
  · exact htick
  · intro e
    rw [e, ht] at htick
    cases htick
    simp [hprom] at hpend

/--
The load of an attempt ends and the cache learns of it. The load was active, or it is the loose
one of the attempt being started; either way nothing of the attempt is left on either side.
-/
theorem ended {a : AttemptId} {h : HandleId} {t : Ticket} {o : Outcome}
    (c : Coupled l starting loose)
    (ha : l.attempts.get? a = some { chunk := t.chunk, handle := h, done := .redeem t })
    (ht : l.cache.ticketOf? t.chunk = some t)
    (hw : starting = none ∧ loose = none ∨ starting = some t ∧ loose = some a)
    (tickets : ∀ chunk, l'.cache.ticketOf? chunk =
      if chunk = t.chunk then none else l.cache.ticketOf? chunk)
    (single : l'.cache.Single) (steady : l'.sink.Steady) (hpl : l'.plan = l.plan)
    (hp : l'.promises = l.promises.settle t.promise o) (hh : l'.handed = l.handed)
    (hat : l'.attempts = l.attempts.update a ({ · with settled := true }))
    (hac : l'.active = l.active.filter (· ≠ a))
    (hwd : l'.watchdogs = l.watchdogs.filter (·.attempt ≠ a)) : Coupled l' none none := by
  have hl : ∀ b, loose = some b → b = a := by
    intro b hb
    rcases hw with ⟨-, hn⟩ | ⟨-, hn⟩
    · rw [hn] at hb; cases hb
    · rw [hn] at hb; exact (Option.some.inj hb).symm
  have still : ∀ b t', l'.Carries b t' ↔ l.Carries b t' ∧ b ≠ a := carries_ended hat hac
  refine
    { orderly := c.orderly.conclude hl hat hac hwd
      steady
      wired := by rw [hpl]; exact c.wired
      single
      carried := ?_
      carrier := ?_
      unique := ?_
      fresh := by intro t' h'; cases h'
      handed := fun chunk p hmem hpend => c.handed_ended ht tickets hp hh hmem hpend
      bounded := by simp only [hp, hh, Promises.size_settle]; exact c.bounded
      made := ?_ }
  · intro b hb
    rw [hac, List.mem_filter] at hb
    have hba : b ≠ a := by simpa using hb.2
    obtain ⟨t', hcar, htick, hne⟩ := c.carried b hb.1
    have hchunk : t'.chunk ≠ t.chunk := by
      intro e
      rw [e, ht] at htick
      exact c.ticket_ne ha hw hcar hba hne (Option.some.inj htick).symm
    exact ⟨t', (still b t').mpr ⟨hcar, hba⟩, by rw [tickets, if_neg hchunk]; exact htick, by simp⟩
  · intro chunk t' htick _
    rw [tickets] at htick
    split at htick
    · cases htick
    · rename_i hchunk
      have hne : t' ≠ t := by
        intro e
        rw [← Cache.chunk_of_ticketOf? htick, e] at hchunk
        exact hchunk rfl
      have hst : starting ≠ some t' := by
        rcases hw with ⟨hs, -⟩ | ⟨hs, -⟩
        · simp [hs]
        · rw [hs]; exact fun e => hne (Option.some.inj e).symm
      obtain ⟨b, hcar⟩ := c.carrier chunk t' htick hst
      refine ⟨b, (still b t').mpr ⟨hcar, ?_⟩⟩
      rintro rfl
      exact hne (hcar.ticket_eq ha)
  · intro b b' t' hb hb'
    exact c.unique b b' t' ((still b t').mp hb).1 ((still b' t').mp hb').1
  · intro chunk t' htick
    rw [tickets] at htick
    split at htick
    · cases htick
    · rw [hp, Promises.size_settle]
      exact c.made chunk t' htick

/-- The end of a load, from its guard to the entry of its chunk. -/
theorem finish {a : AttemptId} {h : HandleId} {t : Ticket} (c : Coupled l starting loose)
    (ha : l.attempts.get? a = some { chunk := t.chunk, handle := h, done := .redeem t })
    (ht : l.cache.ticketOf? t.chunk = some t)
    (hw : starting = none ∧ loose = none ∨ starting = some t ∧ loose = some a) (e : LoadEvent) :
    ∃ l₁, l.conclude a { chunk := t.chunk, handle := h, done := .redeem t } e = (l₁, none) ∧
      Coupled (l₁.redeem t e) none none ∧
      (l₁.redeem t e).active = l.active.filter (· ≠ a) ∧
      (l₁.redeem t e).cache.ticketOf? t.chunk = none ∧
      (l₁.redeem t e).promises.isPending t.promise = false ∧
      (l₁.redeem t e).promises.table.size = l.promises.table.size := by
  obtain ⟨sink, log, steady, hcon⟩ :=
    conclude_eq c.steady a { chunk := t.chunk, handle := h, done := .redeem t } e
  refine ⟨_, hcon, ?_⟩
  rw [redeem_of_honours (by exact Cache.honours_of_ticketOf? ht)]
  obtain ⟨ready, log', hset⟩ := settleEntry_eq
    { l with
      attempts := l.attempts.update a ({ · with settled := true })
      handles := l.handles.update h (·.release)
      watchdogs := l.watchdogs.filter (·.attempt ≠ a)
      registry := l.registryAfter h e
      active := l.active.filter (· ≠ a)
      sink
      log } t e
  rw [hset]
  refine ⟨c.ended ha ht hw (fun _ => Cache.ticketOf?_ended ..) (c.single.ended ..) steady rfl rfl
    rfl rfl rfl rfl, rfl, ?_, ?_, ?_⟩
  · exact (Cache.ticketOf?_ended ..).trans (if_pos rfl)
  · rw [Promises.isPending_settle]
    simp
  · exact Promises.size_settle ..

/-- The start of an attempt failed before it had a load: its entry goes again. -/
theorem abandon {t : Ticket} (c : Coupled l (some t) none) : Coupled (l.abandon t) none none := by
  obtain ⟨ht, hnew⟩ := c.fresh t rfl
  have hab : l.abandon t = { l with cache := l.cache.drop t.chunk } := by
    simp [Loader.abandon, Cache.honours_of_ticketOf? ht]
  rw [hab]
  refine
    { orderly := c.orderly.congr rfl rfl rfl
      steady := c.steady
      wired := c.wired
      single := c.single.drop t.chunk
      carried := ?_
      carrier := ?_
      unique := c.unique
      fresh := by intro t' h'; cases h'
      handed := ?_
      bounded := c.bounded
      made := ?_ }
  · intro a ha
    obtain ⟨t', hcar, htick, hne⟩ := c.carried a ha
    refine ⟨t', hcar, ?_, by simp⟩
    rw [Cache.ticketOf?_drop, if_neg]
    · exact htick
    · intro e
      rw [e, ht] at htick
      exact hne htick
  · intro chunk t' htick _
    rw [Cache.ticketOf?_drop] at htick
    split at htick
    · cases htick
    · rename_i hchunk
      refine c.carrier chunk t' htick ?_
      intro e
      cases e
      exact hchunk (Cache.chunk_of_ticketOf? htick).symm
  · intro chunk p hmem hpend
    obtain ⟨t', htick, hprom⟩ := c.handed chunk p hmem hpend
    refine ⟨t', ?_, hprom⟩
    rw [Cache.ticketOf?_drop, if_neg]
    · exact htick
    · intro e
      rw [e, ht] at htick
      cases htick
      subst hprom
      exact hnew chunk hmem
  · intro chunk t' htick
    rw [Cache.ticketOf?_drop] at htick
    split at htick
    · cases htick
    · exact c.made chunk t' htick

/-- An attempt that was being started gets a load that waits. -/
theorem wait {t : Ticket} {h : HandleId} {due : Float} (c : Coupled l (some t) none)
    (hat : l'.attempts = l.attempts.add { chunk := t.chunk, handle := h, done := .redeem t })
    (hac : l'.active = l.active ++ [l.attempts.size])
    (hwd : l'.watchdogs = l.watchdogs ++ [⟨l.attempts.size, due⟩]) (steady : l'.sink.Steady)
    (hc : l'.cache = l.cache) (hp : l'.promises = l.promises) (hh : l'.handed = l.handed)
    (hpl : l'.plan = l.plan) : Coupled l' none none := by
  obtain ⟨ht, -⟩ := c.fresh t rfl
  have old : ∀ b t', l.Carries b t' → l'.Carries b t' := by
    intro b t' ⟨hb, h', hb'⟩
    refine ⟨by rw [hac]; exact List.mem_append_left _ hb, h', ?_⟩
    rw [hat]
    exact Table.get?_add_of_some hb' _
  have new : l'.Carries l.attempts.size t := by
    refine ⟨by rw [hac]; simp, h, ?_⟩
    rw [hat, Table.get?_add_size]
  have only : ∀ b t', l'.Carries b t' → l.Carries b t' ∨ b = l.attempts.size ∧ t' = t := by
    intro b t' hcar
    by_cases hb : b = l.attempts.size
    · subst hb
      refine .inr ⟨rfl, hcar.ticket_eq (h := h) ?_⟩
      rw [hat, Table.get?_add_size]
    · obtain ⟨hmem, h', hb'⟩ := hcar
      rw [hac, List.mem_append, List.mem_singleton, or_iff_left hb] at hmem
      rw [hat, Table.get?_add, if_neg hb] at hb'
      exact .inl ⟨hmem, h', hb'⟩
  refine
    { orderly := c.orderly.wait rfl hat hac hwd
      steady
      wired := by rw [hpl]; exact c.wired
      single := by rw [hc]; exact c.single
      carried := ?_
      carrier := ?_
      unique := ?_
      fresh := by intro t' h'; cases h'
      handed := by rw [hc, hp, hh]; exact c.handed
      bounded := by rw [hp, hh]; exact c.bounded
      made := by rw [hc, hp]; exact c.made }
  · intro b hb
    rw [hac, List.mem_append, List.mem_singleton] at hb
    rcases hb with hb | rfl
    · obtain ⟨t', hcar, htick, -⟩ := c.carried b hb
      exact ⟨t', old b t' hcar, by rw [hc]; exact htick, by simp⟩
    · exact ⟨t, new, by rw [hc]; exact ht, by simp⟩
  · intro chunk t' htick _
    rw [hc] at htick
    by_cases htt : t' = t
    · exact ⟨l.attempts.size, htt ▸ new⟩
    · obtain ⟨b, hcar⟩ := c.carrier chunk t' htick (fun e => htt (Option.some.inj e).symm)
      exact ⟨b, old b t' hcar⟩
  · intro b b' t' hb hb'
    rcases only b t' hb with hb | ⟨rfl, rfl⟩
    · rcases only b' t' hb' with hb' | ⟨rfl, rfl⟩
      · exact c.unique b b' t' hb hb'
      · exact absurd hb (c.not_carries_starting b)
    · rcases only b' t' hb' with hb' | ⟨rfl, -⟩
      · exact absurd hb' (c.not_carries_starting b')
      · rfl

/-- An attempt that is being started gets a load on a complete handle. -/
theorem hold {t : Ticket} {h : HandleId} (c : Coupled l (some t) none)
    (hat : l'.attempts = l.attempts.add { chunk := t.chunk, handle := h, done := .redeem t })
    (hac : l'.active = l.active) (hwd : l'.watchdogs = l.watchdogs) (steady : l'.sink.Steady)
    (hc : l'.cache = l.cache) (hp : l'.promises = l.promises) (hh : l'.handed = l.handed)
    (hpl : l'.plan = l.plan) : Coupled l' (some t) (some l.attempts.size) := by
  have same : ∀ b t', l'.Carries b t' ↔ l.Carries b t' := by
    intro b t'
    unfold Carries
    rw [hac]
    refine and_congr_right fun hb => ?_
    obtain ⟨-, x, hx, -⟩ := (c.orderly.active_iff b).mp hb
    rw [hat, Table.get?_add, if_neg (Table.ne_size_of_get? hx)]
  refine
    { orderly := c.orderly.hold hat hac hwd
      steady
      wired := by rw [hpl]; exact c.wired
      single := by rw [hc]; exact c.single
      carried := ?_
      carrier := ?_
      unique := ?_
      fresh := by rw [hc, hh]; exact c.fresh
      handed := by rw [hc, hp, hh]; exact c.handed
      bounded := by rw [hp, hh]; exact c.bounded
      made := by rw [hc, hp]; exact c.made }
  · intro b hb
    rw [hac] at hb
    simp only [same, hc]
    exact c.carried b hb
  · simp only [same, hc]
    exact c.carrier
  · simp only [same]
    exact c.unique

/-! ## §3 Requests -/

/-- A promise may be handed out for a chunk: while it waits, the chunk's attempt has it. -/
def Owed (l : Loader) (chunk : ChunkId) (p : PromiseId) : Prop :=
  p < l.promises.table.size ∧
    (l.promises.isPending p = true → ∃ t, l.cache.ticketOf? chunk = some t ∧ t.promise = p)

theorem hand {chunk : ChunkId} {p : PromiseId} (c : Coupled l none none) (ho : Owed l chunk p) :
    Coupled (l.hand chunk p) none none := by
  refine
    { c with
      orderly := c.orderly.congr rfl rfl rfl
      fresh := by intro t h; cases h
      handed := ?_
      bounded := ?_ }
  · intro k q hmem hpend
    rcases List.mem_append.mp hmem with hmem | hmem
    · exact c.handed k q hmem hpend
    · cases List.mem_singleton.mp hmem
      exact ho.2 hpend
  · intro k q hmem
    rcases List.mem_append.mp hmem with hmem | hmem
    · exact c.bounded k q hmem
    · cases List.mem_singleton.mp hmem
      exact ho.1

theorem mark {chunk : ChunkId} {e : Entry} (c : Coupled l none none) (he : e.state ≠ .inFlight) :
    Coupled (l.mark chunk e) none none := by
  refine
    { c with
      orderly := c.orderly.congr rfl rfl rfl
      single := c.single.mark chunk e
      carried := ?_
      carrier := ?_
      fresh := by intro t h; cases h
      handed := ?_
      made := ?_ }
  all_goals simp only [Loader.mark, Cache.ticketOf?_mark _ _ _ he]
  · exact c.carried
  · exact c.carrier
  · exact c.handed
  · exact c.made

/-- A new promise is none of those that were handed out. -/
theorem isPending_create_of_handed (c : Coupled l starting loose) {chunk : ChunkId}
    {p : PromiseId} (hmem : (chunk, p) ∈ l.handed) :
    l.promises.create.1.isPending p = l.promises.isPending p := by
  rw [Promises.isPending_create, decide_eq_false (Nat.ne_of_lt (c.bounded chunk p hmem)),
    Bool.false_or]

/-- An unknown chunk gets an entry in flight, whose attempt has no load yet. -/
theorem begin {chunk : ChunkId} {sink : Metrics.Sink} {log : List LogRecord}
    (c : Coupled l none none) (hf : l.cache.find? chunk = none) (steady : sink.Steady) :
    Coupled
      { l with
        cache := ({ l.cache with used := true }.begin chunk l.promises.create.2).1
        promises := l.promises.create.1
        sink
        log } (some ⟨chunk, l.promises.create.2, l.cache.attemptsAt chunk + 1⟩) none := by
  have hnone : l.cache.ticketOf? chunk = none := by simp [Cache.ticketOf?, hf]
  have tickets : ∀ k,
      ({ l.cache with used := true }.begin chunk l.promises.create.2).1.ticketOf? k =
        if k = chunk then some ⟨chunk, l.promises.create.2, l.cache.attemptsAt chunk + 1⟩
        else l.cache.ticketOf? k := fun k => Cache.ticketOf?_begin _ chunk k _
  have other : ∀ k t, l.cache.ticketOf? k = some t → k ≠ chunk := by
    rintro k t ht rfl
    rw [hnone] at ht
    cases ht
  refine
    { orderly := c.orderly.congr rfl rfl rfl
      steady
      wired := c.wired
      single := c.single.begin chunk _
      carried := ?_
      carrier := ?_
      unique := c.unique
      fresh := ?_
      handed := ?_
      bounded := ?_
      made := ?_ }
  · intro a ha
    obtain ⟨t, hcar, htick, -⟩ := c.carried a ha
    refine ⟨t, hcar, ?_, ?_⟩
    · rw [tickets, if_neg (other _ _ htick)]
      exact htick
    · intro e
      have hlt := c.made _ _ htick
      rw [← Option.some.inj e] at hlt
      exact Nat.lt_irrefl _ hlt
  · intro k t htick hne
    rw [tickets] at htick
    split at htick
    · exact absurd htick hne
    · exact c.carrier k t htick (by simp)
  · rintro t h
    cases h
    refine ⟨by rw [tickets, if_pos rfl], fun k hmem => ?_⟩
    exact Nat.lt_irrefl _ (c.bounded k _ hmem)
  · intro k p hmem hpend
    rw [c.isPending_create_of_handed hmem] at hpend
    obtain ⟨t, htick, hprom⟩ := c.handed k p hmem hpend
    exact ⟨t, by rw [tickets, if_neg (other _ _ htick)]; exact htick, hprom⟩
  · intro k p hmem
    rw [Promises.size_create]
    exact Nat.lt_succ_of_lt (c.bounded k p hmem)
  · intro k t htick
    rw [Promises.size_create]
    rw [tickets] at htick
    split at htick
    · cases htick
      exact Nat.lt_succ_self _
    · exact Nat.lt_succ_of_lt (c.made k t htick)

/--
A request is answered at once, or it makes the ticket of an attempt that is to be started.
-/
theorem serve (c : Coupled l none none) (chunk : ChunkId) :
    (∃ l' p, l.serve chunk = (l', .ok (p, none)) ∧ Coupled l' none none ∧ Owed l' chunk p) ∨
      ∃ l' t, l.serve chunk = (l', .ok (t.promise, some t)) ∧ t.chunk = chunk ∧
        Coupled l' (some t) none := by
  cases hf : l.cache.find? chunk with
  | none =>
    obtain ⟨sink, log, steady, hs⟩ := serve_of_unknown c.steady hf
    exact .inr ⟨_, _, hs, rfl, c.begin hf steady⟩
  | some e =>
    by_cases he : e.state = .inFlight
    · cases e with
      | skipped => cases he
      | loaded => cases he
      | inFlight p =>
        obtain ⟨sink, steady, hs⟩ := serve_of_inFlight c.steady hf
        have tickets : ∀ k, ({ l.cache with used := true }.join chunk p).ticketOf? k =
            l.cache.ticketOf? k := fun k => Cache.ticketOf?_join _ chunk k hf
        have ht : l.cache.ticketOf? chunk = some ⟨chunk, p.promise, p.attempt⟩ :=
          Cache.ticketOf?_eq_some.mpr ⟨p, hf, rfl⟩
        refine .inl ⟨_, _, hs, ?_, c.made chunk _ ht, fun _ => ⟨⟨chunk, p.promise, p.attempt⟩, ?_, rfl⟩⟩
        · refine
            { c with
              orderly := c.orderly.congr rfl rfl rfl
              steady
              single := c.single.join chunk p
              carried := ?_
              carrier := ?_
              fresh := by intro t h; cases h
              handed := ?_
              made := ?_ }
          all_goals simp only [tickets]
          · exact c.carried
          · exact c.carrier
          · exact c.handed
          · exact c.made
        · rw [tickets]; exact ht
    · obtain ⟨sink, ready, steady, hs⟩ := serve_of_final c.steady hf he
      have size : (l.promises.create.1.settle l.promises.create.2 .ok).table.size =
          l.promises.table.size + 1 := by simp
      refine .inl ⟨_, _, hs, ?_, ?_, ?_⟩
      · refine
          { c with
            orderly := c.orderly.congr rfl rfl rfl
            steady
            fresh := by intro t h; cases h
            handed := ?_
            bounded := fun k p hmem => by rw [size]; exact Nat.lt_succ_of_lt (c.bounded k p hmem)
            made := fun k t ht => by rw [size]; exact Nat.lt_succ_of_lt (c.made k t ht) }
        intro k p hmem hpend
        rw [Promises.isPending_settle, c.isPending_create_of_handed hmem, Bool.and_eq_true] at hpend
        exact c.handed k p hmem hpend.1
      · rw [size]
        exact Nat.lt_succ_self _
      · intro hpend
        simp [Promises.isPending_settle] at hpend

end Coupled

end SingleFlight.Loader
