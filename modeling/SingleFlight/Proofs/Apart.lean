/-
SingleFlight.Proofs.Apart — chunks that keep out of each other's way.

Where no two chunks have one address, and handles come into the document only
through loads, every handle belongs to one chunk. A registered one is waited for
by the load of its chunk, or the chunk is loaded; so a load never finds a handle
to adopt, and a signal ends the load of one chunk and of no other.

* `Loader.Apart` — this property of a loader that is coupled.
* `Coupled.flight_of_ticket`, `Coupled.flight_of_active`, `Apart.flight_eq` — an
  attempt in flight has one load on one handle, and no other load.
* `Flight.settleLoad`, `Loader.Ended` — how such an attempt ends, and
  `Ended.apart`, `Ended.facet_self`, `Ended.facet_other` — what that does to the
  chunk and to the others.
-/
import SingleFlight.Proofs.Coupling
import SingleFlight.Proofs.Facets

namespace SingleFlight

/-! ## §1 Whose handle it is -/

/-- A handle that was made for a chunk. -/
structure Terms.Made (terms : Terms) (k : ChunkId) (x : Handle) : Prop where
  kind : k.isName = terms.named
  url : terms.resolve k = .ok x.url
  tag : x.tag = some (terms.policy.tagFor k)

namespace Terms.Made

variable {terms : Terms} {k k' : ChunkId} {x y : Handle}

/-- A handle is made for one chunk only. -/
theorem eq (m : terms.Made k x) (m' : terms.Made k' x) : k = k' :=
  terms.apart k k' x.url m.kind m'.kind m.url m'.url

theorem eq_of_url {url : String} (m : terms.Made k x) (hk : k'.isName = terms.named)
    (hr : terms.resolve k' = .ok url) (hurl : x.url = url) : k = k' :=
  terms.apart k k' x.url m.kind hk m.url (hurl ▸ hr)

theorem eq_of_tag (m : terms.Made k x) (hk : k'.isName = terms.named)
    (htag : x.tag = some (terms.policy.tagFor k')) : k = k' :=
  terms.policy.tagFor_inj (m.kind.trans hk.symm) (Option.some.inj (m.tag.symm.trans htag))

/-- Whatever else becomes of a handle, it keeps its address and its tag. -/
theorem congr (m : terms.Made k x) (hurl : y.url = x.url) (htag : y.tag = x.tag) :
    terms.Made k y where
  kind := m.kind
  url := by rw [hurl]; exact m.url
  tag := by rw [htag]; exact m.tag

end Terms.Made

namespace Loader

/-- An active load waits for the handle. -/
def Manned (l : Loader) (h : HandleId) : Prop :=
  ∃ a ∈ l.active, ∃ x, l.attempts.get? a = some x ∧ x.handle = h

/-- Chunks share a loader and none of their handles, loads and promises. -/
structure Apart (terms : Terms) (l : Loader) : Prop where
  coupled : Coupled l none none
  plan : l.plan = terms.plan
  kind : ∀ k t, l.cache.ticketOf? k = some t → k.isName = terms.named
  distinct : ∀ k k' t t', l.cache.ticketOf? k = some t → l.cache.ticketOf? k' = some t' →
    t.promise = t'.promise → k = k'
  document : ∃ hs n, l.registry = .document hs n
  tidy : l.registry.Tidy l.handles
  made : ∀ h x, l.handles.get? h = some x → ∃ k, terms.Made k x
  /-- An active load waits for a registered handle of its own chunk, and is alone there. -/
  alone : ∀ a x, a ∈ l.active → l.attempts.get? a = some x →
    ∃ handle, l.Holds x.handle handle ∧ terms.Made x.chunk handle ∧
      handle.onLoad = { waiting := [a] } ∧ handle.onError = { waiting := [a] }
  /-- A handle that no load waits for has nobody to tell anything. -/
  idle : ∀ h x, l.handles.get? h = some x → ¬l.Manned h → x.onLoad = {} ∧ x.onError = {}
  /-- A handle stays registered only for a chunk that is loaded or in flight. -/
  kept : ∀ h x k, l.Holds h x → terms.Made k x →
    l.cache.find? k = some .loaded ∨ l.Manned h

/-- An attempt in flight, with its load and the handle that the load waits for. -/
structure Flight (l : Loader) (t : Ticket) (a : AttemptId) (h : HandleId) : Prop where
  ticket : l.cache.ticketOf? t.chunk = some t
  active : a ∈ l.active
  load : l.attempts.get? a = some { chunk := t.chunk, handle := h, done := .redeem t }

namespace Coupled

variable {l : Loader} {t : Ticket} {a : AttemptId} {k : ChunkId}

theorem flight_of_ticket (c : Coupled l none none) (ht : l.cache.ticketOf? k = some t) :
    ∃ a h, l.Flight t a h := by
  have hk := Cache.chunk_of_ticketOf? ht
  subst hk
  obtain ⟨a, ha, h, hx⟩ := c.carrier t.chunk t ht (by simp)
  exact ⟨a, h, ht, ha, hx⟩

theorem flight_of_active (c : Coupled l none none) (ha : a ∈ l.active) :
    ∃ t h, l.Flight t a h := by
  obtain ⟨t, ⟨-, h, hx⟩, ht, -⟩ := c.carried a ha
  exact ⟨t, h, ht, ha, hx⟩

/-- A load that is not active has its outcome, and a signal does not reach it. -/
theorem settleLoad_of_inactive (c : Coupled l none none) (ha : a ∉ l.active) (e : LoadEvent) :
    l.settleLoad a e = (l, .through) := by
  cases hx : l.attempts.get? a with
  | none => simp [Loader.settleLoad, Loader.signal, hx]
  | some x =>
    cases hs : x.settled with
    | true => simp [Loader.settleLoad, Loader.signal, hx, hs]
    | false => exact absurd (c.orderly.mem_active_of_unsettled hx hs) ha

end Coupled

namespace Apart

variable {terms : Terms} {l l' : Loader} {t t' : Ticket} {a a' : AttemptId} {h h' : HandleId}
  {k : ChunkId} {x : Handle}

/-- A chunk has one attempt in flight, and that has one load. -/
theorem flight_eq (s : Apart terms l) (f : l.Flight t a h) (f' : l.Flight t' a' h')
    (hk : t.chunk = t'.chunk) : t = t' ∧ a = a' ∧ h = h' := by
  have ht := f.ticket
  rw [hk, f'.ticket] at ht
  cases ht
  have ha : a = a' := s.coupled.unique a a' _ ⟨f.active, h, f.load⟩ ⟨f'.active, h', f'.load⟩
  subst ha
  have hx := f.load.symm.trans f'.load
  exact ⟨rfl, rfl, congrArg Attempt.handle (Option.some.inj hx)⟩

/-- The handle of an attempt in flight. -/
theorem handle_of_flight (s : Apart terms l) (f : l.Flight t a h) :
    ∃ x, l.Holds h x ∧ terms.Made t.chunk x ∧
      x.onLoad = { waiting := [a] } ∧ x.onError = { waiting := [a] } :=
  s.alone a _ f.active f.load

theorem flight_of_manned (s : Apart terms l) (hm : l.Manned h) : ∃ t a, l.Flight t a h := by
  obtain ⟨a, ha, x, hx, rfl⟩ := hm
  obtain ⟨t, h, f⟩ := s.coupled.flight_of_active ha
  have hxt := hx.symm.trans f.load
  cases hxt
  exact ⟨t, a, f⟩

theorem kind_of_flight (s : Apart terms l) (f : l.Flight t a h) : t.chunk.isName = terms.named :=
  s.kind t.chunk t f.ticket

/-- The handle of an attempt has the tag of its chunk, and of no other. -/
theorem chunk_eq_of_manned (s : Apart terms l) (f : l.Flight t a h)
    (hx : l.handles.get? h = some x) (hm : terms.Made k x) : t.chunk = k := by
  obtain ⟨y, ⟨-, hy⟩, made, -⟩ := s.handle_of_flight f
  rw [hx] at hy
  cases hy
  exact made.eq hm

/-- Of a chunk that is neither loaded nor in flight no handle is registered. -/
theorem not_registered (s : Apart terms l) (hl : l.cache.find? k ≠ some .loaded)
    (hf : l.cache.ticketOf? k = none) (hx : l.handles.get? h = some x) (hm : terms.Made k x) :
    h ∉ l.registry.handles := by
  intro hmem
  rcases s.kept h x k ⟨hmem, hx⟩ hm with hloaded | hmanned
  · exact hl hloaded
  · obtain ⟨t, a, f⟩ := s.flight_of_manned hmanned
    have ht := f.ticket
    rw [s.chunk_eq_of_manned f hx hm, hf] at ht
    cases ht

/-- Handles, loads and the chunks in flight are as they were. -/
theorem congr (s : Apart terms l) (c : Coupled l' none none) (hpl : l'.plan = l.plan)
    (hh : l'.handles = l.handles) (hr : l'.registry = l.registry)
    (hat : l'.attempts = l.attempts) (hac : ∀ a, a ∈ l'.active ↔ a ∈ l.active)
    (tickets : ∀ k, l'.cache.ticketOf? k = l.cache.ticketOf? k)
    (loaded : ∀ k, l.cache.find? k = some .loaded → l'.cache.find? k = some .loaded) :
    Apart terms l' := by
  have manned : ∀ h, l'.Manned h ↔ l.Manned h := by
    intro h
    unfold Manned
    rw [hat]
    simp only [hac]
  refine
    { coupled := c
      plan := hpl.trans s.plan
      kind := by simp only [tickets]; exact s.kind
      distinct := by simp only [tickets]; exact s.distinct
      document := by rw [hr]; exact s.document
      tidy := by rw [hr, hh]; exact s.tidy
      made := by rw [hh]; exact s.made
      alone := ?_
      idle := by simp only [manned, hh]; exact s.idle
      kept := ?_ }
  · unfold Holds
    rw [hat, hh, hr]
    simp only [hac]
    exact s.alone
  · unfold Holds
    rw [hh, hr]
    simp only [manned]
    exact fun h x k hx hm => (s.kept h x k hx hm).imp_left (loaded k)

end Apart

/-! ## §2 The end of an attempt -/

/-- What the end of an attempt in flight changes. -/
structure Ended (l : Loader) (t : Ticket) (a : AttemptId) (h : HandleId) (e : LoadEvent)
    (l' : Loader) : Prop where
  plan : l'.plan = l.plan
  cache : l'.cache = if e.isLoad then l.cache.finish t.chunk else l.cache.drop t.chunk
  promises : l'.promises = l.promises.settle t.promise (l.outcomeOf t.chunk e)
  handed : l'.handed = l.handed
  handles : l'.handles = l.handles.update h (·.release)
  registry : l'.registry = l.registryAfter h e
  attempts : l'.attempts = l.attempts.update a ({ · with settled := true })
  active : l'.active = l.active.filter (· ≠ a)
  watchdogs : l'.watchdogs = l.watchdogs.filter (·.attempt ≠ a)
  fetches : l'.fetches = l.fetches
  now : l'.now = l.now
  closed : l'.closed = l.closed

/-- A signal to the load of an attempt in flight ends the attempt. -/
theorem Flight.settleLoad {l : Loader} {t : Ticket} {a : AttemptId} {h : HandleId}
    (f : l.Flight t a h) (c : Coupled l none none) (e : LoadEvent) :
    ∃ l', l.settleLoad a e = (l', .through) ∧ Coupled l' none none ∧ l.Ended t a h e l' := by
  obtain ⟨sink, log, -, hcon⟩ :=
    conclude_eq c.steady a { chunk := t.chunk, handle := h, done := .redeem t } e
  obtain ⟨l₁, h₁⟩ : ∃ l₁ : Loader, l₁ =
    { l with
      attempts := l.attempts.update a ({ · with settled := true })
      handles := l.handles.update h (·.release)
      watchdogs := l.watchdogs.filter (·.attempt ≠ a)
      registry := l.registryAfter h e
      active := l.active.filter (· ≠ a)
      sink
      log } := ⟨_, rfl⟩
  have cache : l₁.cache = l.cache := by rw [h₁]
  have honoured : l₁.cache.honours t = true := by
    rw [cache]
    exact Cache.honours_of_ticketOf? f.ticket
  obtain ⟨ready, log', hset⟩ := l₁.settleEntry_eq t e
  obtain ⟨l', hl', c', -⟩ := c.settleLoad a e
  refine ⟨l', hl', c', ?_⟩
  have redeemed : l₁.redeem t e = l' := by
    dsimp only at hcon
    rw [← h₁] at hcon
    simpa [Loader.settleLoad, signal, f.load, hcon] using hl'
  rw [redeem_of_honours honoured, hset] at redeemed
  subst h₁ redeemed
  exact ⟨rfl, rfl, rfl, rfl, rfl, rfl, rfl, rfl, rfl, rfl, rfl, rfl⟩

/-- After that load the signal goes on to the others that it was meant for. -/
theorem Flight.signal_cons {l l' : Loader} {t : Ticket} {a : AttemptId} {h : HandleId}
    {e : LoadEvent} (f : l.Flight t a h) (c : Coupled l none none)
    (hl : l.settleLoad a e = (l', .through)) (foreign : Option CallbackId)
    (rest : List AttemptId) : signal e foreign (a :: rest) l = signal e foreign rest l' := by
  obtain ⟨sink, log, -, hcon⟩ :=
    conclude_eq c.steady a { chunk := t.chunk, handle := h, done := .redeem t } e
  simp only [Loader.settleLoad, signal, f.load, hcon, Bool.false_eq_true, if_false,
    Prod.mk.injEq, and_true] at hl ⊢
  rw [hl]

namespace Ended

variable {terms : Terms} {l l' : Loader} {t : Ticket} {a : AttemptId} {h : HandleId}
  {e : LoadEvent} {k : ChunkId}

theorem tickets (n : l.Ended t a h e l') (k : ChunkId) :
    l'.cache.ticketOf? k = if k = t.chunk then none else l.cache.ticketOf? k := by
  rw [n.cache]
  exact Cache.ticketOf?_ended ..

theorem find? (n : l.Ended t a h e l') (k : ChunkId) :
    l'.cache.find? k =
      if k = t.chunk then (if e.isLoad then some .loaded else none) else l.cache.find? k := by
  rw [n.cache]
  exact Cache.find?_ended ..

/-- The other loads are as they were. -/
theorem manned (n : l.Ended t a h e l') (s : Apart terms l) (f : l.Flight t a h) (h' : HandleId) :
    l'.Manned h' ↔ l.Manned h' ∧ h' ≠ h := by
  unfold Manned
  rw [n.active, n.attempts]
  constructor
  · rintro ⟨b, hb, x, hx, rfl⟩
    obtain ⟨hb, hba⟩ := List.mem_filter.mp hb
    have hab : ¬a = b := fun e => by simp [e] at hba
    rw [Table.get?_update, if_neg hab] at hx
    refine ⟨⟨b, hb, x, hx, rfl⟩, fun heq => hab ?_⟩
    -- Each of the two is alone with its handle.
    obtain ⟨y, ⟨-, hy⟩, -, hload, -⟩ := s.alone b x hb hx
    obtain ⟨z, ⟨-, hz⟩, -, hload', -⟩ := s.handle_of_flight f
    rw [heq, hz] at hy
    cases hy
    rw [hload] at hload'
    cases hload'
    rfl
  · rintro ⟨⟨b, hb, x, hx, rfl⟩, hne⟩
    have hab : ¬a = b := by
      rintro rfl
      rw [f.load] at hx
      cases hx
      exact hne rfl
    refine ⟨b, List.mem_filter.mpr ⟨hb, ?_⟩, x, by rw [Table.get?_update, if_neg hab]; exact hx, rfl⟩
    simpa using fun e => hab e.symm

/-- A handle that is registered still was registered before. -/
theorem mem_of_mem (n : l.Ended t a h e l') {h' : HandleId} (hm : h' ∈ l'.registry.handles) :
    h' ∈ l.registry.handles := by
  rw [n.registry] at hm
  exact mem_of_mem_registryAfter hm

theorem mem_iff_of_ne (n : l.Ended t a h e l') (s : Apart terms l) {h' : HandleId} (hne : h' ≠ h) :
    h' ∈ l'.registry.handles ↔ h' ∈ l.registry.handles := by
  refine ⟨n.mem_of_mem, fun hm => ?_⟩
  rw [n.registry]
  exact l.registryAfter_keeps s.tidy e hm hne

theorem get?_of_ne (n : l.Ended t a h e l') {h' : HandleId} (hne : h' ≠ h) :
    l'.handles.get? h' = l.handles.get? h' := by
  have hne' : ¬h = h' := fun e => hne e.symm
  rw [n.handles, Table.get?_update, if_neg hne']

/-- Handles keep their address and their tag. -/
theorem exists_get? (n : l.Ended t a h e l') {h' : HandleId} {x' : Handle}
    (hx' : l'.handles.get? h' = some x') :
    ∃ x, l.handles.get? h' = some x ∧ x'.url = x.url ∧ x'.tag = x.tag := by
  rw [n.handles, Table.get?_update] at hx'
  split at hx'
  · obtain ⟨x, hx, rfl⟩ := Option.map_eq_some_iff.mp hx'
    exact ⟨x, hx, rfl, rfl⟩
  · exact ⟨x', hx', rfl, rfl⟩

/-- The other loads still wait for their handles. -/
theorem alone (n : l.Ended t a h e l') (s : Apart terms l) (f : l.Flight t a h) {b : AttemptId}
    {y : Attempt} (hb : b ∈ l'.active) (hy : l'.attempts.get? b = some y) :
    ∃ handle, l'.Holds y.handle handle ∧ terms.Made y.chunk handle ∧
      handle.onLoad = { waiting := [b] } ∧ handle.onError = { waiting := [b] } := by
  have hne : y.handle ≠ h := ((n.manned s f y.handle).mp ⟨b, hb, y, hy, rfl⟩).2
  rw [n.active, List.mem_filter] at hb
  have hab : ¬a = b := fun e => by simp [e] at hb
  rw [n.attempts, Table.get?_update, if_neg hab] at hy
  obtain ⟨x, ⟨hmem, hx⟩, made, slots⟩ := s.alone b y hb.1 hy
  exact ⟨x, ⟨(n.mem_iff_of_ne s hne).mpr hmem, by rw [n.get?_of_ne hne]; exact hx⟩, made, slots⟩

/-- The handle stays registered if its chunk is loaded now; nothing changes for the others. -/
theorem kept (n : l.Ended t a h e l') (s : Apart terms l) (f : l.Flight t a h) {h' : HandleId}
    {x : Handle} (hx : l'.Holds h' x) (made : terms.Made k x) :
    l'.cache.find? k = some .loaded ∨ l'.Manned h' := by
  obtain ⟨hmem, hget⟩ := hx
  by_cases hne : h' = h
  · subst hne
    obtain ⟨x₀, ⟨-, hx₀⟩, made₀, -⟩ := s.handle_of_flight f
    rw [n.handles, Table.get?_update, if_pos rfl, hx₀] at hget
    cases hget
    have hk : t.chunk = k := made₀.eq (made.congr rfl rfl)
    cases he : e.isLoad with
    | true => exact .inl (by rw [n.find?, if_pos hk.symm, he]; rfl)
    | false =>
      rw [n.registry] at hmem
      exact absurd hmem ((l.tidy_registryAfter s.tidy hx₀ e).2 he)
  · rw [n.get?_of_ne hne] at hget
    rcases s.kept h' x k ⟨(n.mem_iff_of_ne s hne).mp hmem, hget⟩ made with hl | hm
    · refine .inl ?_
      rw [n.find?, if_neg]
      · exact hl
      · rintro rfl
        obtain ⟨p, hp, -⟩ := Cache.ticketOf?_eq_some.mp f.ticket
        rw [hl] at hp
        cases hp
    · exact .inr ((n.manned s f h').mpr ⟨hm, hne⟩)

/-- An attempt that is in flight still was so before. -/
theorem ticket_of_ticket (n : l.Ended t a h e l') {t' : Ticket}
    (ht : l'.cache.ticketOf? k = some t') : l.cache.ticketOf? k = some t' := by
  rw [n.tickets] at ht
  split at ht
  · cases ht
  · exact ht

theorem apart (n : l.Ended t a h e l') (s : Apart terms l) (f : l.Flight t a h)
    (c : Coupled l' none none) : Apart terms l' where
  coupled := c
  plan := n.plan.trans s.plan
  kind := fun k t' ht => s.kind k t' (n.ticket_of_ticket ht)
  distinct := fun k k' t₁ t₂ h₁ h₂ =>
    s.distinct k k' t₁ t₂ (n.ticket_of_ticket h₁) (n.ticket_of_ticket h₂)
  document := by
    obtain ⟨hs, m, hr⟩ := s.document
    obtain ⟨x₀, ⟨-, hx₀⟩, -⟩ := s.handle_of_flight f
    rw [n.registry, registryAfter]
    split
    · exact ⟨hs, m, hr⟩
    · simp only [remove, hx₀, hr]
      exact ⟨_, _, rfl⟩
  tidy := by
    obtain ⟨x₀, ⟨-, hx₀⟩, -⟩ := s.handle_of_flight f
    rw [n.registry, n.handles]
    exact (l.tidy_registryAfter s.tidy hx₀ e).1.update h fun _ => rfl
  made := by
    intro h' x' hx'
    obtain ⟨x, hx, hurl, htag⟩ := n.exists_get? hx'
    obtain ⟨k, hk⟩ := s.made h' x hx
    exact ⟨k, hk.congr hurl htag⟩
  alone := fun _ _ => n.alone s f
  idle := by
    intro h' x' hx' hm
    by_cases hne : h' = h
    · subst hne
      obtain ⟨x₀, ⟨-, hx₀⟩, -⟩ := s.handle_of_flight f
      rw [n.handles, Table.get?_update, if_pos rfl, hx₀] at hx'
      cases hx'
      exact ⟨rfl, rfl⟩
    · rw [n.get?_of_ne hne] at hx'
      exact s.idle h' x' hx' fun hm' => hm ((n.manned s f h').mpr ⟨hm', hne⟩)
  kept := fun _ _ _ => n.kept s f

end Ended

/-! ## §3 Promises -/

namespace Coupled

variable {l l' : Loader} {k : ChunkId} {t : Ticket} {p : PromiseId} {o : Outcome}

/-- A promise settles that none of a chunk's requests waits for. -/
theorem futuresOf_settle_of_ne (c : Coupled l none none)
    (hne : ∀ t, l.cache.ticketOf? k = some t → t.promise ≠ p)
    (hp : l'.promises = l.promises.settle p o) (hh : l'.handed = l.handed) :
    l'.futuresOf k = l.futuresOf k := by
  have answers : l'.answersTo k = l.answersTo k := by
    unfold answersTo
    rw [hh]
  unfold futuresOf
  rw [answers]
  refine List.map_congr_left fun q hq => ?_
  rw [hp]
  by_cases hqp : q = p
  · subst hqp
    have hpend : l.promises.isPending q = false := by
      rw [← Bool.not_eq_true]
      intro hpend
      obtain ⟨t, ht, hprom⟩ := c.handed k q (mem_answersTo.mp hq) hpend
      exact hne t ht hprom
    simp [Promises.settle, hpend]
  · exact Promises.outcome?_settle_of_ne l.promises p q o hqp

/-- The promise settles that all requests for a chunk wait for, if they wait. -/
theorem futuresOf_settle (c : Coupled l none none) (ht : l.cache.ticketOf? k = some t)
    (hp : l'.promises = l.promises.settle t.promise o) (hh : l'.handed = l.handed) :
    l'.futuresOf k = (l.futuresOf k).map (Promise.settle · o) := by
  have answers : l'.answersTo k = l.answersTo k := by
    unfold answersTo
    rw [hh]
  unfold futuresOf
  rw [answers, List.map_map]
  refine List.map_congr_left fun q hq => ?_
  have hm := mem_answersTo.mp hq
  show l'.promises.outcome? q = Promise.settle (l.promises.outcome? q) o
  rw [hp]
  cases hpend : l.promises.isPending q with
  | true =>
    obtain ⟨t', ht', hprom⟩ := c.handed k q hm hpend
    rw [ht] at ht'
    cases ht'
    subst hprom
    rw [Promises.outcome?_settle_of_isPending hpend, (Promises.isPending_iff.mp hpend).2]
    rfl
  | false =>
    obtain ⟨o', ho'⟩ := Promises.exists_outcome? (c.bounded k q hm) hpend
    rw [Promises.outcome?_settle_of_some ho', ho']
    rfl

theorem sharedOf_settle_of_ne (find : l'.cache.find? k = l.cache.find? k)
    (hne : ∀ t, l.cache.ticketOf? k = some t → t.promise ≠ p)
    (hp : l'.promises = l.promises.settle p o) : l'.sharedOf k = l.sharedOf k := by
  unfold sharedOf flightOf
  rw [find, hp]
  cases hf : l.cache.find? k with
  | none => rfl
  | some entry =>
    cases entry with
    | skipped => rfl
    | loaded => rfl
    | inFlight q =>
      have hq := hne _ (Cache.ticketOf?_eq_some.mpr ⟨q, hf, rfl⟩)
      exact Promises.outcome?_settle_of_ne l.promises p q.promise o hq

end Coupled

/-! ## §4 Facets when an attempt ends -/

namespace Apart

variable {terms : Terms} {l : Loader} {k : ChunkId} {h : HandleId}

/-- The handles of a chunk of the right kind were made for it. -/
theorem made_of_mem_handlesOf (s : Apart terms l) (hk : k.isName = terms.named)
    (hh : h ∈ l.handlesOf k) : ∃ x, l.handles.get? h = some x ∧ terms.Made k x := by
  obtain ⟨x, hx, htag⟩ := mem_handlesOf.mp hh
  obtain ⟨k', made⟩ := s.made h x hx
  rw [s.plan] at htag
  have heq := made.eq_of_tag hk htag
  subst heq
  exact ⟨x, hx, made⟩

/-- Where nothing of a chunk can be registered, nothing of it is. -/
theorem registeredOf_eq_map (s : Apart terms l) (hk : k.isName = terms.named)
    (hl : l.cache.find? k ≠ some .loaded) (hf : l.cache.ticketOf? k = none) :
    l.registeredOf k = (l.handlesOf k).map fun _ => false := by
  refine List.map_congr_left fun h hh => ?_
  obtain ⟨x, hx, made⟩ := s.made_of_mem_handlesOf hk hh
  exact decide_eq_false (s.not_registered hl hf hx made)

/-- A watchdog of a chunk's load watches over its attempt in flight. -/
theorem flight_of_watchdog (s : Apart terms l) {w : Watchdog} (hw : w ∈ l.watchdogs)
    (hk : (l.attempts.get? w.attempt).any (·.chunk == k) = true) :
    ∃ t h, l.Flight t w.attempt h ∧ t.chunk = k := by
  have hm : w.attempt ∈ l.active :=
    s.coupled.orderly.watched.mem_iff.mp (List.mem_map_of_mem hw)
  obtain ⟨t, h, f⟩ := s.coupled.flight_of_active hm
  rw [f.load] at hk
  exact ⟨t, h, f, by simpa using hk⟩

end Apart

namespace Ended

variable {terms : Terms} {l l' : Loader} {t : Ticket} {a : AttemptId} {h : HandleId}
  {e : LoadEvent} {k : ChunkId}

theorem handlesOf (n : l.Ended t a h e l') (k : ChunkId) : l'.handlesOf k = l.handlesOf k :=
  handlesOf_update (f := (·.release)) (fun _ => rfl) n.plan n.handles k

/-- The watchdogs of a chunk that are left when a load ends. -/
theorem alarmsOf (n : l.Ended t a h e l') (s : Apart terms l) (f : l.Flight t a h) (k : ChunkId) :
    l'.alarmsOf k = if k = t.chunk then [] else l.alarmsOf k := by
  have chunks : ∀ b, (l'.attempts.get? b).any (·.chunk == k) =
      (l.attempts.get? b).any (·.chunk == k) := by
    intro b
    rw [n.attempts, Table.get?_update]
    split
    · cases l.attempts.get? b <;> rfl
    · rfl
  unfold Loader.alarmsOf
  simp only [chunks, n.watchdogs, List.filter_filter]
  split
  · rename_i hk
    refine List.map_eq_nil_iff.mpr (List.filter_eq_nil_iff.mpr fun w hw hp => ?_)
    simp only [Bool.and_eq_true] at hp
    obtain ⟨t', h', f', hk'⟩ := s.flight_of_watchdog hw hp.1
    have ha := (s.flight_eq f f' (hk.symm.trans hk'.symm)).2.1
    simp [ha] at hp
  · rename_i hk
    refine congrArg _ (List.filter_congr fun w hw => ?_)
    by_cases ha : w.attempt = a
    · have hne : ¬t.chunk = k := fun e => hk e.symm
      simp [ha, f.load, hne]
    · simp [ha]

/-- The chunk whose attempt ends. -/
theorem facet_self (n : l.Ended t a h e l') (s : Apart terms l) (f : l.Flight t a h)
    (s' : Apart terms l') :
    l'.facet t.chunk = (l.facet t.chunk).finish e.isLoad (l.outcomeOf t.chunk e) := by
  obtain ⟨p, hp, -⟩ := Cache.ticketOf?_eq_some.mp f.ticket
  have find := n.find? t.chunk
  rw [if_pos rfl] at find
  have none_in_flight : l'.cache.ticketOf? t.chunk = none := by rw [n.tickets, if_pos rfl]
  have flying : (l.facet t.chunk).state = .inFlight := by
    simp [facet, view, Cache.state, hp, Entry.state]
  have attempts : l'.cache.attemptsAt t.chunk = l.cache.attemptsAt t.chunk := by
    rw [n.cache]
    split <;> rfl
  have registered : l'.registeredOf t.chunk =
      if e.isLoad then l.registeredOf t.chunk else (l.registeredOf t.chunk).map fun _ => false := by
    cases he : e.isLoad with
    | true =>
      unfold registeredOf
      rw [n.handlesOf, n.registry, registryAfter, he]
      rfl
    | false =>
      rw [s'.registeredOf_eq_map (s.kind_of_flight f) (by rw [find, he]; simp) none_in_flight,
        n.handlesOf]
      simp [registeredOf]
  have shared : l'.sharedOf t.chunk = none := by
    simp only [sharedOf, flightOf, find]
    cases e.isLoad <;> rfl
  have alarms := n.alarmsOf s f t.chunk
  rw [if_pos rfl] at alarms
  have futures := s.coupled.futuresOf_settle f.ticket n.promises n.handed
  unfold Facet.finish
  rw [if_pos flying]
  unfold facet view Cache.state flightOf
  simp only [find, attempts, registered, shared, alarms, futures, n.now, n.closed]
  cases e.isLoad <;> rfl

/-- The other chunks. -/
theorem facet_other (n : l.Ended t a h e l') (s : Apart terms l) (f : l.Flight t a h)
    (hk : k.isName = terms.named) (hne : k ≠ t.chunk) : l'.facet k = l.facet k := by
  have find := n.find? k
  rw [if_neg hne] at find
  have promises : ∀ t', l.cache.ticketOf? k = some t' → t'.promise ≠ t.promise :=
    fun t' ht' e => hne (s.distinct k t.chunk t' t ht' f.ticket e)
  refine facet_congr find ?_ ?_ ?_ ?_ ?_ n.now n.closed
  · rw [n.cache]
    split <;> rfl
  · unfold registeredOf
    rw [n.handlesOf]
    refine List.map_congr_left fun h' hh' => ?_
    obtain ⟨x, hx, made⟩ := s.made_of_mem_handlesOf hk hh'
    have hne' : h' ≠ h := by
      rintro rfl
      exact hne (s.chunk_eq_of_manned f hx made).symm
    simp only [n.mem_iff_of_ne s hne']
  · exact s.coupled.futuresOf_settle_of_ne promises n.promises n.handed
  · exact Coupled.sharedOf_settle_of_ne find promises n.promises
  · rw [n.alarmsOf s f, if_neg hne]

end Ended

end Loader

end SingleFlight
