/-
SingleFlight.Proofs.Shifts — what operations do to the facets of chunks.

A loader whose chunks are apart moves on, and stays such a loader; the facet of
each chunk changes as a function of the facet alone. `Loader.Shift` says so of
two loaders, and the theorems below say which function it is for a signal, a
mark, a cancellation, a request and a shutdown.

* `Apart.shift_settleLoad`, `shift_dispatch`, `shift_abortAll` — signals.
* `Apart.shift_mark`, `shift_cancel` — what is done to a chunk alone.
* `Apart.answers_request` — a request, with `Loader.Begun` and `Loader.Started`,
  the start of an attempt.
-/
import SingleFlight.Proofs.Apart

namespace SingleFlight

namespace Facet

variable (f : Facet)

/-- Nothing ends where nothing is in flight. -/
theorem finish_of_ne {f : Facet} (h : f.state ≠ .inFlight) (load : Bool) (o : Outcome) :
    f.finish load o = f :=
  if_neg h

theorem state_finish_ne (load : Bool) (o : Outcome) : (f.finish load o).state ≠ .inFlight := by
  unfold finish
  split
  · cases load <;> simp
  · assumption

/-- What the clock shows has no part in how an attempt ends. -/
theorem finish_clock (now : Float) (load : Bool) (o : Outcome) :
    (f.clock now).finish load o = (f.finish load o).clock now := by
  unfold finish clock
  split <;> rfl

end Facet

namespace Loader

/-! ## §1 Shifts -/

/-- A loader moves on: the facet of each chunk changes as `F` says. -/
structure Shift (terms : Terms) (F : ChunkId → Facet → Facet) (l l' : Loader) : Prop where
  apart : Apart terms l'
  facet : ∀ k, k.isName = terms.named → l'.facet k = F k (l.facet k)

namespace Shift

variable {terms : Terms} {F G : ChunkId → Facet → Facet} {l l' l'' : Loader}

theorem trans (h : Shift terms F l l') (h' : Shift terms G l' l'') :
    Shift terms (fun k f => G k (F k f)) l l'' where
  apart := h'.apart
  facet := fun k hk => by rw [h'.facet k hk, h.facet k hk]

theorem congr (h : Shift terms F l l')
    (eq : ∀ k, k.isName = terms.named → F k (l.facet k) = G k (l.facet k)) :
    Shift terms G l l' where
  apart := h.apart
  facet := fun k hk => (h.facet k hk).trans (eq k hk)

end Shift

/-- Work has come to its end or to an error, and each facet has changed as `F` says. -/
def Comes (terms : Terms) (F : ChunkId → Facet → Facet) (l : Loader) :
    Loader × Progress → Prop
  | (l', .finished) => Shift terms F l l'
  | (l', .raised _) => Shift terms F l l'
  | (_, .calling _ _) => False

/-- The same of an operation, with the work that it leaves. -/
def Answers (terms : Terms) (F : ChunkId → Facet → Facet) (l : Loader) : Loader × Asked → Prop
  | (l', .error _) => Shift terms F l l'
  | (l', .ok (_, work)) => Comes terms F l (l'.drive work)

theorem Comes.congr {terms : Terms} {F G : ChunkId → Facet → Facet} {l : Loader}
    {p : Loader × Progress} (h : Comes terms F l p)
    (eq : ∀ k, k.isName = terms.named → F k (l.facet k) = G k (l.facet k)) :
    Comes terms G l p := by
  obtain ⟨l', progress⟩ := p
  cases progress with
  | finished => exact Shift.congr h eq
  | raised f => exact Shift.congr h eq
  | calling call rest => exact h.elim

theorem Shift.comes {terms : Terms} {F G : ChunkId → Facet → Facet} {l l' : Loader}
    {p : Loader × Progress} (h : Shift terms F l l') (hp : Comes terms G l' p) :
    Comes terms (fun k f => G k (F k f)) l p := by
  obtain ⟨l'', progress⟩ := p
  cases progress with
  | finished => exact h.trans hp
  | raised f => exact h.trans hp
  | calling call rest => exact hp.elim

namespace Apart

variable {terms : Terms} {l l' : Loader} {t : Ticket} {a : AttemptId} {h : HandleId}
  {k : ChunkId} {x : Handle}

/-- Nothing that facets are made of has changed. -/
theorem still (s : Apart terms l) (c : Coupled l' none none) (hpl : l'.plan = l.plan)
    (hc : l'.cache = l.cache) (hp : l'.promises = l.promises) (hd : l'.handed = l.handed)
    (hh : l'.handles = l.handles) (hr : l'.registry = l.registry)
    (hat : l'.attempts = l.attempts) (hac : ∀ a, a ∈ l'.active ↔ a ∈ l.active)
    (hw : l'.watchdogs = l.watchdogs) (hn : l'.now = l.now) (hcl : l'.closed = l.closed) :
    Shift terms (fun _ f => f) l l' where
  apart := s.congr c hpl hh hr hat hac (fun _ => by rw [hc]) (fun _ hk => by rw [hc]; exact hk)
  facet := by
    intro k _
    refine facet_congr (by rw [hc]) (by rw [hc]) ?_ ?_ ?_ ?_ hn hcl
    · unfold registeredOf handlesOf
      rw [hpl, hh, hr]
    · unfold futuresOf answersTo
      rw [hd, hp]
    · unfold sharedOf flightOf
      rw [hc, hp]
    · unfold alarmsOf
      rw [hw, hat]

theorem refl (s : Apart terms l) : Shift terms (fun _ f => f) l l :=
  ⟨s, fun _ _ => rfl⟩

/-! ## §2 Signals -/

theorem state_ne_of_ticketOf? (hk : l.cache.ticketOf? k = none) :
    (l.facet k).state ≠ .inFlight := by
  intro hs
  obtain ⟨t, ht⟩ := Cache.state_eq_inFlight.mp hs
  rw [hk] at ht
  cases ht

theorem outcomeOf_eq (s : Apart terms l) (k : ChunkId) (e : LoadEvent) :
    l.outcomeOf k e = terms.ending k e.type e.request := by
  have hp : l.plan.policy = terms.policy := congrArg Plan.policy s.plan
  simp [outcomeOf, Terms.ending, failureOf, LoadFailure.ofEvent, LoadEvent.isLoad, hp]

/-- A signal to the load of an attempt in flight ends the attempt of its chunk. -/
theorem shift_settleLoad (s : Apart terms l) (f : l.Flight t a h) (e : LoadEvent) :
    ∃ l', l.settleLoad a e = (l', .through) ∧ l.Ended t a h e l' ∧
      Shift terms
        (fun k g => if k = t.chunk then terms.finish k e.type e.request g else g) l l' := by
  obtain ⟨l', hl', c', n⟩ := f.settleLoad s.coupled e
  have s' := n.apart s f c'
  refine ⟨l', hl', n, s', fun k hk => ?_⟩
  by_cases hkt : k = t.chunk
  · subst hkt
    rw [if_pos rfl, n.facet_self s f s', s.outcomeOf_eq]
    rfl
  · rw [if_neg hkt, n.facet_other s f hk hkt]

/-- A handle gives a signal: the attempt of its chunk ends if it waits for the handle. -/
theorem shift_dispatch (s : Apart terms l) (hx : l.handles.get? h = some x)
    (made : terms.Made k x) (type : String) :
    ∃ l', l.drive (l.dispatch h type) = (l', .finished) ∧
      Shift terms
        (fun k' f => if k' = k ∧ h ∈ l.registry.handles then
          terms.finish k' type (some x.url) f else f) l l' := by
  have work : l.drive (l.dispatch h type) = l.drive [.signal (x.slotFor type)
      (l.signalFrom h type)] := by
    simp [dispatch, hx]
  by_cases hm : l.Manned h
  · obtain ⟨t, a, f⟩ := s.flight_of_manned hm
    obtain ⟨y, ⟨hmem, hy⟩, -, hload, herror⟩ := s.handle_of_flight f
    rw [hx] at hy
    cases hy
    have slot : x.slotFor type = { waiting := [a] } := by
      unfold Handle.slotFor
      split
      · exact hload
      · exact herror
    obtain ⟨l', hl', -, shift⟩ := s.shift_settleLoad f (l.signalFrom h type)
    refine ⟨l', ?_, shift.congr fun k' _ => ?_⟩
    · rw [work, slot]
      unfold settleLoad at hl'
      simp [drive, perform, hl']
    · have request : (l.signalFrom h type).request = some x.url := by
        simp [signalFrom, sourceOf, hx, LoadEvent.request]
      have htk := s.chunk_eq_of_manned f hx made
      simp only [htk, hmem, and_true, request]
      rfl
  · obtain ⟨hload, herror⟩ := s.idle h x hx hm
    have slot : x.slotFor type = {} := by
      unfold Handle.slotFor
      split
      · exact hload
      · exact herror
    refine ⟨l, ?_, s.refl.congr fun k' _ => ?_⟩
    · rw [work, slot]
      simp [drive, perform, signal]
    · split
      · rename_i hk
        -- The handle is registered and nobody waits for it, so its chunk is loaded.
        rcases s.kept h x k ⟨hk.2, hx⟩ made with hl | hm'
        · refine (Facet.finish_of_ne ?_ _ _).symm
          rw [hk.1]
          simp [facet, view, Cache.state, hl, Entry.state]
        · exact absurd hm' hm
      · rfl

/-- Whatever loads are aborted: each chunk's attempt is ended, or nothing happens to the chunk. -/
theorem shift_abortAll (attempts : List AttemptId) (s : Apart terms l) :
    ∃ l', abortAll attempts l = (l', .through) ∧ Apart terms l' ∧
      ∀ k, k.isName = terms.named → l'.facet k = l.facet k ∨
        l'.facet k = terms.finish k "abort" (terms.address k) (l.facet k) := by
  induction attempts generalizing l with
  | nil => exact ⟨l, rfl, s, fun _ _ => .inl rfl⟩
  | cons a rest ih =>
    by_cases ha : a ∈ l.active
    · obtain ⟨t, h, f⟩ := s.coupled.flight_of_active ha
      obtain ⟨l₁, hset, -, shift⟩ := s.shift_settleLoad f (l.endSignal a "abort")
      obtain ⟨l', hrest, s', facets⟩ := ih shift.apart
      refine ⟨l', by simp only [abortAll, hset]; exact hrest, s', fun k hk => ?_⟩
      obtain ⟨x, ⟨-, hx⟩, made, -⟩ := s.handle_of_flight f
      have request : (l.endSignal a "abort").request = terms.address t.chunk := by
        simp [endSignal, f.load, sourceOf, hx, LoadEvent.request, Terms.address, made.url,
          Except.toOption]
      have first := shift.facet k hk
      by_cases hkt : k = t.chunk
      · subst hkt
        rw [if_pos rfl, request] at first
        have ended : (l₁.facet t.chunk).state ≠ .inFlight := by
          rw [first]
          exact Facet.state_finish_ne _ _ _
        rcases facets t.chunk hk with h₂ | h₂
        · exact .inr (h₂.trans first)
        · rw [Terms.finish, Facet.finish_of_ne ended] at h₂
          exact .inr (h₂.trans first)
      · rw [if_neg hkt] at first
        rw [← first]
        exact facets k hk
    · obtain ⟨l', hrest, s', facets⟩ := ih s
      exact ⟨l', by simp only [abortAll, s.coupled.settleLoad_of_inactive ha]; exact hrest, s', facets⟩

/-! ## §3 What is done to one chunk -/

/-- A chunk gets a final entry, if it is unknown. -/
theorem shift_mark (s : Apart terms l) (k : ChunkId) {e : Entry} (he : e.state ≠ .inFlight) :
    Shift terms (fun k' f => if k' = k then f.mark e.state else f) l (l.mark k e) := by
  have c' : Coupled (l.mark k e) none none := s.coupled.mark he
  refine ⟨s.congr c' rfl rfl rfl rfl (fun _ => Iff.rfl)
    (fun _ => Cache.ticketOf?_mark _ _ _ he) fun k' hl => ?_, fun k' _ => ?_⟩
  · exact Cache.find?_mark_of_some hl e
  · have attempts : (l.mark k e).cache.attemptsAt k' = l.cache.attemptsAt k' := by
      unfold Loader.mark Cache.mark
      dsimp only
      split <;> rfl
    have find : (l.mark k e).cache.find? k' =
        if k' = k then some ((l.cache.find? k).getD e) else l.cache.find? k' :=
      Cache.find?_mark ..
    by_cases hk : k' = k
    · subst hk
      rw [if_pos rfl] at find ⊢
      cases hf : l.cache.find? k' with
      | some e' =>
        rw [hf] at find
        have known : (l.facet k').state ≠ .unknown := by
          cases e' <;> simp [facet, view, Cache.state, hf, Entry.state]
        rw [Facet.mark, if_neg known]
        exact facet_congr (find.trans hf.symm) attempts rfl rfl
          (by unfold sharedOf; rw [flightOf_congr (find.trans hf.symm)]; rfl) rfl rfl rfl
      | none =>
        rw [hf] at find
        have unknown : (l.facet k').state = .unknown := by
          simp [facet, view, Cache.state, hf]
        have before : l.flightOf k' = none := by simp [flightOf, hf]
        have after : (l.mark k' e).flightOf k' = none := by
          cases e with
          | inFlight p => exact absurd rfl he
          | _ => simp [flightOf, find]
        rw [Facet.mark, if_pos unknown]
        simp only [facet, view, sharedOf, before, after, attempts, Cache.state, find]
        rfl
    · rw [if_neg hk] at find ⊢
      exact facet_congr find attempts rfl rfl
        (by unfold sharedOf; rw [flightOf_congr find]; rfl) rfl rfl rfl

/-- A promise that a request for a chunk was answered with is cancelled. -/
theorem shift_cancel (s : Apart terms l) {n : Nat} {p : PromiseId}
    (hp : (l.answersTo k)[n]? = some p) :
    Shift terms (fun k' f => if k' = k then f.cancel n else f) l (l.cancelPromise p).1 := by
  obtain ⟨ready, heq⟩ := l.settlePromise_eq p .cancelled
  have c' := s.coupled.settlePromise p .cancelled
  unfold cancelPromise
  have future : (l.facet k).futures[n]? = some (l.promises.outcome? p) := by
    simp [facet, view, futuresOf, hp]
  have hmem : (k, p) ∈ l.handed := mem_answersTo.mp (List.mem_of_getElem? hp)
  rw [heq] at c' ⊢
  have apart : Apart terms { l with promises := l.promises.settle p .cancelled, ready } :=
    s.congr c' rfl rfl rfl rfl (fun _ => Iff.rfl) (fun _ => rfl) (fun _ => id)
  refine ⟨apart, fun k' _ => ?_⟩
  cases hpend : l.promises.isPending p with
  | false =>
    -- The promise has its outcome, and nothing changes.
    obtain ⟨o, ho⟩ := Promises.exists_outcome? (s.coupled.bounded k p hmem) hpend
    have same : l.promises.settle p .cancelled = l.promises := by simp [Promises.settle, hpend]
    have cancel : (l.facet k).cancel n = l.facet k := by simp [Facet.cancel, future, ho]
    rw [same]
    split
    · rename_i hk
      subst hk
      exact cancel.symm
    · rfl
  | true =>
    obtain ⟨t, ht, hprom⟩ := s.coupled.handed k p hmem hpend
    obtain ⟨q, hq, rfl⟩ := Cache.ticketOf?_eq_some.mp ht
    subst hprom
    by_cases hk : k' = k
    · subst hk
      have waits := (Promises.isPending_iff.mp hpend).2
      rw [waits] at future
      have futures :
          futuresOf { l with promises := l.promises.settle q.promise .cancelled, ready } k' =
            (l.futuresOf k').map (Promise.settle · .cancelled) :=
        s.coupled.futuresOf_settle ht rfl rfl
      have shared : sharedOf { l with promises := l.promises.settle q.promise .cancelled, ready }
          k' = some .cancelled := by
        simp only [sharedOf, flightOf, hq]
        exact Promises.outcome?_settle_of_isPending hpend _
      rw [if_pos rfl, Facet.cancel, future]
      unfold facet view
      rw [futures, shared]
      rfl
    · have hne : ∀ t', l.cache.ticketOf? k' = some t' → t'.promise ≠ q.promise :=
        fun t' ht' e => hk (s.distinct k' k t' _ ht' ht e)
      rw [if_neg hk]
      exact facet_congr rfl rfl rfl (s.coupled.futuresOf_settle_of_ne hne rfl rfl)
        (Coupled.sharedOf_settle_of_ne rfl hne rfl) rfl rfl rfl

/-! ## §4 Requests -/

/-- A request is answered with one more promise. -/
theorem answersTo_concat {p : PromiseId} (hd : l'.handed = l.handed ++ [(k, p)]) (k' : ChunkId) :
    l'.answersTo k' = if k' = k then l.answersTo k' ++ [p] else l.answersTo k' := by
  unfold answersTo
  rw [hd, List.filter_append, List.map_append]
  by_cases hk : k' = k
  · simp [hk]
  · have hk' : ¬k = k' := fun e => hk e.symm
    simp [hk, hk']

/-- The promises that were there have become of nothing new. -/
def Older (l l' : Loader) : Prop :=
  ∀ p, p < l.promises.table.size → l'.promises.outcome? p = l.promises.outcome? p

theorem futuresOf_of_older (s : Apart terms l) (old : Older l l')
    (ha : l'.answersTo k = l.answersTo k) : l'.futuresOf k = l.futuresOf k := by
  unfold futuresOf
  rw [ha]
  exact List.map_congr_left fun q hq => old q (s.coupled.bounded k q (mem_answersTo.mp hq))

theorem futuresOf_concat (s : Apart terms l) (old : Older l l') {p : PromiseId}
    (ha : l'.answersTo k = l.answersTo k ++ [p]) :
    l'.futuresOf k = l.futuresOf k ++ [l'.promises.outcome? p] := by
  unfold futuresOf
  rw [ha, List.map_append]
  refine congrArg (· ++ _) ?_
  exact List.map_congr_left fun q hq => old q (s.coupled.bounded k q (mem_answersTo.mp hq))

theorem sharedOf_of_older (s : Apart terms l) (old : Older l l')
    (find : l'.cache.find? k = l.cache.find? k) : l'.sharedOf k = l.sharedOf k := by
  unfold sharedOf flightOf
  rw [find]
  cases hf : l.cache.find? k with
  | none => rfl
  | some entry =>
    cases entry with
    | skipped => rfl
    | loaded => rfl
    | inFlight q =>
      exact old q.promise (s.coupled.made k _ (Cache.ticketOf?_eq_some.mpr ⟨q, hf, rfl⟩))

/-- A request for a chunk in flight. -/
theorem shift_join (s : Apart terms l) {p : Pending} (hf : l.cache.find? k = some (.inFlight p))
    {sink : Metrics.Sink} (hl : l' =
      { l with cache := { l.cache with used := true }.join k p, sink }.hand k p.promise)
    (c : Coupled l' none none) :
    Shift terms (fun k' f => if k' = k then f.join else f) l l' := by
  subst hl
  have find : ∀ k', ({ l.cache with used := true }.join k p).find? k' =
      if k' = k then some (.inFlight { p with waiters := p.waiters + 1 })
      else l.cache.find? k' := fun k' => Cache.find?_join ..
  have old : Older l
      ({ l with cache := { l.cache with used := true }.join k p, sink }.hand k p.promise) :=
    fun _ _ => rfl
  refine ⟨s.congr c rfl rfl rfl rfl (fun _ => Iff.rfl)
    (fun k' => Cache.ticketOf?_join { l.cache with used := true } k k' hf) fun k' hl => ?_,
    fun k' _ => ?_⟩
  · show ({ l.cache with used := true }.join k p).find? k' = some .loaded
    rw [find, if_neg]
    · exact hl
    · rintro rfl
      rw [hf] at hl
      cases hl
  · have answers : answersTo
        ({ l with cache := { l.cache with used := true }.join k p, sink }.hand k p.promise) k' =
          if k' = k then l.answersTo k' ++ [p.promise] else l.answersTo k' :=
      answersTo_concat rfl k'
    by_cases hk : k' = k
    · subst hk
      rw [if_pos rfl] at answers ⊢
      have futures := s.futuresOf_concat old answers
      have before := flightOf_of_inFlight hf
      have entry := (find k').trans (if_pos rfl)
      have after : flightOf
          ({ l with cache := { l.cache with used := true }.join k' p, sink }.hand k' p.promise)
          k' = some { p with waiters := p.waiters + 1 } := flightOf_of_inFlight entry
      have state : ({ l.cache with used := true }.join k' p).state k' = l.cache.state k' := by
        simp only [Cache.state, entry, hf]
        rfl
      unfold Facet.join facet view
      simp only [futures, after, before, sharedOf]
      exact congrArg (fun st => Facet.mk (ChunkView.mk st _ _ _ _) _ _ _ _) state
    · rw [if_neg hk] at answers ⊢
      have entry := (find k').trans (if_neg hk)
      exact facet_congr entry rfl rfl (s.futuresOf_of_older old answers)
        (s.sharedOf_of_older old entry) rfl rfl rfl

/-- A request for a chunk with a final entry. -/
theorem shift_keep (s : Apart terms l) {sink : Metrics.Sink} {ready : List Job}
    (hl : l' = { l with
      cache := { l.cache with used := true }
      promises := l.promises.create.1.settle l.promises.create.2 .ok
      sink
      ready }.hand k l.promises.create.2) (c : Coupled l' none none) :
    Shift terms (fun k' f => if k' = k then f.keep else f) l l' := by
  have promises : l'.promises = l.promises.create.1.settle l.promises.create.2 .ok := by rw [hl]; rfl
  have old : Older l l' := by
    intro p hp
    have hne : p ≠ l.promises.create.2 := Nat.ne_of_lt hp
    rw [promises, Promises.outcome?_settle_of_ne _ _ _ _ hne, Promises.outcome?_create]
  have kept : l'.promises.outcome? l.promises.create.2 = some .ok := by
    rw [promises]
    exact Promises.outcome?_settle_of_isPending l.promises.isPending_created _
  have handed : l'.handed = l.handed ++ [(k, l.promises.create.2)] := by rw [hl]; rfl
  have answers := answersTo_concat handed
  subst hl
  refine ⟨s.congr c rfl rfl rfl rfl (fun _ => Iff.rfl) (fun _ => rfl) (fun _ => id),
    fun k' _ => ?_⟩
  have shared := s.sharedOf_of_older old (k := k') rfl
  by_cases hk : k' = k
  · subst hk
    have futures := s.futuresOf_concat old ((answers k').trans (if_pos rfl))
    rw [kept] at futures
    rw [if_pos rfl]
    unfold Facet.keep facet view
    rw [futures, shared]
    rfl
  · rw [if_neg hk]
    exact facet_congr rfl rfl rfl
      (s.futuresOf_of_older old ((answers k').trans (if_neg hk))) shared rfl rfl rfl

/-- A request for an unknown chunk that has no address: its attempt is given up. -/
theorem shift_miss (s : Apart terms l) (hf : l.cache.find? k = none) {sink : Metrics.Sink}
    {log : List LogRecord} (hl : l' = { l with
      cache := ({ l.cache with used := true }.begin k l.promises.create.2).1.drop k
      promises := l.promises.create.1
      sink
      log }) (c : Coupled l' none none) :
    Shift terms (fun k' f => if k' = k then f.miss else f) l l' := by
  subst hl
  have find : ∀ k', (({ l.cache with used := true }.begin k l.promises.create.2).1.drop k).find? k' =
      l.cache.find? k' := by
    intro k'
    rw [Cache.find?_drop, Cache.find?_begin]
    by_cases hk : k' = k
    · rw [if_pos hk, hk, hf]
    · rw [if_neg hk, if_neg hk]
      rfl
  have attempts : ∀ k',
      (({ l.cache with used := true }.begin k l.promises.create.2).1.drop k).attemptsAt k' =
        if k' = k then l.cache.attemptsAt k + 1 else l.cache.attemptsAt k' :=
    fun k' => Cache.attemptsAt_begin { l.cache with used := true } k k' l.promises.create.2
  have old : Older l { l with
      cache := ({ l.cache with used := true }.begin k l.promises.create.2).1.drop k
      promises := l.promises.create.1
      sink
      log } := fun p _ => Promises.outcome?_create ..
  refine ⟨s.congr c rfl rfl rfl rfl (fun _ => Iff.rfl)
    (fun k' => Cache.ticketOf?_congr (find k')) (fun k' hl => (find k').trans hl), fun k' _ => ?_⟩
  have shared := s.sharedOf_of_older old (find k')
  have futures := s.futuresOf_of_older old (k := k') rfl
  by_cases hk : k' = k
  · subst hk
    rw [if_pos rfl]
    have count := (attempts k').trans (if_pos rfl)
    unfold Facet.miss facet view Cache.state flightOf
    dsimp only
    rw [find, count, shared, futures]
    rfl
  · rw [if_neg hk]
    exact facet_congr (find k') ((attempts k').trans (if_neg hk)) rfl futures shared rfl rfl rfl

end Apart

/-- What the start of an attempt changes, with its load and the handle that this makes. -/
structure Started (l : Loader) (k : ChunkId) (url : String) (l' : Loader) : Prop where
  plan : l'.plan = l.plan
  find : ∀ k', l'.cache.find? k' =
    if k' = k then some (.inFlight
      { promise := l.promises.table.size, attempt := l.cache.attemptsAt k + 1 })
    else l.cache.find? k'
  count : ∀ k', l'.cache.attemptsAt k' =
    if k' = k then l.cache.attemptsAt k + 1 else l.cache.attemptsAt k'
  promises : l'.promises = l.promises.create.1
  handed : l'.handed = l.handed ++ [(k, l.promises.table.size)]
  handles : l'.handles = l.handles.add ((l.madeHandle k url).observe l.attempts.size)
  registry : l'.registry = l.registry.attach l.handles.size url
  attempts : l'.attempts = l.attempts.add
    { chunk := k
      handle := l.handles.size
      done := .redeem ⟨k, l.promises.table.size, l.cache.attemptsAt k + 1⟩ }
  active : l'.active = l.active ++ [l.attempts.size]
  watchdogs : l'.watchdogs = l.watchdogs ++ [⟨l.attempts.size, l.now + l.plan.policy.timeout⟩]
  fetches : l.registry.fetches = true → l'.fetches = l.fetches.add { handle := l.handles.size }
  now : l'.now = l.now
  closed : l'.closed = l.closed

/-- A loader in which the attempt of an unknown chunk is about to be started. -/
structure Begun (l : Loader) (k : ChunkId) (t : Ticket) (l₁ : Loader) : Prop where
  ticket : t = ⟨k, l.promises.create.2, l.cache.attemptsAt k + 1⟩
  coupled : Coupled l₁ (some t) none
  rest : ∃ sink log, l₁ =
    { l with
      cache := ({ l.cache with used := true }.begin k l.promises.create.2).1
      promises := l.promises.create.1
      sink
      log }

namespace Begun

variable {l l₁ : Loader} {k : ChunkId} {t : Ticket} {resolve : ChunkId → Except Fault String}
  {url : String}

theorem chunk (b : l.Begun k t l₁) : t.chunk = k := by
  rw [b.ticket]

/-- A chunk without an address: its attempt is given up. -/
theorem start_of_error (b : l.Begun k t l₁) (hw : l.plan.wiring = .fetch resolve) {f : Fault}
    (hr : resolve k = .error f) :
    l₁.start t = ({ l₁ with cache := l₁.cache.drop k }, .fails f) := by
  have honoured : l₁.cache.honours t = true :=
    Cache.honours_of_ticketOf? (b.coupled.fresh t rfl).1
  have wiring : l₁.plan.wiring = .fetch resolve := by
    obtain ⟨sink, log, h₁⟩ := b.rest
    rw [h₁]
    exact hw
  simp [start, wiring, fetch, b.chunk, hr, abandon, honoured]

/-- A chunk whose handle is not found: its attempt gets a load on a new one. -/
theorem start_of_unfound (b : l.Begun k t l₁) (hw : l.plan.wiring = .fetch resolve)
    (hr : resolve k = .ok url) (hf : l.findHandle k url = none) :
    ∃ l₂, l₁.start t = (l₂, .through) ∧ l.Started k url (l₂.hand k t.promise) := by
  obtain ⟨sink, log, h₁⟩ := b.rest
  have ht := b.ticket
  have hfound : l₁.findHandle t.chunk url = none := by
    rw [h₁, ht]
    exact hf
  have wiring : l₁.plan.wiring = .fetch resolve := by
    rw [h₁]
    exact hw
  have hr' : resolve t.chunk = .ok url := by
    rw [b.chunk]
    exact hr
  obtain ⟨sink', log', fetches, ready, -, hload, begun⟩ :=
    load_of_unfound (.redeem t) b.coupled.steady hfound
  refine ⟨_, by simp only [start, wiring, fetch, hr', hload]; rfl, ?_⟩
  subst h₁ ht
  exact
    { plan := rfl
      find := fun k' => Cache.find?_begin ..
      count := fun k' => Cache.attemptsAt_begin ..
      promises := rfl
      handed := rfl
      handles := Table.update_add_size ..
      registry := rfl
      attempts := rfl
      active := rfl
      watchdogs := rfl
      fetches := begun
      now := rfl
      closed := rfl }

end Begun

namespace Started

variable {terms : Terms} {l l' : Loader} {k : ChunkId} {url : String} {h : HandleId}

theorem mem_registered (n : l.Started k url l') (s : Apart terms l) :
    h ∈ l'.registry.handles ↔ h ∈ l.registry.handles ∨ h = l.handles.size := by
  obtain ⟨hs, m, hr⟩ := s.document
  rw [n.registry, hr]
  show h ∈ hs ++ [l.handles.size] ↔ _
  rw [List.mem_append, List.mem_singleton]
  rfl

/-- The new handle is there, and has the new load alone in its slots. -/
theorem made_handle (n : l.Started k url l') (s : Apart terms l) (hk : k.isName = terms.named)
    (hr : terms.resolve k = .ok url) :
    ∃ x, l'.handles.get? l.handles.size = some x ∧ terms.Made k x ∧
      x.onLoad = { waiting := [l.attempts.size] } ∧
      x.onError = { waiting := [l.attempts.size] } := by
  refine ⟨(l.madeHandle k url).observe l.attempts.size, ?_, ⟨hk, hr, ?_⟩, rfl, rfl⟩
  · rw [n.handles, Table.get?_add_size]
  · show some (l.plan.policy.tagFor k) = _
    rw [s.plan]
    rfl

theorem get?_of_ne (n : l.Started k url l') (hne : h ≠ l.handles.size) :
    l'.handles.get? h = l.handles.get? h := by
  rw [n.handles, Table.get?_add, if_neg hne]

theorem manned (n : l.Started k url l') :
    l'.Manned h ↔ l.Manned h ∨ h = l.handles.size := by
  unfold Manned
  rw [n.active, n.attempts]
  constructor
  · rintro ⟨b, hb, x, hx, rfl⟩
    rw [Table.get?_add] at hx
    split at hx
    · cases hx
      exact .inr rfl
    · rename_i hne
      rw [List.mem_append, List.mem_singleton, or_iff_left hne] at hb
      exact .inl ⟨b, hb, x, hx, rfl⟩
  · rintro (⟨b, hb, x, hx, rfl⟩ | rfl)
    · exact ⟨b, List.mem_append_left _ hb, x, Table.get?_add_of_some hx _, rfl⟩
    · exact ⟨l.attempts.size, List.mem_append_right _ (List.mem_singleton.mpr rfl), _,
        Table.get?_add_size .., rfl⟩

/-- The attempts in flight: that of the chunk, with a promise of its own, and those before. -/
theorem ticket_cases (n : l.Started k url l') {k' : ChunkId} {t : Ticket}
    (ht : l'.cache.ticketOf? k' = some t) :
    k' = k ∧ t.promise = l.promises.table.size ∨ l.cache.ticketOf? k' = some t := by
  obtain ⟨p, hp, rfl⟩ := Cache.ticketOf?_eq_some.mp ht
  rw [n.find] at hp
  split at hp
  · rename_i hk'
    cases hp
    exact .inl ⟨hk', rfl⟩
  · exact .inr (Cache.ticketOf?_eq_some.mpr ⟨p, hp, rfl⟩)

theorem distinct (n : l.Started k url l') (s : Apart terms l) {k₁ k₂ : ChunkId} {t₁ t₂ : Ticket}
    (h₁ : l'.cache.ticketOf? k₁ = some t₁) (h₂ : l'.cache.ticketOf? k₂ = some t₂)
    (heq : t₁.promise = t₂.promise) : k₁ = k₂ := by
  -- The promise of an attempt that was in flight before is not the new one.
  have old : ∀ {k' t}, l.cache.ticketOf? k' = some t → t.promise ≠ l.promises.table.size :=
    fun ht => Nat.ne_of_lt (s.coupled.made _ _ ht)
  rcases n.ticket_cases h₁ with ⟨rfl, hp₁⟩ | old₁
  · rcases n.ticket_cases h₂ with ⟨rfl, -⟩ | old₂
    · rfl
    · exact absurd (heq.symm.trans hp₁) (old old₂)
  · rcases n.ticket_cases h₂ with ⟨-, hp₂⟩ | old₂
    · exact absurd (heq.trans hp₂) (old old₁)
    · exact s.distinct k₁ k₂ t₁ t₂ old₁ old₂ heq

/-- The new load waits for the new handle, and the others for theirs. -/
theorem alone (n : l.Started k url l') (s : Apart terms l) (hk : k.isName = terms.named)
    (hr : terms.resolve k = .ok url) {a : AttemptId} {x : Attempt} (ha : a ∈ l'.active)
    (hx : l'.attempts.get? a = some x) :
    ∃ handle, l'.Holds x.handle handle ∧ terms.Made x.chunk handle ∧
      handle.onLoad = { waiting := [a] } ∧ handle.onError = { waiting := [a] } := by
  rw [n.attempts, Table.get?_add] at hx
  split at hx
  · rename_i ha'
    cases hx
    obtain ⟨x₀, hx₀, made, slots⟩ := n.made_handle s hk hr
    exact ⟨x₀, ⟨(n.mem_registered s).mpr (.inr rfl), hx₀⟩, made, ha' ▸ slots⟩
  · rename_i ha'
    rw [n.active, List.mem_append, List.mem_singleton, or_iff_left ha'] at ha
    obtain ⟨y, ⟨hmem, hy⟩, made, slots⟩ := s.alone a x ha hx
    refine ⟨y, ⟨(n.mem_registered s).mpr (.inl hmem), ?_⟩, made, slots⟩
    rw [n.get?_of_ne (Table.ne_size_of_get? hy)]
    exact hy

theorem kept (n : l.Started k url l') (s : Apart terms l) (hf : l.cache.find? k = none)
    {x : Handle} {k' : ChunkId} (hx : l'.Holds h x) (made : terms.Made k' x) :
    l'.cache.find? k' = some .loaded ∨ l'.Manned h := by
  by_cases hne : h = l.handles.size
  · exact .inr (n.manned.mpr (.inr hne))
  · have hget := hx.2
    have hmem := hx.1
    rw [n.get?_of_ne hne] at hget
    rw [n.mem_registered s, or_iff_left hne] at hmem
    rcases s.kept h x k' ⟨hmem, hget⟩ made with hl | hm
    · refine .inl ?_
      rw [n.find, if_neg]
      · exact hl
      · rintro rfl
        rw [hf] at hl
        cases hl
    · exact .inr (n.manned.mpr (.inl hm))

theorem apart (n : l.Started k url l') (s : Apart terms l) (hk : k.isName = terms.named)
    (hr : terms.resolve k = .ok url) (hf : l.cache.find? k = none) (c : Coupled l' none none) :
    Apart terms l' where
  coupled := c
  plan := n.plan.trans s.plan
  kind := by
    intro k' t ht
    rcases n.ticket_cases ht with ⟨rfl, -⟩ | ht
    · exact hk
    · exact s.kind k' t ht
  distinct := fun _ _ _ _ => n.distinct s
  document := by
    obtain ⟨hs, m, hr⟩ := s.document
    rw [n.registry, hr]
    exact ⟨_, _, rfl⟩
  tidy := by
    rw [n.registry, n.handles]
    exact ((s.tidy.add _).enter s.tidy.size_not_mem ⟨_, Table.get?_add_size .., rfl⟩).1
  made := by
    intro h x hx
    by_cases hne : h = l.handles.size
    · subst hne
      obtain ⟨x₀, hx₀, made, -⟩ := n.made_handle s hk hr
      rw [hx₀] at hx
      cases hx
      exact ⟨k, made⟩
    · rw [n.get?_of_ne hne] at hx
      exact s.made h x hx
  alone := fun _ _ => n.alone s hk hr
  idle := by
    intro h x hx hm
    rw [n.manned, not_or] at hm
    rw [n.get?_of_ne hm.2] at hx
    exact s.idle h x hx hm.1
  kept := fun _ _ _ => n.kept s hf

/-- The handles of the chunk are one more; those of the others are the same. -/
theorem handlesOf (n : l.Started k url l') (s : Apart terms l) (hk : k.isName = terms.named)
    (hr : terms.resolve k = .ok url) {k' : ChunkId} (hk' : k'.isName = terms.named) :
    l'.handlesOf k' =
      if k' = k then l.handlesOf k' ++ [l.handles.size] else l.handlesOf k' := by
  obtain ⟨x₀, hx₀, made₀, -⟩ := n.made_handle s hk hr
  have size : l'.handles.size = l.handles.size + 1 := by rw [n.handles, Table.size_add]
  have old : (List.range l.handles.size).filter (fun h =>
      (l'.handles.get? h).any (·.tag == some (l.plan.policy.tagFor k'))) = l.handlesOf k' := by
    refine List.filter_congr fun h hh => ?_
    rw [n.get?_of_ne (Nat.ne_of_lt (List.mem_range.mp hh))]
  unfold Loader.handlesOf at old ⊢
  rw [n.plan, size, List.range_succ, List.filter_append, old]
  by_cases heq : k' = k
  · rw [if_pos heq]
    refine congrArg _ (List.filter_eq_self.mpr fun h hh => ?_)
    rw [List.mem_singleton.mp hh, hx₀, s.plan, heq]
    simp [made₀.tag]
  · rw [if_neg heq]
    refine (congrArg _ (List.filter_eq_nil_iff.mpr fun h hh htag => ?_)).trans (List.append_nil _)
    rw [List.mem_singleton.mp hh, hx₀, s.plan] at htag
    exact heq (made₀.eq_of_tag hk' (by simpa using htag)).symm

theorem registeredOf (n : l.Started k url l') (s : Apart terms l) (hk : k.isName = terms.named)
    (hr : terms.resolve k = .ok url) {k' : ChunkId} (hk' : k'.isName = terms.named) :
    l'.registeredOf k' =
      if k' = k then l.registeredOf k' ++ [true] else l.registeredOf k' := by
  have old : (l.handlesOf k').map (fun h => decide (h ∈ l'.registry.handles)) =
      l.registeredOf k' := by
    refine List.map_congr_left fun h hh => ?_
    obtain ⟨x, hx, -⟩ := mem_handlesOf.mp hh
    simp only [n.mem_registered s, or_iff_left (Table.ne_size_of_get? hx)]
  unfold Loader.registeredOf at old ⊢
  rw [n.handlesOf s hk hr hk']
  split
  · rw [List.map_append, old]
    simp [n.mem_registered s]
  · exact old

theorem alarmsOf (n : l.Started k url l') (s : Apart terms l) (k' : ChunkId) :
    l'.alarmsOf k' =
      if k' = k then l.alarmsOf k' ++ [l.now + terms.policy.timeout] else l.alarmsOf k' := by
  have old : l.watchdogs.filter (fun w => (l'.attempts.get? w.attempt).any (·.chunk == k')) =
      l.watchdogs.filter (fun w => (l.attempts.get? w.attempt).any (·.chunk == k')) := by
    refine List.filter_congr fun w hw => ?_
    have ha := s.coupled.orderly.watched.mem_iff.mp (List.mem_map_of_mem hw)
    obtain ⟨-, x, hx, -⟩ := (s.coupled.orderly.active_iff _).mp ha
    rw [n.attempts, Table.get?_add_of_some hx, hx]
  have new : l'.attempts.get? l.attempts.size = some
      { chunk := k
        handle := l.handles.size
        done := .redeem ⟨k, l.promises.table.size, l.cache.attemptsAt k + 1⟩ } := by
    rw [n.attempts, Table.get?_add_size]
  unfold Loader.alarmsOf
  rw [n.watchdogs, List.filter_append, old, List.map_append, s.plan]
  by_cases heq : k' = k
  · simp [new, heq]
  · have hne : ¬k = k' := fun e => heq e.symm
    simp [new, heq, hne]

theorem shift (n : l.Started k url l') (s : Apart terms l) (hk : k.isName = terms.named)
    (hr : terms.resolve k = .ok url) (hf : l.cache.find? k = none) (c : Coupled l' none none) :
    Shift terms (fun k' f => if k' = k then f.start terms.policy.timeout else f) l l' := by
  have older : Apart.Older l l' := by
    intro p _
    rw [n.promises, Promises.outcome?_create]
  have new : l'.promises.outcome? l.promises.table.size = none := by
    rw [n.promises, Promises.outcome?_create]
    exact l.promises.outcome?_of_le _ (Nat.le_refl _)
  refine ⟨n.apart s hk hr hf c, fun k' hk' => ?_⟩
  have find := n.find k'
  have count := n.count k'
  have answers := Apart.answersTo_concat n.handed k'
  have registered := n.registeredOf s hk hr hk'
  have alarms := n.alarmsOf s k'
  by_cases heq : k' = k
  · subst heq
    rw [if_pos rfl] at find count answers registered alarms ⊢
    have futures := s.futuresOf_concat older answers
    have flight := flightOf_of_inFlight find
    have shared : l'.sharedOf k' = none := by
      rw [sharedOf, flight]
      exact new
    rw [new] at futures
    unfold Facet.start facet view Cache.state
    rw [find, count, futures, flight, shared, registered, alarms, n.now, n.closed]
    rfl
  · rw [if_neg heq] at find count answers registered alarms ⊢
    exact facet_congr find count registered (s.futuresOf_of_older older answers)
      (s.sharedOf_of_older older find) alarms n.now n.closed

end Started

namespace Apart

variable {terms : Terms} {l : Loader} {k : ChunkId}

/-- For an unknown chunk there is no handle to adopt. -/
theorem findHandle_eq_none (s : Apart terms l) (hk : k.isName = terms.named) {url : String}
    (hr : terms.resolve k = .ok url) (hf : l.cache.find? k = none) :
    l.findHandle k url = none := by
  have free : ∀ h x, l.Holds h x → ¬terms.Made k x := by
    rintro h x ⟨hmem, hx⟩ made
    exact s.not_registered (by simp [hf]) (by simp [Cache.ticketOf?, hf]) hx made hmem
  obtain ⟨hs, m, hreg⟩ := s.document
  unfold findHandle
  rw [hreg, s.plan]
  refine List.find?_eq_none.mpr fun h hmem hany => ?_
  obtain ⟨x, hx, hans⟩ := Option.any_eq_true _ _ |>.mp hany
  have holds : l.Holds h x := ⟨by rw [hreg]; exact hmem, hx⟩
  obtain ⟨k', made⟩ := s.made h x hx
  have answers : x.url = url ∨ x.tag = some (terms.policy.tagFor k) := by
    simpa [Handle.answers] using hans
  rcases answers with hurl | htag
  · have heq := made.eq_of_url hk hr hurl
    subst heq
    exact free h x holds made
  · have heq := made.eq_of_tag hk htag
    subst heq
    exact free h x holds made

/-- The attempt of an unknown chunk is started, or given up at once. -/
theorem comes_start (s : Apart terms l) (hk : k.isName = terms.named)
    (hf : l.cache.find? k = none) {l₁ : Loader} {t : Ticket} (b : l.Begun k t l₁) :
    Comes terms (fun k' f => if k' = k then terms.serve k f else f) l
      (l₁.drive [.start t, .hand t.chunk t.promise]) := by
  have unknown : (l.facet k).state = .unknown := by
    simp [facet, view, Cache.state, hf]
  have wiring : l.plan.wiring = .fetch terms.resolve := congrArg Plan.wiring s.plan
  have clear := b.coupled.clear_start
  cases hr : terms.resolve k with
  | error f =>
    have hd : l₁.drive [.start t, .hand t.chunk t.promise] =
        ({ l₁ with cache := l₁.cache.drop k }, .raised f) := by
      simp [drive, perform, b.start_of_error wiring hr, unwind]
    rw [hd] at clear ⊢
    obtain ⟨sink, log, h₁⟩ := b.rest
    subst h₁
    refine (s.shift_miss hf rfl clear.1).congr fun k' _ => ?_
    split
    · rename_i heq
      subst heq
      simp [Terms.serve, unknown, Terms.address, hr, Except.toOption]
    · rfl
  | ok url =>
    obtain ⟨l₂, hstart, started⟩ :=
      b.start_of_unfound wiring hr (s.findHandle_eq_none hk hr hf)
    have hd : l₁.drive [.start t, .hand t.chunk t.promise] =
        (l₂.hand k t.promise, .finished) := by
      simp [drive, perform, hstart, b.chunk]
    rw [hd] at clear ⊢
    refine (started.shift s hk hr hf clear.1).congr fun k' _ => ?_
    split
    · rename_i heq
      subst heq
      simp [Terms.serve, unknown, Terms.address, hr, Except.toOption]
    · rfl

/-- A request is answered with a promise, at once or when its attempt has been started. -/
theorem comes_serve (s : Apart terms l) (hk : k.isName = terms.named) :
    (∃ l₁ p, l.serve k = (l₁, .ok (p, none)) ∧
      Shift terms (fun k' f => if k' = k then terms.serve k f else f) l (l₁.hand k p)) ∨
    ∃ l₁ t, l.serve k = (l₁, .ok (t.promise, some t)) ∧ t.chunk = k ∧
      Comes terms (fun k' f => if k' = k then terms.serve k f else f) l
        (l₁.drive [.start t, .hand t.chunk t.promise]) := by
  cases hf : l.cache.find? k with
  | none =>
    obtain ⟨sink, log, steady, hs⟩ := serve_of_unknown s.coupled.steady hf
    exact .inr ⟨_, _, hs, rfl, s.comes_start hk hf ⟨rfl, s.coupled.begin hf steady, _, _, rfl⟩⟩
  | some e =>
    -- The promise that answers the request is one that the coupling allows.
    have coupled : ∀ {l₁ : Loader} {p : PromiseId}, l.serve k = (l₁, .ok (p, none)) →
        Coupled (l₁.hand k p) none none := by
      intro l₁ p hs
      rcases s.coupled.serve k with ⟨l₂, q, hs', c₂, owed⟩ | ⟨l₂, t, hs', -⟩
      · rw [hs] at hs'
        cases hs'
        exact c₂.hand owed
      · rw [hs] at hs'
        cases hs'
    have state : (l.facet k).state = e.state := by
      simp [facet, view, Cache.state, hf]
    by_cases he : e.state = .inFlight
    · cases e with
      | skipped => cases he
      | loaded => cases he
      | inFlight p =>
        obtain ⟨sink, -, hs⟩ := serve_of_inFlight s.coupled.steady hf
        refine .inl ⟨_, _, hs, (s.shift_join hf rfl (coupled hs)).congr fun k' _ => ?_⟩
        split
        · rename_i heq
          subst heq
          simp [Terms.serve, state, Entry.state]
        · rfl
    · obtain ⟨sink, ready, -, hs⟩ := serve_of_final s.coupled.steady hf he
      refine .inl ⟨_, _, hs, (s.shift_keep rfl (coupled hs)).congr fun k' _ => ?_⟩
      split
      · rename_i heq
        subst heq
        cases e with
        | inFlight p => exact absurd rfl he
        | _ => simp [Terms.serve, state, Entry.state]
      · rfl

/-- A request. -/
theorem answers_request (s : Apart terms l) (hk : k.isName = terms.named) :
    Answers terms (fun k' f => if k' = k then terms.request k f else f) l
      (l.invoke (.request k)) := by
  have asset : l.plan.hasAsset = terms.hasAsset := congrArg Plan.hasAsset s.plan
  -- What the cache makes of a request, after what was done to the chunk just before.
  have served : ∀ {l₀ : Loader} {F : ChunkId → Facet → Facet}, l.request k = l₀.serve k →
      Shift terms F l l₀ →
      (∀ k', (if k' = k then terms.serve k (F k' (l.facet k')) else F k' (l.facet k')) =
        if k' = k then terms.request k (l.facet k') else l.facet k') →
      Answers terms (fun k' f => if k' = k then terms.request k f else f) l
        (l.invoke (.request k)) := by
    intro l₀ F hreq shift eq
    rcases shift.apart.comes_serve hk with ⟨l₁, p, hs, shift'⟩ | ⟨l₁, t, hs, hchunk, comes⟩
    · simp only [invoke, hreq, hs]
      exact (shift.trans shift').congr fun k' _ => eq k'
    · simp only [invoke, hreq, hs]
      rw [hchunk] at comes
      exact (shift.comes comes).congr fun k' _ => eq k'
  cases hcl : l.closed with
  | true =>
    have refused : l.invoke (.request k) = (l, .error .closed) := by
      simp [invoke, Loader.request, hcl]
    rw [refused]
    refine s.refl.congr fun k' _ => ?_
    simp [Terms.request, facet, hcl]
  | false =>
    cases ha : terms.hasAsset k with
    | true =>
      refine served (by simp [Loader.request, hcl, asset, ha]) s.refl fun k' => ?_
      simp [Terms.request, facet, hcl, ha]
    | false =>
      refine served (by simp [Loader.request, hcl, asset, ha])
        (s.shift_mark k (e := .skipped) (by simp [Entry.state])) fun k' => ?_
      split
      · rename_i heq
        subst heq
        simp [Terms.request, facet, hcl, ha, Entry.state]
      · rfl

end Apart

end Loader

end SingleFlight
