/-
SingleFlight.Proofs.Flights — one attempt at a time, whatever calls back.

Each move of a cache by itself has one effect (`SingleFlight.Proofs.Tickets`).
Over a history these effects line up: between two attempts at a chunk the first
one has failed, and an entry in flight counts the requests made since then.

* `Run.Effect.waiters` and the laws beside it — what one effect leaves as it was.
* `Run.Sound` — a cache by itself with a true ledger; moves keep it.
* `Run.Flights` — what holds of a history; `Run.single_flight` proves it.
-/
import SingleFlight.Proofs.Histories
import SingleFlight.Proofs.Tickets

namespace SingleFlight

namespace Run

/-! ## §1 Effects -/

/-- The move calls the starter with the ticket. -/
def Starts (r : Run) (m : Move) (t : Ticket) : Prop :=
  (r.step m).calls = r.calls ++ [.start t]

namespace Effect

variable {r r' : Run} {m : Move} {t : Ticket} {chunk : ChunkId}

/-- Tickets that were handed out stay so. -/
theorem mem_tickets (eff : Effect r m r') (ht : t ∈ r.tickets) : t ∈ r'.tickets := by
  cases eff with
  | begun t' _ _ _ _ _ _ _ calls =>
    simp only [tickets, calls, List.filterMap_append, List.mem_append]
    exact .inl ht
  | quiet _ _ _ calls => exact calls ▸ ht
  | joined _ _ _ _ _ _ calls => exact calls ▸ ht
  | marked _ _ _ _ _ _ _ calls => exact calls ▸ ht
  | ended _ _ _ _ _ _ _ calls => exact calls ▸ ht
  | closed _ _ _ calls => exact calls ▸ ht

/-- Only a request for an unknown chunk hands out a ticket. -/
theorem of_new_ticket (eff : Effect r m r') (hnew : t ∈ r'.tickets) (hold : t ∉ r.tickets) :
    m = .invoke (.request t.chunk) ∧ r.loader.cache.find? t.chunk = none ∧
      t.promise = r.loader.promises.table.size ∧
      r'.loader.cache.find? t.chunk =
        some (.inFlight { promise := t.promise, attempt := t.attempt }) ∧
      r'.calls = r.calls ++ [.start t] := by
  cases eff with
  | begun t' hm hf promise _ _ find _ calls =>
    have ht : t = t' := by
      simp only [tickets, calls, List.filterMap_append, List.mem_append] at hnew
      rcases hnew with h | h
      · exact absurd h hold
      · simpa [Call.ticket?] using h
    subst ht
    exact ⟨hm, hf, promise, by rw [find, if_pos rfl], calls⟩
  | quiet _ _ _ calls => exact absurd (calls ▸ hnew) hold
  | joined _ _ _ _ _ _ calls => exact absurd (calls ▸ hnew) hold
  | marked _ _ _ _ _ _ _ calls => exact absurd (calls ▸ hnew) hold
  | ended _ _ _ _ _ _ _ calls => exact absurd (calls ▸ hnew) hold
  | closed _ _ _ calls => exact absurd (calls ▸ hnew) hold

/-- A loaded chunk stays loaded. -/
theorem loaded (eff : Effect r m r') (h : r.loader.cache.find? chunk = some .loaded) :
    r'.loader.cache.find? chunk = some .loaded := by
  have unflown : r.loader.cache.ticketOf? chunk = none := by simp [Cache.ticketOf?, h]
  cases eff with
  | quiet _ find _ _ => rw [find]; exact h
  | begun t' _ hf _ _ _ find _ _ =>
    rw [find, if_neg]
    · exact h
    · rintro rfl
      rw [hf] at h
      cases h
  | joined k p _ hf find _ _ =>
    rw [find, if_neg]
    · exact h
    · rintro rfl
      rw [hf] at h
      cases h
  | marked k e _ _ hf find _ _ =>
    rw [find, if_neg]
    · exact h
    · rintro rfl
      rw [hf] at h
      cases h
  | ended t' load ht _ _ find _ _ =>
    rw [find, if_neg]
    · exact h
    · rintro rfl
      rw [unflown] at ht
      cases ht
  | closed _ find _ _ =>
    rw [find, unflown]
    exact h

/-- The attempt in flight stays in flight, or the chunk gets loaded, or the attempt fails. -/
theorem of_flying (eff : Effect r m r') (h : r.loader.cache.ticketOf? chunk = some t) :
    r'.loader.cache.ticketOf? chunk = some t ∨ r'.loader.cache.find? chunk = some .loaded ∨
      r.Fails t m ∧ r'.loader.cache.find? chunk = none := by
  obtain ⟨p, hp, rfl⟩ := Cache.ticketOf?_eq_some.mp h
  have stays : r'.loader.cache.find? chunk = r.loader.cache.find? chunk →
      r'.loader.cache.ticketOf? chunk = some ⟨chunk, p.promise, p.attempt⟩ :=
    fun find => Cache.ticketOf?_eq_some.mpr ⟨p, find.trans hp, rfl⟩
  cases eff with
  | quiet _ find _ _ => exact .inl (stays (find chunk))
  | begun t' _ hf _ _ _ find _ _ =>
    refine .inl (stays ?_)
    rw [find, if_neg]
    rintro rfl
    rw [hf] at hp
    cases hp
  | joined k q _ hf find _ _ =>
    by_cases hk : chunk = k
    · subst hk
      rw [hf] at hp
      cases hp
      refine .inl (Cache.ticketOf?_eq_some.mpr ⟨{ p with waiters := p.waiters + 1 }, ?_, rfl⟩)
      rw [find, if_pos rfl]
    · exact .inl (stays (by rw [find, if_neg hk]))
  | marked k e _ _ hf find _ _ =>
    refine .inl (stays ?_)
    rw [find, if_neg]
    rintro rfl
    rw [hf] at hp
    cases hp
  | ended t' load ht cause _ find _ _ =>
    by_cases hk : chunk = t'.chunk
    · rw [← hk, h] at ht
      cases ht
      cases load with
      | true => exact .inr (.inl (by rw [find, if_pos rfl]; rfl))
      | false => exact .inr (.inr ⟨cause rfl, by rw [find, if_pos rfl]; rfl⟩)
    · exact .inl (stays (by rw [find, if_neg hk]))
  | closed hm find _ _ =>
    refine .inr (.inr ⟨hm ▸ .closed, ?_⟩)
    rw [find, h]
    rfl

/-- An attempt in flight counts the requests for its chunk. -/
theorem waiters (eff : Effect r m r') (g : r.Ledger) (ht : t ∈ r.tickets) {n : Nat}
    (h : ∀ p, r.loader.cache.find? chunk = some (.inFlight p) → p.promise = t.promise →
      p.waiters = n) :
    ∀ p, r'.loader.cache.find? chunk = some (.inFlight p) → p.promise = t.promise →
      p.waiters = n + if m.requests chunk then 1 else 0 := by
  intro p hp hprom
  have kept : m ≠ .invoke (.request chunk) → r.loader.cache.find? chunk = some (.inFlight p) →
      p.waiters = n + if m.requests chunk then 1 else 0 := by
    intro hm hold
    rw [if_neg fun hr => hm (Move.requests_iff.mp hr)]
    exact h p hold hprom
  cases eff with
  | quiet hm find _ _ =>
    rw [find] at hp
    refine kept (fun e => ?_) hp
    have hno := hm chunk e
    simp [Cache.ticketOf?, hp] at hno
  | begun t' hm _ promise _ _ find _ _ =>
    rw [find] at hp
    split at hp
    · cases hp
      have hlt := g.made t ht
      rw [← hprom] at hlt
      exact absurd hlt (by rw [promise]; exact Nat.lt_irrefl _)
    · rename_i hk
      refine kept (fun e => hk ?_) hp
      rw [hm] at e
      cases e
      rfl
  | joined k q hm hf find _ _ =>
    rw [find] at hp
    split at hp
    · rename_i hk
      subst hk
      cases hp
      rw [if_pos (Move.requests_iff.mpr hm), h q hf hprom]
    · rename_i hk
      refine kept (fun e => hk ?_) hp
      rw [hm] at e
      cases e
      rfl
  | marked k e he hm _ find _ _ =>
    rw [find] at hp
    split at hp
    · cases hp
      exact absurd rfl he
    · exact kept (by rw [hm]; simp) hp
  | ended t' load _ _ hm find _ _ =>
    rw [find] at hp
    split at hp
    · cases load with
      | true => cases hp
      | false => cases hp
    · exact kept (hm chunk) hp
  | closed hm find _ _ =>
    rw [find] at hp
    split at hp
    · cases hp
    · exact kept (by rw [hm]; simp) hp

end Effect

/-! ## §2 Histories -/

/-- A cache is used by itself, and its tickets account for what it has done. -/
structure Sound (policy : Policy) (hook : Bool) (r : Run) : Prop where
  alone : Alone policy hook r
  ledger : r.Ledger

namespace Sound

variable {policy : Policy} {hook : Bool} {r : Run} {m : Move} {ms : List Move} {t : Ticket}

theorem effect (h : Sound policy hook r) (hm : r.CacheMove m) : Effect r m (r.step m) :=
  (effect_of_move h.alone h.ledger hm).effect

theorem step (h : Sound policy hook r) (hm : r.CacheMove m) : Sound policy hook (r.step m) := by
  obtain ⟨alone, grown, effect⟩ := effect_of_move h.alone h.ledger hm
  exact ⟨alone, h.ledger.of_effect effect grown⟩

theorem steps (h : Sound policy hook r) (hm : r.Admits CacheMove ms) :
    Sound policy hook (r.steps ms) :=
  hm.keeps (fun _ _ h hm => h.step hm) h

/-- A cache as it is opened has handed out no ticket. -/
theorem opened (policy : Policy) (hook : Bool) {installed : List (ChunkId × String)}
    {cache : Cache} (hc : Cache.seed installed = .ok cache) {sink : Metrics.Sink}
    (hs : sink.Steady) : Sound policy hook { loader := .ofCache policy hook cache sink } := by
  obtain ⟨single, tickets, attempts⟩ := Cache.seed_spec hc
  refine ⟨⟨⟨rfl, hs, rfl, rfl, rfl, rfl, single⟩, fun s h => nomatch h⟩, ?_⟩
  exact
    { numbered := fun chunk => by
        simp [ticketsOf, Run.tickets, Loader.ofCache, Cache.attemptsAt, attempts]
      distinct := List.nodup_nil
      made := fun t ht => nomatch ht
      current := fun chunk t ht => by simp [Loader.ofCache, tickets] at ht }

/-- A ticket is the one in flight for its chunk if the attempt in flight has its number. -/
theorem ticketOf?_of_attempt (h : Sound policy hook r) (ht : t ∈ r.tickets) {p : Pending}
    (hp : r.loader.cache.find? t.chunk = some (.inFlight p)) (hn : p.attempt = t.attempt) :
    r.loader.cache.ticketOf? t.chunk = some t := by
  have htick : r.loader.cache.ticketOf? t.chunk = some ⟨t.chunk, p.promise, p.attempt⟩ :=
    Cache.ticketOf?_eq_some.mpr ⟨p, hp, rfl⟩
  have distinct : ((r.ticketsOf t.chunk).map (·.attempt)).Nodup := by
    rw [h.ledger.numbered]
    exact List.nodup_range'
  have mine : t ∈ r.ticketsOf t.chunk := by simp [ticketsOf, ht]
  have current : ⟨t.chunk, p.promise, p.attempt⟩ ∈ r.ticketsOf t.chunk := by
    simp [ticketsOf, (h.ledger.current _ _ htick).1]
  rw [htick]
  exact congrArg some (List.inj_on_of_nodup_map distinct current mine hn)

/-- A ticket that was handed out in a history was handed out by one of its moves. -/
theorem exists_start (h : Sound policy hook r) (hm : r.Admits CacheMove ms)
    (hold : t ∉ r.tickets) (hnew : t ∈ (r.steps ms).tickets) :
    ∃ pre m post, ms = pre ++ m :: post ∧ (r.steps pre).Starts m t := by
  obtain ⟨pre, m, post, rfl, hpre, hpost⟩ :=
    exists_flip (P := fun s => t ∉ s.tickets) hold (fun hn => hn hnew)
  have s := h.steps (admits_append.mp hm).1
  obtain ⟨-, -, -, -, calls⟩ :=
    (s.effect hm.allowed_of_split).of_new_ticket (Decidable.not_not.mp hpost) hpre
  exact ⟨pre, m, post, rfl, calls⟩

/-- From any state on, the entry of a ticket counts the requests for its chunk. -/
theorem waiters_steps {chunk : ChunkId} : ∀ {ms : List Move} {r : Run} {n : Nat},
    Sound policy hook r → r.Admits CacheMove ms → t ∈ r.tickets →
    (∀ p, r.loader.cache.find? chunk = some (.inFlight p) → p.promise = t.promise →
      p.waiters = n) →
    ∀ p, (r.steps ms).loader.cache.find? chunk = some (.inFlight p) → p.promise = t.promise →
      p.waiters = n + ms.countP (Move.requests chunk)
  | [], _, _, _, _, _, hn => hn
  | m :: ms, r, n, h, hm, ht, hn => by
    intro p hp hprom
    have eff := h.effect hm.1
    have kept : t ∈ (r.step m).tickets := eff.mem_tickets ht
    have hcount := waiters_steps (h.step hm.1) hm.2 kept (eff.waiters h.ledger ht hn) p hp hprom
    rw [hcount, List.countP_cons]
    omega

end Sound

/-! ## §3 One attempt at a time -/

/--
What a history of a cache by itself comes to: attempts at a chunk are made one at a time and
numbered in order, and each counts the requests it serves.
-/
structure Flights (start : Run) (ms : List Move) : Prop where
  /-- The starter is called only by a request for a chunk that has no entry. -/
  asked : ∀ pre m post t, ms = pre ++ m :: post → (start.steps pre).Starts m t →
    m = .invoke (.request t.chunk) ∧ (start.steps pre).loader.cache.find? t.chunk = none
  /-- Its calls for a chunk have the numbers 1, 2, 3, …, and there are as many as attempts. -/
  numbered : ∀ chunk, ((start.steps ms).ticketsOf chunk).map (·.attempt) =
    List.range' 1 ((start.steps ms).loader.cache.attemptsAt chunk)
  /-- Before it is called again for a chunk, the earlier attempt has failed. -/
  between : ∀ pre m mid m' post t t', ms = pre ++ m :: (mid ++ m' :: post) →
    (start.steps pre).Starts m t → (start.steps (pre ++ m :: mid)).Starts m' t' →
    t'.chunk = t.chunk →
    ∃ u x v, mid = u ++ x :: v ∧
      (start.steps (pre ++ m :: u)).loader.cache.ticketOf? t.chunk = some t ∧
      (start.steps (pre ++ m :: u)).Fails t x ∧
      (start.steps (pre ++ m :: (u ++ [x]))).loader.cache.find? t.chunk = none
  current : ∀ chunk p, (start.steps ms).loader.cache.find? chunk = some (.inFlight p) →
    p.attempt = (start.steps ms).loader.cache.attemptsAt chunk
  /-- An entry in flight counts the requests from the one that started its attempt. -/
  counted : ∀ chunk p, (start.steps ms).loader.cache.find? chunk = some (.inFlight p) →
    ∃ pre m post, ms = pre ++ m :: post ∧
      (start.steps pre).Starts m ⟨chunk, p.promise, p.attempt⟩ ∧
      p.waiters = 1 + post.countP (Move.requests chunk)
  /-- A ticket given back while its attempt is in flight ends that attempt and no other. -/
  redeemed : ∀ t ∈ (start.steps ms).tickets, ∀ e p,
    (start.steps ms).loader.cache.find? t.chunk = some (.inFlight p) → p.attempt = t.attempt →
    ∀ k, ((start.steps ms).step (.invoke (.redeem t e))).loader.cache.find? k =
      if k = t.chunk then (if e.isLoad then some .loaded else none)
      else (start.steps ms).loader.cache.find? k
  /-- At any other time it changes neither an entry nor a promise. -/
  stale : ∀ t ∈ (start.steps ms).tickets, ∀ e,
    (∀ p, (start.steps ms).loader.cache.find? t.chunk = some (.inFlight p) →
      p.attempt ≠ t.attempt) →
    ((start.steps ms).step (.invoke (.redeem t e))).loader.cache = (start.steps ms).loader.cache ∧
      ((start.steps ms).step (.invoke (.redeem t e))).loader.promises =
        (start.steps ms).loader.promises

namespace Sound

variable {policy : Policy} {hook : Bool} {r : Run} {m : Move} {ms : List Move} {t : Ticket}

/-- A move that calls the starter hands out a ticket that is new. -/
theorem of_starts (h : Sound policy hook r) (hm : r.CacheMove m) (hs : r.Starts m t) :
    t ∈ (r.step m).tickets ∧ m = .invoke (.request t.chunk) ∧
      r.loader.cache.find? t.chunk = none ∧
      (r.step m).loader.cache.find? t.chunk =
        some (.inFlight { promise := t.promise, attempt := t.attempt }) := by
  have hnew : t ∈ (r.step m).tickets := by
    rw [tickets, hs, List.filterMap_append, List.mem_append]
    exact .inr (by simp [Call.ticket?])
  have hold : t ∉ r.tickets := by
    -- Were it an old one, its promise would stand twice among the tickets.
    intro hold
    have hd := (h.step hm).ledger.distinct
    have hp : t.promise ∈ r.tickets.map (·.promise) := List.mem_map_of_mem hold
    rw [tickets, hs, List.filterMap_append, List.map_append, List.nodup_append] at hd
    exact hd.2.2 _ hp _ (by simp [Call.ticket?]) rfl
  obtain ⟨hreq, hf, -, hfind, -⟩ := (h.effect hm).of_new_ticket hnew hold
  exact ⟨hnew, hreq, hf, hfind⟩

/-- An attempt is in flight when it is started, and its chunk is unknown before the next one. -/
theorem exists_failure (h : Sound policy hook r) (hm : r.Admits CacheMove ms)
    (hfly : r.loader.cache.ticketOf? t.chunk = some t)
    (hend : (r.steps ms).loader.cache.find? t.chunk = none) :
    ∃ u x v, ms = u ++ x :: v ∧ (r.steps u).loader.cache.ticketOf? t.chunk = some t ∧
      (r.steps u).Fails t x ∧ ((r.steps u).step x).loader.cache.find? t.chunk = none := by
  have ended : ¬ ((r.steps ms).loader.cache.ticketOf? t.chunk = some t ∨
      (r.steps ms).loader.cache.find? t.chunk = some .loaded) := by
    rw [hend]
    simp [Cache.ticketOf?, hend]
  obtain ⟨u, x, v, rfl, hbefore, hafter⟩ := exists_flip
    (P := fun s => s.loader.cache.ticketOf? t.chunk = some t ∨
      s.loader.cache.find? t.chunk = some .loaded) (.inl hfly) ended
  have eff := (h.steps (admits_append.mp hm).1).effect hm.allowed_of_split
  rcases hbefore with hfly | hloaded
  · rcases eff.of_flying hfly with hfly' | hloaded | ⟨hfails, hnone⟩
    · exact absurd (.inl hfly') hafter
    · exact absurd (.inr hloaded) hafter
    · exact ⟨u, x, v, rfl, hfly, hfails, hnone⟩
  · exact absurd (.inr (eff.loaded hloaded)) hafter

theorem redeem (r : Run) (t : Ticket) (e : LoadEvent) :
    (r.step (.invoke (.redeem t e))).loader = r.loader.redeem t e := rfl

/-- A history that begins with a fresh cache keeps its attempts apart. -/
theorem flights (h : Sound policy hook r) (hfresh : r.tickets = [])
    (hm : r.Admits CacheMove ms) : Flights r ms := by
  have now := h.steps hm
  have never : ∀ t, t ∉ r.tickets := by simp [hfresh]
  refine
    { asked := ?_
      numbered := now.ledger.numbered
      between := ?_
      current := ?_
      counted := ?_
      redeemed := ?_
      stale := ?_ }
  · rintro pre m post t rfl hs
    obtain ⟨-, hreq, hf, -⟩ := (h.steps (admits_append.mp hm).1).of_starts hm.allowed_of_split hs
    exact ⟨hreq, hf⟩
  · rintro pre m mid m' post t t' rfl hs hs' hchunk
    have hpre := admits_append.mp hm
    have hmid := admits_append.mp hpre.2.2
    have first := h.steps hpre.1
    obtain ⟨-, -, -, hfly⟩ := first.of_starts hpre.2.1 hs
    have begun := first.step hpre.2.1
    have hsteps : ∀ u, r.steps (pre ++ m :: u) = ((r.steps pre).step m).steps u :=
      fun u => steps_append r pre (m :: u)
    rw [hsteps] at hs'
    obtain ⟨-, -, hf, -⟩ := (begun.steps hmid.1).of_starts hmid.2.1 hs'
    rw [hchunk] at hf
    obtain ⟨u, x, v, rfl, hu, hfails, hnone⟩ := begun.exists_failure hmid.1
      (Cache.ticketOf?_eq_some.mpr ⟨_, hfly, rfl⟩) hf
    refine ⟨u, x, v, rfl, ?_, ?_, ?_⟩
    · rw [hsteps]
      exact hu
    · rw [hsteps]
      exact hfails
    · rw [hsteps, steps_concat]
      exact hnone
  · intro chunk p hp
    exact (now.ledger.current chunk _ (Cache.ticketOf?_eq_some.mpr ⟨p, hp, rfl⟩)).2
  · intro chunk p hp
    have hmem := (now.ledger.current chunk _ (Cache.ticketOf?_eq_some.mpr ⟨p, hp, rfl⟩)).1
    obtain ⟨pre, m, post, rfl, hs⟩ := h.exists_start hm (never _) hmem
    have hpre := admits_append.mp hm
    have first := h.steps hpre.1
    obtain ⟨hnew, -, -, hfly⟩ := first.of_starts hpre.2.1 hs
    refine ⟨pre, m, post, rfl, hs, ?_⟩
    rw [steps_append, steps_cons] at hp
    refine waiters_steps (first.step hpre.2.1) hpre.2.2 hnew (fun q hq _ => ?_) p hp rfl
    rw [hfly] at hq
    cases hq
    rfl
  · intro t ht e p hp hn k
    have htick := now.ticketOf?_of_attempt ht hp hn
    obtain ⟨ready, log, hset⟩ := (r.steps ms).loader.settleEntry_eq t e
    rw [redeem, Loader.redeem_of_honours (Cache.honours_of_ticketOf? htick), hset]
    exact Cache.find?_ended ..
  · intro t ht e hno
    have hon : (r.steps ms).loader.cache.honours t = false := by
      rw [← Bool.not_eq_true]
      intro hon
      obtain ⟨p, hp, he⟩ := Cache.ticketOf?_eq_some.mp (now.ledger.ticketOf?_of_honours ht hon)
      exact hno p hp (congrArg Ticket.attempt he).symm
    obtain ⟨log, hl⟩ := Loader.redeem_of_not_honours hon e
    rw [redeem, hl]
    exact ⟨rfl, rfl⟩

end Sound

/--
A cache by itself, whatever its starter and its hook do before they return or raise, and whenever
tickets are given back: attempts are made one at a time. The sink refuses no count.
-/
theorem single_flight {policy : Policy} {hook : Bool} {installed : List (ChunkId × String)}
    {cache : Cache} {sink : Metrics.Sink} {ms : List Move}
    (hc : Cache.seed installed = .ok cache) (hs : sink.Steady)
    (hm : Run.Admits CacheMove { loader := .ofCache policy hook cache sink } ms) :
    Flights { loader := .ofCache policy hook cache sink } ms :=
  (Sound.opened policy hook hc hs).flights rfl hm

/--
A starter that reports an error before it returns, and requests the chunk again: the second
attempt is in flight, and the ticket of the first one is good for nothing any more.
-/
theorem single_flight_in_starter :
    let opened : Run :=
      { loader := .ofCache {} true { entries := [(.name "base", .loaded)] } .silent }
    let moves : List Move :=
      [.invoke (.request (.name "a")), .invoke (.request (.name "a")),
        .invoke (.redeem ⟨.name "a", 0, 1⟩ { type := "error" }),
        .invoke (.request (.name "a")), .returns, .returns,
        .invoke (.redeem ⟨.name "a", 0, 1⟩ { type := "load" })]
    Flights opened moves ∧ (opened.steps moves).loader.cache.find? (.name "a") =
      some (.inFlight { promise := 1, attempt := 2 }) := by
  intro opened moves
  have hc : Cache.seed [(.name "base", "loaded")] =
      .ok { entries := [(.name "base", .loaded)] } := rfl
  have hm : Run.Admits CacheMove opened moves := by
    refine ⟨trivial, trivial, ?_, trivial, trivial, trivial, ?_, trivial⟩
    · show _ ∈ tickets _
      decide
    · show _ ∈ tickets _
      decide
  exact ⟨single_flight hc Metrics.Sink.steady_silent hm, by decide⟩

end Run

end SingleFlight
