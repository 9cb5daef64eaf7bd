/-
SingleFlight.Proofs.Absorbing — chunks for which nothing is fetched any more.

A chunk that is loaded or skipped stays so. Entries are replaced in many places,
by signals that may be late, stale or given twice; but each place asks first
whether the entry is missing, or in flight. So a final entry is out of reach, and
with it the load of its chunk: a load begins for a chunk in flight only. A chunk
that has nothing to fetch is out of reach for the same reason, entry or not.

* `Loader.Barred` — the two reasons why nothing is fetched for a chunk.
* `Loader.Spares`, with `Change.spares` and `Act.spares` — what is left alone
  then.
* `Run.HitsAtOnce` — what a request for such a chunk comes to.
* `Run.absorbing` — what this comes to in all uses of a whole loader, whatever
  its sink makes of what is counted.
-/
import SingleFlight.Proofs.Waiting

namespace SingleFlight

/-- The move does not change which chunks have anything to fetch. -/
def Move.KeepsAssets (hasAsset : ChunkId → Bool) : Move → Prop
  | .replan _ hasAsset' => hasAsset' = hasAsset
  | _ => True

namespace Loader

/-! ## §1 What is left alone -/

/-- Nothing is fetched for a chunk: it has a final entry, or nothing to fetch and no entry in flight. -/
def Barred (l : Loader) (chunk : ChunkId) : Prop :=
  l.cache.ticketOf? chunk = none ∧
    (l.cache.find? chunk ≠ none ∨ l.plan.hasAsset chunk = false)

/-- What becomes of a chunk for which nothing is fetched. -/
structure Spares (chunk : ChunkId) (l l' : Loader) : Prop where
  assets : l'.plan.hasAsset = l.plan.hasAsset
  idle : l'.cache.ticketOf? chunk = none
  entry : ∀ e, l.cache.find? chunk = some e → l'.cache.find? chunk = some e
  attempts : l'.cache.attemptsAt chunk = l.cache.attemptsAt chunk
  /-- No load begins for it. -/
  loads : ∀ a x, l'.attempts.get? a = some x → x.chunk = chunk →
    ∃ y, l.attempts.get? a = some y ∧ y.chunk = chunk
  /-- Whoever is answered with a promise for it gets one that is kept. -/
  answers : ∀ p, (chunk, p) ∈ l'.handed → (chunk, p) ∈ l.handed ∨ l'.promises.outcome? p = some .ok
  onward : l.promises.Onward l'.promises

namespace Spares

variable {chunk : ChunkId} {l l' l'' : Loader}

theorem refl (h : l.cache.ticketOf? chunk = none) : Spares chunk l l where
  assets := rfl
  idle := h
  entry := fun _ => id
  attempts := rfl
  loads := fun _ x hx hk => ⟨x, hx, hk⟩
  answers := fun _ => .inl
  onward := .refl _

theorem trans (s : Spares chunk l l') (s' : Spares chunk l' l'') : Spares chunk l l'' where
  assets := s'.assets.trans s.assets
  idle := s'.idle
  entry := fun e he => s'.entry e (s.entry e he)
  attempts := s'.attempts.trans s.attempts
  loads := by
    intro a x hx hk
    obtain ⟨y, hy, hyk⟩ := s'.loads a x hx hk
    exact s.loads a y hy hyk
  answers := by
    intro p hp
    rcases s'.answers p hp with hp | hp
    · exact (s.answers p hp).imp_right (s'.onward.keep p .ok)
    · exact .inr hp
  onward := s.onward.trans s'.onward

/-- The chunk stays out of reach. -/
theorem barred (s : Spares chunk l l') (b : l.Barred chunk) : l'.Barred chunk := by
  refine ⟨s.idle, b.2.imp (fun hk => ?_) fun ha => by rw [s.assets]; exact ha⟩
  obtain ⟨e, he⟩ := Option.ne_none_iff_exists'.mp hk
  rw [s.entry e he]
  exact Option.some_ne_none e

/-- Entries, attempts and answers are as they were. -/
theorem beside (b : l.cache.ticketOf? chunk = none) (ha : l'.plan.hasAsset = l.plan.hasAsset)
    (he : l'.cache.entries = l.cache.entries) (hc : l'.cache.attempts = l.cache.attempts)
    (hat : l'.attempts = l.attempts) (hh : l'.handed = l.handed)
    (hp : l.promises.Onward l'.promises) : Spares chunk l l' where
  assets := ha
  idle := by unfold Cache.ticketOf? Cache.find? at b ⊢; rw [he]; exact b
  entry := by unfold Cache.find?; rw [he]; exact fun _ => id
  attempts := by unfold Cache.attemptsAt; rw [hc]
  loads := by rw [hat]; exact fun a x hx hk => ⟨x, hx, hk⟩
  answers := by rw [hh]; exact fun _ => .inl
  onward := hp

/-- The entries change, but not the one of the chunk. -/
theorem elsewhere (b : l.cache.ticketOf? chunk = none) (ha : l'.plan.hasAsset = l.plan.hasAsset)
    (he : l'.cache.find? chunk = l.cache.find? chunk)
    (hc : l'.cache.attemptsAt chunk = l.cache.attemptsAt chunk)
    (hat : l'.attempts = l.attempts) (hh : l'.handed = l.handed)
    (hp : l.promises.Onward l'.promises) : Spares chunk l l' where
  assets := ha
  idle := (Cache.ticketOf?_congr he).trans b
  entry := by rw [he]; exact fun _ => id
  attempts := hc
  loads := by rw [hat]; exact fun a x hx hk => ⟨x, hx, hk⟩
  answers := by rw [hh]; exact fun _ => .inl
  onward := hp

/-- A load begins for a chunk in flight, which is another one. -/
theorem begin (b : l.cache.ticketOf? chunk = none) {t : Ticket} {x : Attempt}
    (ht : l.cache.ticketOf? t.chunk = some t) (hx : x.chunk = t.chunk)
    (hat : l'.attempts = l.attempts.add x) (ha : l'.plan = l.plan) (hc : l'.cache = l.cache)
    (hh : l'.handed = l.handed) (hp : l'.promises = l.promises) : Spares chunk l l' where
  assets := by rw [ha]
  idle := by rw [hc]; exact b
  entry := by rw [hc]; exact fun _ => id
  attempts := by rw [hc]
  loads := by
    intro a y hy hk
    rw [hat, Table.get?_add] at hy
    split at hy
    · cases hy
      rw [hx] at hk
      rw [hk, b] at ht
      cases ht
    · exact ⟨y, hy, hk⟩
  answers := by rw [hh]; exact fun _ => .inl
  onward := by rw [hp]; exact .refl _

/-- The entry of a chunk in flight is replaced or dropped, which is another one. -/
theorem ended (b : l.cache.ticketOf? chunk = none) {t : Ticket} (h : l.cache.honours t = true)
    (hload : Bool) (ha : l'.plan = l.plan)
    (hc : l'.cache = if hload then l.cache.finish t.chunk else l.cache.drop t.chunk)
    (hat : l'.attempts = l.attempts) (hh : l'.handed = l.handed)
    (hp : l.promises.Onward l'.promises) : Spares chunk l l' := by
  have hne : chunk ≠ t.chunk := by
    rintro rfl
    rw [Cache.not_honours_of_ticketOf? b] at h
    cases h
  refine elsewhere b (by rw [ha]) ?_ ?_ hat hh hp
  · rw [hc, Cache.find?_ended, if_neg hne]
  · rw [hc]
    split <;> rfl

end Spares

variable {asked : ChunkId → Prop} {m : Move} {l l' : Loader} {chunk : ChunkId}

theorem Barred.mark (b : l.Barred chunk) (k : ChunkId) {e : Entry} (he : e.state ≠ .inFlight) :
    Spares chunk l (l.mark k e) where
  assets := rfl
  idle := (Cache.ticketOf?_mark _ _ _ he).trans b.1
  entry := fun _ h => Cache.find?_mark_of_some h e
  attempts := by
    unfold Loader.mark Cache.mark
    split <;> rfl
  loads := fun _ x hx hk => ⟨x, hx, hk⟩
  answers := fun _ => .inl
  onward := .refl _

theorem Change.spares (h : Change asked l l') (b : l.Barred chunk) : Spares chunk l l' := by
  have onward := h.onward
  cases h with
  | skipped k ho => exact b.mark k nofun
  | @joined k p h ho =>
    have hne : chunk ≠ k := by
      rintro rfl
      have hb := b.1
      rw [Cache.ticketOf?_eq_some.mpr ⟨p, h, rfl⟩] at hb
      cases hb
    refine .elsewhere b.1 rfl ?_ rfl rfl rfl onward
    rw [Cache.find?_join, if_neg hne]
  | kept h he ho =>
    obtain ⟨ready, hs⟩ := l.newPromise.1.settlePromise_eq l.newPromise.2 .ok
    rw [hs] at onward ⊢
    exact .beside b.1 rfl rfl rfl rfl rfl onward
  | @begun k h ho ha =>
    have hne : chunk ≠ k := by
      rintro rfl
      rcases b.2 with hk | hk
      · exact hk h
      · rw [ha] at hk
        cases hk
    refine .elsewhere b.1 rfl ?_ ?_ rfl rfl onward
    · rw [Cache.find?_begin, if_neg hne]
    · rw [Cache.attemptsAt_begin, if_neg hne]
  | @abandoned t h =>
    unfold abandon at onward ⊢
    split
    · rename_i hh
      exact .ended b.1 hh false rfl rfl rfl rfl (.refl _)
    · exact .refl b.1
  | @handed k p h ho =>
    refine ⟨rfl, b.1, fun _ => id, rfl, fun _ x hx hk => ⟨x, hx, hk⟩, fun q hq => ?_, onward⟩
    rcases List.mem_append.mp hq with hq | hq
    · exact .inl hq
    · cases List.mem_singleton.mp hq
      rcases h.2 with ⟨t, ht, -⟩ | hout
      · rw [b.1] at ht
        cases ht
      · exact .inr hout
  | created hc ht hw hr hf hb => exact .begin b.1 ht rfl rfl rfl rfl rfl rfl
  | adopted ht hf hl => exact .begin b.1 ht rfl rfl rfl rfl rfl rfl
  | found ht hf hl => exact .begin b.1 ht rfl rfl rfl rfl rfl rfl
  | @concluded a x ha hx e =>
    rw [detach_eq]
    refine ⟨rfl, b.1, fun _ => id, rfl, fun c y hy hk => ?_, fun _ => .inl, .refl _⟩
    rw [Table.get?_update] at hy
    split at hy
    · obtain ⟨z, hz, rfl⟩ := Option.map_eq_some_iff.mp hy
      exact ⟨z, hz, hk⟩
    · exact ⟨y, hy, hk⟩
  | @settled t h e =>
    obtain ⟨ready, log, hs⟩ := l.settleEntry_eq t e
    rw [hs] at onward ⊢
    exact .ended b.1 h e.isLoad rfl rfl rfl rfl onward
  | @aborted t h =>
    obtain ⟨o, ready, hs⟩ := l.abortEntry_eq t
    rw [hs] at onward ⊢
    exact .ended b.1 h false rfl rfl rfl rfl onward
  | _ => exact .beside b.1 rfl rfl rfl rfl rfl onward

theorem Act.spares (h : Act asked l m l') (hm : m.KeepsAssets l.plan.hasAsset)
    (b : l.Barred chunk) : Spares chunk l l' := by
  have inner : ∀ {l₁ : Loader}, Inner l l₁ → l.promises.Onward l₁.promises →
      Spares chunk l l₁ := by
    rintro l₁ ⟨_, _, _, rfl⟩ ho
    exact .beside b.1 rfl rfl rfl rfl rfl ho
  have outer : ∀ {l₁ : Loader}, Outer l l₁ → Spares chunk l l₁ := by
    rintro l₁ ⟨_, _, _, rfl⟩
    exact .beside b.1 rfl rfl rfl rfl rfl (.refl _)
  have onward := h.onward.1
  cases h with
  | work h => exact h.spares b
  | marked k he => exact b.mark k he
  | attached h => exact outer (l.outer_attach h)
  | removed h => exact outer (l.outer_remove h)
  | cancelled p => exact inner (l.inner_cancelPromise p) onward
  | taskCancelled t => exact inner (l.inner_cancelTask t) onward
  | @told t p rest h => exact inner (l.inner_childSettled rest t p) onward
  | @woken t rest h => exact inner (l.inner_wakeTask rest t) onward
  | @awaited t chunks ps h hp => exact inner (l.inner_await t ps) onward
  | replanned resolve hasAsset => exact .beside b.1 hm rfl rfl rfl rfl onward
  | _ => exact .beside b.1 rfl rfl rfl rfl rfl onward

theorem Acts.spares (h : Acts asked m l l') (hm : m.KeepsAssets l.plan.hasAsset)
    (b : l.Barred chunk) : Spares chunk l l' := by
  induction h with
  | refl => exact .refl b.1
  | tail _ act ih => exact ih.trans (act.spares (by rw [ih.assets]; exact hm) (ih.barred b))

/-- Which chunks have anything to fetch is asked of the user, and only a new answer changes it. -/
theorem Act.assets (h : Act asked l m l') (hm : m.KeepsAssets l.plan.hasAsset) :
    l'.plan.hasAsset = l.plan.hasAsset := by
  have inner : ∀ {l₁ : Loader}, Inner l l₁ → l₁.plan.hasAsset = l.plan.hasAsset := by
    rintro l₁ ⟨_, _, _, rfl⟩
    rfl
  have outer : ∀ {l₁ : Loader}, Outer l l₁ → l₁.plan.hasAsset = l.plan.hasAsset := by
    rintro l₁ ⟨_, _, _, rfl⟩
    rfl
  cases h with
  | work h => rw [h.grows.plan]
  | attached h => exact outer (l.outer_attach h)
  | removed h => exact outer (l.outer_remove h)
  | cancelled p => exact inner (l.inner_cancelPromise p)
  | taskCancelled t => exact inner (l.inner_cancelTask t)
  | @told t p rest h => exact inner (l.inner_childSettled rest t p)
  | @woken t rest h => exact inner (l.inner_wakeTask rest t)
  | @awaited t chunks ps h hp => exact inner (l.inner_await t ps)
  | replanned resolve hasAsset => exact hm
  | _ => rfl

/-! ## §2 Requests -/

/-- No attempt, load, handle, fetch or watchdog is new or gone, and no other entry is either. -/
structure Unfetched (chunk : ChunkId) (l l' : Loader) : Prop where
  others : ∀ k, k ≠ chunk → l'.cache.find? k = l.cache.find? k
  numbers : l'.cache.attempts = l.cache.attempts
  attempts : l'.attempts = l.attempts
  active : l'.active = l.active
  watchdogs : l'.watchdogs = l.watchdogs
  handles : l'.handles = l.handles
  registry : l'.registry = l.registry
  fetches : l'.fetches = l.fetches

/-- The sink refuses to count a request that is answered at once. -/
def HitRefused (l : Loader) : Prop :=
  (l.count requestsTotal ("result", "hit")).2 ≠ none

/-- A request for a chunk with a final entry is answered with a kept promise, if it is counted. -/
theorem serve_of_known {e : Entry} (hf : l.cache.find? chunk = some e)
    (he : e.state ≠ .inFlight) :
    ∃ l' answer, l.serve chunk = (l', answer) ∧ Unfetched chunk l l' ∧
      ((∃ p, answer = .ok (p, none) ∧ l'.promises.outcome? p = some .ok) ∨
        (∃ f, answer = .error f) ∧ l.HitRefused) := by
  have hf' : { l.cache with used := true }.find? chunk = some e := hf
  obtain ⟨sink, refusal, hc⟩ := count_eq
    { l with cache := { l.cache with used := true } } requestsTotal ("result", "hit")
  have same : (l.count requestsTotal ("result", "hit")).2 = refusal := congrArg Prod.snd hc
  cases refusal with
  | some f =>
    refine ⟨{ l with cache := { l.cache with used := true }, sink }, .error f, ?_,
      ⟨fun _ _ => rfl, rfl, rfl, rfl, rfl, rfl, rfl, rfl⟩,
      .inr ⟨⟨f, rfl⟩, by simp [HitRefused, same]⟩⟩
    cases e with
    | inFlight p => exact absurd rfl he
    | _ => simp only [serve, hf', hc]
  | none =>
    obtain ⟨ready, hs⟩ := settlePromise_eq
      { l with
        cache := { l.cache with used := true }
        promises := l.promises.create.1
        sink } l.promises.create.2 .ok
    refine ⟨{ l with
        cache := { l.cache with used := true }
        promises := l.promises.create.1.settle l.promises.create.2 .ok
        sink
        ready }, .ok (l.promises.create.2, none), ?_, ?_, .inl ⟨l.promises.create.2, rfl, ?_⟩⟩
    · rw [← hs]
      cases e with
      | inFlight p => exact absurd rfl he
      | _ => simp only [serve, hf', hc]; rfl
    · exact ⟨fun _ _ => rfl, rfl, rfl, rfl, rfl, rfl, rfl, rfl⟩
    · exact Promises.outcome?_settle_of_isPending l.promises.isPending_created _

/-- Wherever in its work a loader takes in a request for a chunk for which nothing is fetched. -/
theorem Barred.request (b : l.Barred chunk) :
    ∃ l' answer, l.request chunk = (l', answer) ∧ Unfetched chunk l l' ∧
      ((∃ p, answer = .ok (p, none) ∧ l'.promises.outcome? p = some .ok) ∨
        (∃ f, answer = .error f) ∧ (l.closed = true ∨ l.HitRefused)) := by
  have served : ∀ {l₁ : Loader} {e : Entry}, Unfetched chunk l l₁ → l₁.sink = l.sink →
      l₁.cache.find? chunk = some e → e.state ≠ .inFlight →
      ∃ l' answer, l₁.serve chunk = (l', answer) ∧ Unfetched chunk l l' ∧
        ((∃ p, answer = .ok (p, none) ∧ l'.promises.outcome? p = some .ok) ∨
          (∃ f, answer = .error f) ∧ (l.closed = true ∨ l.HitRefused)) := by
    intro l₁ e u hsink hf he
    obtain ⟨l', answer, hs, u', how⟩ := serve_of_known hf he
    refine ⟨l', answer, hs, ?_, how.imp_right fun h => ⟨h.1, .inr ?_⟩⟩
    · exact ⟨fun k hk => (u'.others k hk).trans (u.others k hk), u'.numbers.trans u.numbers,
        u'.attempts.trans u.attempts, u'.active.trans u.active, u'.watchdogs.trans u.watchdogs,
        u'.handles.trans u.handles, u'.registry.trans u.registry, u'.fetches.trans u.fetches⟩
    · have hr := h.2
      unfold HitRefused count at hr ⊢
      rw [hsink] at hr
      exact hr
  have final : ∀ {l₁ : Loader} {e : Entry}, l₁.cache.ticketOf? chunk = none →
      l₁.cache.find? chunk = some e → e.state ≠ .inFlight := by
    intro l₁ e ht hf he
    cases e with
    | skipped => cases he
    | loaded => cases he
    | inFlight p =>
      rw [Cache.ticketOf?_eq_some.mpr ⟨p, hf, rfl⟩] at ht
      cases ht
  have same : Unfetched chunk l l := ⟨fun _ _ => rfl, rfl, rfl, rfl, rfl, rfl, rfl, rfl⟩
  unfold Loader.request
  split
  · rename_i hcl
    exact ⟨l, .error .closed, rfl, same, .inr ⟨⟨_, rfl⟩, .inl hcl⟩⟩
  · split
    · rename_i ha
      rcases b.2 with hk | hk
      · obtain ⟨e, he⟩ := Option.ne_none_iff_exists'.mp hk
        exact served same rfl he (final b.1 he)
      · rw [ha] at hk
        cases hk
    · have marked : Unfetched chunk l (l.mark chunk .skipped) := by
        refine ⟨fun k hk => ?_, ?_, rfl, rfl, rfl, rfl, rfl, rfl⟩
        · exact (Cache.find?_mark ..).trans (if_neg hk)
        · unfold Loader.mark Cache.mark
          split <;> rfl
      have known : (l.mark chunk .skipped).cache.find? chunk =
          some ((l.cache.find? chunk).getD .skipped) :=
        (Cache.find?_mark ..).trans (if_pos rfl)
      exact served marked rfl known
        (final ((Cache.ticketOf?_mark _ _ _ (by simp [Entry.state])).trans b.1) known)

end Loader

/-! ## §3 Uses -/

namespace Run

/-- What requests for a chunk come to for which nothing is fetched. -/
structure HitsAtOnce (r : Run) (chunk : ChunkId) : Prop where
  unfetched : Loader.Unfetched chunk r.loader (r.step (.invoke (.request chunk))).loader
  silent : (r.step (.invoke (.request chunk))).calls = r.calls
  /-- It is refused, by a loader that was shut down or by the sink, or it has a kept promise. -/
  answer :
    (r.step (.invoke (.request chunk))).answers = r.answers ∧
        (r.loader.closed = true ∨ r.loader.HitRefused) ∨
      ∃ p, (r.step (.invoke (.request chunk))).answers = r.answers ++ [.promise p] ∧
        (r.step (.invoke (.request chunk))).loader.promises.outcome? p = some .ok
  /-- Nor does a request that a task makes in the middle of a move start an attempt. -/
  midway : ∀ m l, m.KeepsAssets r.loader.plan.hasAsset →
    Loader.Acts (fun _ => True) m r.loader l → ∀ p t, (l.request chunk).2 ≠ .ok (p, some t)

theorem hitsAtOnce {r : Run} {chunk : ChunkId} (b : r.loader.Barred chunk) :
    r.HitsAtOnce chunk := by
  have midway : ∀ m l, m.KeepsAssets r.loader.plan.hasAsset →
      Loader.Acts (fun _ => True) m r.loader l → ∀ p t, (l.request chunk).2 ≠ .ok (p, some t) := by
    intro m l hm acts p t hreq
    obtain ⟨l', answer, hl, -, ⟨q, rfl, -⟩ | ⟨⟨f, rfl⟩, -⟩⟩ := ((acts.spares hm b).barred b).request
    · rw [hl] at hreq
      cases hreq
    · rw [hl] at hreq
      cases hreq
  obtain ⟨l', answer, hreq, u, ⟨p, rfl, hout⟩ | ⟨⟨f, rfl⟩, hwhy⟩⟩ := b.request
  · have hstep : r.step (.invoke (.request chunk)) =
        { r with loader := l'.hand chunk p, answers := r.answers ++ [.promise p] } := by
      simp [step, Loader.invoke, hreq, Loader.atOnce, Loader.drive, after]
    refine ⟨?_, ?_, .inr ⟨p, ?_, ?_⟩, midway⟩
    · rw [hstep]
      exact ⟨u.others, u.numbers, u.attempts, u.active, u.watchdogs, u.handles, u.registry,
        u.fetches⟩
    · rw [hstep]
    · rw [hstep]
    · rw [hstep]
      exact hout
  · have hstep : r.step (.invoke (.request chunk)) = { r with loader := l' } := by
      simp [step, Loader.invoke, hreq]
    refine ⟨?_, ?_, .inl ⟨?_, hwhy⟩, midway⟩
    · rw [hstep]
      exact u
    · rw [hstep]
    · rw [hstep]

/-- Whatever is done to a whole loader, what was out of reach is left alone. -/
theorem Rested.spares {hasAsset : ChunkId → Bool} {chunk : ChunkId} {r r' : Run}
    (h : r.Rested fun _ => True) (ha : r.loader.plan.hasAsset = hasAsset)
    (b : r.loader.Barred chunk)
    (hr : Reachable (fun _ m => m.Outer ∧ m.KeepsAssets hasAsset) r r') :
    Loader.Spares chunk r.loader r'.loader := by
  refine (Rested.of_reachable (I := Loader.Spares chunk r.loader)
    (fun _ m hm => ⟨hm.1, m.asks_all⟩) (fun _ m hm l l' _ act s => ?_) h (.refl b.1) hr).2
  refine s.trans (act.spares ?_ (s.barred b))
  rw [s.assets, ha]
  exact hm.2

/--
A chunk that is loaded or skipped stays so, and nothing is fetched for it from then on: requests
for it are answered with kept promises, unless they are refused. Nothing is ever fetched for a chunk
that has nothing to fetch.
-/
theorem absorbing {policy : Policy} {resolve : ChunkId → Except Fault String}
    {hasAsset : ChunkId → Bool} {installed : List (ChunkId × String)} {cache : Cache}
    {registry : Registry} {sink : Metrics.Sink} {r : Run}
    (hc : Cache.seed installed = .ok cache)
    (hr : Reachable (fun _ m => m.Outer ∧ m.KeepsAssets hasAsset)
      { loader := .whole policy resolve hasAsset cache registry sink } r) :
    (∀ chunk s, r.loader.cache.state chunk = s → s = .loaded ∨ s = .skipped →
      ∀ r', Reachable (fun _ m => m.Outer ∧ m.KeepsAssets hasAsset) r r' →
        r'.loader.cache.state chunk = s ∧ Loader.Spares chunk r.loader r'.loader ∧
          r'.HitsAtOnce chunk) ∧
      ∀ chunk, hasAsset chunk = false →
        r.loader.cache.state chunk ≠ .inFlight ∧ r.loader.cache.attemptsAt chunk = 0 ∧
          (∀ a x, r.loader.attempts.get? a = some x → x.chunk ≠ chunk) ∧ r.HitsAtOnce chunk := by
  have opened := Rested.opened (fun _ => True) policy resolve hasAsset hc registry sink
  obtain ⟨rested, assets⟩ := Rested.of_reachable
    (I := fun l => l.plan.hasAsset = hasAsset) (fun _ m hm => ⟨hm.1, m.asks_all⟩)
    (fun _ m hm l l' _ act (ha : l.plan.hasAsset = hasAsset) =>
      (act.assets (by rw [ha]; exact hm.2)).trans ha) opened rfl hr
  obtain ⟨-, tickets, untried⟩ := Cache.seed_spec hc
  refine ⟨fun chunk s hs hfinal r' hr' => ?_, fun chunk hk => ?_⟩
  · obtain ⟨e, he, rfl⟩ : ∃ e, r.loader.cache.find? chunk = some e ∧ e.state = s := by
      unfold Cache.state at hs
      split at hs
      · exact ⟨_, ‹_›, hs⟩
      · rcases hfinal with rfl | rfl <;> cases hs
    have barred : r.loader.Barred chunk := by
      refine ⟨?_, .inl (by rw [he]; exact Option.some_ne_none e)⟩
      unfold Cache.ticketOf?
      rw [he]
      cases e with
      | inFlight p => rcases hfinal with h | h <;> cases h
      | _ => rfl
    have spares := rested.spares assets barred hr'
    refine ⟨?_, spares, hitsAtOnce (spares.barred barred)⟩
    unfold Cache.state
    rw [spares.entry e he]
  · have barred : Loader.Barred (.whole policy resolve hasAsset cache registry sink) chunk :=
      ⟨tickets chunk, .inr hk⟩
    have spares := opened.spares rfl barred hr
    refine ⟨fun hs => ?_, ?_, fun a x hx hxk => ?_, hitsAtOnce (spares.barred barred)⟩
    · obtain ⟨t, ht⟩ := Cache.state_eq_inFlight.mp hs
      rw [spares.idle] at ht
      cases ht
    · rw [spares.attempts]
      simp [Loader.whole, Cache.attemptsAt, untried, Pairs.get?]
    · obtain ⟨y, hy, -⟩ := spares.loads a x hx hxk
      simp [Loader.whole, Table.get?] at hy

/--
A chunk is loaded; then its handle fails, a failure is reported for it, and it is requested again.
Another chunk has nothing to fetch.
-/
theorem absorbing_of_stale_signals :
    let opened : Run :=
      { loader := .whole {} (fun _ => .ok "/a.css") (fun k => decide (k ≠ .name "plain")) {}
          (.document [] 0) .silent }
    let r := opened.steps
      [.invoke (.request (.name "a")), .invoke (.request (.name "plain")),
        .invoke (.dispatch 0 "load")]
    let r' := r.steps
      [.invoke (.dispatch 0 "error"), .invoke (.report (.name "a") { type := "timeout" }),
        .invoke (.request (.name "a"))]
    r.loader.cache.state (.name "a") = .loaded ∧ r'.loader.cache.state (.name "a") = .loaded ∧
      r'.HitsAtOnce (.name "a") ∧ r.loader.cache.attemptsAt (.name "plain") = 0 ∧
        r'.answers.length = 6 := by
  intro opened r r'
  have hc : Cache.seed [] = .ok {} := rfl
  have hr : Reachable
      (fun _ m => m.Outer ∧ m.KeepsAssets fun k => decide (k ≠ .name "plain")) opened r := by
    refine Reachable.start.steps _ fun s m hm => ?_
    simp only [List.mem_cons, List.not_mem_nil, or_false] at hm
    rcases hm with rfl | rfl | rfl
    · exact ⟨trivial, trivial⟩
    · exact ⟨trivial, trivial⟩
    · exact ⟨trivial, trivial⟩
  have hr' : Reachable
      (fun _ m => m.Outer ∧ m.KeepsAssets fun k => decide (k ≠ .name "plain")) r r' := by
    refine Reachable.start.steps _ fun s m hm => ?_
    simp only [List.mem_cons, List.not_mem_nil, or_false] at hm
    rcases hm with rfl | rfl | rfl
    · exact ⟨trivial, trivial⟩
    · exact ⟨trivial, trivial⟩
    · exact ⟨trivial, trivial⟩
  have loaded : r.loader.cache.state (.name "a") = .loaded := by decide
  obtain ⟨hfinal, hnever⟩ := absorbing hc hr
  obtain ⟨hstill, -, hhits⟩ := hfinal _ _ loaded (.inl rfl) r' hr'
  exact ⟨loaded, hstill, hhits, (hnever (.name "plain") (by decide)).2.1, by decide⟩

end Run

end SingleFlight
