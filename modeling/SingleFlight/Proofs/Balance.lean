/-
SingleFlight.Proofs.Balance — counters that are kept like books.

A whole loader counts requests, handles and outcomes, each in another function.
What a tally holds of them can be read off the loader: how many attempts were
begun and how many loads, how many handles the document has got by being
attached, how many loads have ended. Only two things the loader forgets, so they
are carried along: how many requests there were, and how many of the attempts
begun never got a load because their address was refused.

* `Tally.Reads` — what a tally holds of a loader's counters; one law per counter.
* `Loader.Balanced` — the tally agrees with the loader, in the course of a move
  whose signals all have one type; by `Page.endedBy`, outcomes of that type and ended
  loads grow together.
* `Loader.Unbooked` — a change that the books do not notice.
* `Balanced.conclude`, `Balanced.serve`, `Balanced.load` — the changes that they do.
* `Balanced.signal`, `Balanced.start`, `Balanced.collect`, `Balanced.drive` — the pieces of
  work. `Loader.reached` lists the requests that a task makes.
-/
import SingleFlight.Proofs.Fetches
import SingleFlight.Proofs.Uses

namespace SingleFlight

/-! ## §1 Sums -/

namespace Table

variable {α : Type}

/-- How many rows have a property. -/
def count (t : Table α) (p : α → Bool) : Nat :=
  t.rows.countP p

theorem count_add (t : Table α) (a : α) (p : α → Bool) :
    (t.add a).count p = t.count p + if p a then 1 else 0 := by
  simp [count, add, List.countP_append, List.countP_singleton]

/-- A row gets a property that it did not have. -/
theorem count_update {t : Table α} {i : Nat} {a : α} (h : t.get? i = some a) {f : α → α}
    {p : α → Bool} (hn : p a = false) (hp : p (f a) = true) :
    (t.update i f).count p = t.count p + 1 := by
  obtain ⟨rows⟩ := t
  simp only [count, update, get?] at h ⊢
  induction rows generalizing i with
  | nil => cases h
  | cons b bs ih =>
    cases i with
    | zero =>
      cases h
      simp [hn, hp]
    | succ i =>
      simp only [List.modify_succ_cons, List.countP_cons]
      rw [ih h]
      exact Nat.add_right_comm ..

/-- Rows can be counted by their numbers. -/
theorem count_eq_range (t : Table α) (p : α → Bool) {n : Nat} (hn : t.size ≤ n) :
    t.count p = (List.range n).countP fun i => (t.get? i).any p := by
  obtain ⟨rows⟩ := t
  simp only [count, get?, size] at hn ⊢
  induction n generalizing rows with
  | zero => simp [List.length_eq_zero_iff.mp (Nat.le_zero.mp hn)]
  | succ n ih =>
    cases rows with
    | nil => simp
    | cons b bs =>
      rw [List.range_succ_eq_map, List.countP_cons, List.countP_cons, List.countP_map,
        ih bs (by simpa using hn)]
      rfl

end Table

namespace Metrics.Tally

open Loader (requestsTotal handlesTotal outcomesTotal)

/-- What a tally holds of the counters of a loader. -/
structure Reads (t : Tally) (requests starts handles created outcomes : Nat)
    (ended : String → Int) : Prop where
  requests : t.total requestsTotal = requests
  starts : t.get requestsTotal [("result", "start")] = starts
  handles : t.total handlesTotal = handles
  created : t.get handlesTotal [("mode", "created")] = created
  outcomes : t.total outcomesTotal = outcomes
  ended : ∀ type, t.get outcomesTotal [("outcome", type)] = ended type

namespace Reads

variable {t : Tally} {requests starts handles created outcomes : Nat} {ended : String → Int}

/-- No two counters of a loader have one name. -/
theorem names :
    requestsTotal ≠ handlesTotal ∧ requestsTotal ≠ outcomesTotal ∧
      handlesTotal ≠ outcomesTotal := by
  decide

theorem request (h : t.Reads requests starts handles created outcomes ended) (result : String) :
    (t.add requestsTotal 1 [("result", result)]).Reads (requests + 1)
      (starts + if "start" = result then 1 else 0) handles created outcomes ended := by
  obtain ⟨hh, ho, -⟩ := names
  constructor
  · rw [total_add, h.requests, if_pos rfl]
    rfl
  · rw [get_add, h.starts]
    by_cases hr : "start" = result <;> simp [hr]
  · rw [total_add, h.handles, if_neg hh, add_zero]
  · rw [get_add, h.created, if_neg fun e => hh e.1.symm, add_zero]
  · rw [total_add, h.outcomes, if_neg ho, add_zero]
  · intro type
    rw [get_add, h.ended, if_neg fun e => ho e.1.symm, add_zero]

theorem handle (h : t.Reads requests starts handles created outcomes ended) (mode : String) :
    (t.add handlesTotal 1 [("mode", mode)]).Reads requests starts (handles + 1)
      (created + if "created" = mode then 1 else 0) outcomes ended := by
  obtain ⟨hr, -, ho⟩ := names
  constructor
  · rw [total_add, h.requests, if_neg hr.symm, add_zero]
  · rw [get_add, h.starts, if_neg fun e => hr e.1, add_zero]
  · rw [total_add, h.handles, if_pos rfl]
    rfl
  · rw [get_add, h.created]
    by_cases hm : "created" = mode <;> simp [hm]
  · rw [total_add, h.outcomes, if_neg ho, add_zero]
  · intro type
    rw [get_add, h.ended, if_neg fun e => ho e.1.symm, add_zero]

theorem outcome (h : t.Reads requests starts handles created outcomes ended) (type : String) :
    (t.add outcomesTotal 1 [("outcome", type)]).Reads requests starts handles created
      (outcomes + 1) fun other => ended other + if other = type then 1 else 0 := by
  obtain ⟨-, hr, hh⟩ := names
  constructor
  · rw [total_add, h.requests, if_neg hr.symm, add_zero]
  · rw [get_add, h.starts, if_neg fun e => hr e.1, add_zero]
  · rw [total_add, h.handles, if_neg hh.symm, add_zero]
  · rw [get_add, h.created, if_neg fun e => hh e.1, add_zero]
  · rw [total_add, h.outcomes, if_pos rfl]
    rfl
  · intro other
    rw [get_add, h.ended]
    simp

end Reads

end Metrics.Tally

/-! ## §2 The books of a loader -/

/-- How many attempts were begun, at all chunks together. -/
def Cache.begun (c : Cache) : Nat :=
  (c.attempts.map (·.2)).sum

/-- The numbers of attempts at all chunks add up to that. -/
theorem Cache.finsum_attemptsAt {c : Cache} (h : c.attempts.keys.Nodup) :
    ∑ᶠ chunk, c.attemptsAt chunk = c.begun := by
  have listed : Function.support c.attemptsAt ⊆ ↑c.attempts.keys.toFinset := by
    intro chunk hn
    rw [Function.mem_support, attemptsAt] at hn
    cases hget : c.attempts.get? chunk with
    | none => simp [hget] at hn
    | some n =>
      exact List.mem_toFinset.mpr (List.mem_map_of_mem (f := Prod.fst) (Pairs.mem_of_get? hget))
  have values : c.attempts.keys.map c.attemptsAt = c.attempts.map (·.2) := by
    rw [Pairs.keys, List.map_map]
    refine List.map_congr_left fun p hp => ?_
    simp only [Function.comp, attemptsAt, Pairs.get?_of_mem h (show (p.1, p.2) ∈ _ from hp),
      Option.getD_some]
  rw [finsum_eq_sum_of_support_subset _ listed, List.sum_toFinset _ h, values, begun]

theorem Cache.begun_begin (c : Cache) (chunk : ChunkId) (p : PromiseId) :
    (c.begin chunk p).1.begun = c.begun + 1 := by
  have grown := Pairs.sum_put_add (fun _ => true) c.attempts chunk 1
  simpa [begun, begin, attemptsAt] using grown

namespace Registry

/-- How many handles a document has got by being attached to it. -/
def attached : Registry → Nat
  | document _ n => n
  | keyed _ _ => 0

variable (r : Registry) (h : HandleId) (url : String)

theorem attached_attach (hr : r.fetches = false) :
    (r.attach h url).attached = r.attached + 1 := by
  cases r with
  | document hs n => rfl
  | keyed entries client => cases hr

theorem attached_plant : (r.plant h url).attached = r.attached := by
  cases r <;> rfl

theorem fetches_plant : (r.plant h url).fetches = r.fetches := by
  cases r <;> rfl

theorem attached_remove : (r.remove h url).attached = r.attached := by
  cases r with
  | document hs n => rfl
  | keyed entries client =>
    unfold remove
    dsimp only
    split <;> rfl

theorem attached_shut : r.shut.attached = r.attached := by
  cases r <;> rfl

end Registry

namespace Loader

open Metrics (Tally)

/-- How many loads have ended. -/
def ended (l : Loader) : Nat :=
  l.attempts.count (·.settled)

/-- A tally takes every count. -/
theorem count_tally {l : Loader} {t : Tally} (h : l.sink = .tally t) (name : String)
    (tag : String × String) :
    l.count name tag = ({ l with sink := .tally (t.add name 1 [tag]) }, none) := by
  unfold count
  rw [h]
  rfl

/-- Loads stay, and those that have ended stay so. -/
def Ages (l l' : Loader) : Prop :=
  ∀ a x, l.attempts.get? a = some x →
    ∃ y, l'.attempts.get? a = some y ∧ (x.settled = true → y.settled = true)

/-- What a move starts from: its loader, and how many loads had ended by each type of signal. -/
structure Page where
  start : Loader
  ended : String → Nat
  /-- The type of the signals by which the move ends loads, if it ends any. -/
  type : Option String

/-- How many loads have ended by signals of a type, in the course of a move. -/
def Page.endedBy (p : Page) (l : Loader) (type : String) : Int :=
  p.ended type + if p.type = some type then (l.ended : Int) - p.start.ended else 0

/--
The tally agrees with the loader. So many requests have reached the cache, and so many of the
attempts begun have no load.
-/
structure Balanced (p : Page) (l : Loader) (requests loadless : Nat) : Prop where
  tallied : ∃ t, l.sink = .tally t ∧
    t.Reads requests l.cache.begun l.attempts.size l.registry.attached l.ended (p.endedBy l)
  begun : l.cache.begun = l.attempts.size + loadless
  single : l.cache.attempts.keys.Nodup
  listed : l.registry.fetches = false
  wired : ∃ resolve, l.plan.wiring = .fetch resolve
  ages : p.start.Ages l
  /-- A move without such signals ends no load. -/
  endless : p.type = none → l.ended = p.start.ended

/-- A change that the books do not notice. -/
structure Unbooked (l l' : Loader) : Prop where
  sink : l'.sink = l.sink
  begun : l'.cache.attempts = l.cache.attempts
  attempts : l'.attempts = l.attempts
  attached : l'.registry.attached = l.registry.attached
  fetches : l'.registry.fetches = l.registry.fetches
  wired : (∃ resolve, l.plan.wiring = .fetch resolve) → ∃ resolve, l'.plan.wiring = .fetch resolve

variable {p : Page} {l l' : Loader} {requests loadless : Nat}

namespace Unbooked

theorem refl (l : Loader) : Unbooked l l :=
  ⟨rfl, rfl, rfl, rfl, rfl, id⟩

theorem trans {l'' : Loader} (s : Unbooked l l') (s' : Unbooked l' l'') : Unbooked l l'' where
  sink := s'.sink.trans s.sink
  begun := s'.begun.trans s.begun
  attempts := s'.attempts.trans s.attempts
  attached := s'.attached.trans s.attached
  fetches := s'.fetches.trans s.fetches
  wired := s'.wired ∘ s.wired

/-- Only entries, promises, handles, tasks, the event loop and the log change. -/
theorem beside (hs : l'.sink = l.sink) (hc : l'.cache.attempts = l.cache.attempts)
    (ha : l'.attempts = l.attempts) (hr : l'.registry = l.registry) (hp : l'.plan = l.plan) :
    Unbooked l l' :=
  ⟨hs, hc, ha, by rw [hr], by rw [hr], by rw [hp]; exact id⟩

theorem note (l : Loader) (source : LogSource) (level : LogLevel) (text : String) :
    Unbooked l (l.note source level text) :=
  .beside rfl rfl rfl rfl rfl

theorem noteStart (l : Loader) (t : Ticket) : Unbooked l (l.noteStart t) :=
  note ..

theorem hand (l : Loader) (chunk : ChunkId) (p : PromiseId) : Unbooked l (l.hand chunk p) :=
  .beside rfl rfl rfl rfl rfl

theorem endTask (l : Loader) (t : TaskId) (r : TaskEnd) : Unbooked l (l.endTask t r) :=
  .beside rfl rfl rfl rfl rfl

theorem inner (h : Inner l l') : Unbooked l l' := by
  obtain ⟨_, _, _, rfl⟩ := h
  exact .beside rfl rfl rfl rfl rfl

theorem settlePromise (l : Loader) (p : PromiseId) (o : Outcome) :
    Unbooked l (l.settlePromise p o) := by
  obtain ⟨ready, h⟩ := l.settlePromise_eq p o
  rw [h]
  exact .beside rfl rfl rfl rfl rfl

/-- A request for a chunk with a final entry. -/
theorem keep (l : Loader) :
    Unbooked l (l.newPromise.1.settlePromise l.newPromise.2 .ok) := by
  have made : Unbooked l l.newPromise.1 := .beside rfl rfl rfl rfl rfl
  exact made.trans (settlePromise _ _ _)

theorem abandon (l : Loader) (t : Ticket) : Unbooked l (l.abandon t) := by
  unfold Loader.abandon
  split
  · exact .beside rfl rfl rfl rfl rfl
  · exact refl l

theorem mark (l : Loader) (chunk : ChunkId) (e : Entry) : Unbooked l (l.mark chunk e) := by
  refine .beside rfl ?_ rfl rfl rfl
  unfold Loader.mark Cache.mark
  dsimp only
  split <;> rfl

theorem settleEntry (l : Loader) (t : Ticket) (e : LoadEvent) :
    Unbooked l (l.settleEntry t e) := by
  obtain ⟨ready, log, h⟩ := l.settleEntry_eq t e
  rw [h]
  refine .beside rfl ?_ rfl rfl rfl
  cases e.isLoad <;> rfl

theorem redeem (l : Loader) (t : Ticket) (e : LoadEvent) : Unbooked l (l.redeem t e) := by
  unfold Loader.redeem
  split
  · exact settleEntry l t e
  · exact note ..

theorem remove (l : Loader) (h : HandleId) : Unbooked l (l.remove h) := by
  unfold Loader.remove
  split
  · exact refl l
  · exact ⟨rfl, rfl, rfl, Registry.attached_remove .., Registry.fetches_remove .., id⟩

theorem plant (l : Loader) (handle : Handle) : Unbooked l (l.plant handle).1 :=
  ⟨rfl, rfl, rfl, Registry.attached_plant .., Registry.fetches_plant .., id⟩

theorem closeCache (l : Loader) : Unbooked l l.closeCache := by
  obtain ⟨cache, promises, ready, h, -, hat, -⟩ := foldl_abortEntry l.cache.inFlight l
  unfold Loader.closeCache
  rw [h]
  exact .beside rfl hat rfl rfl rfl

theorem unloads (h : Unloads l l') : Unbooked l l' := by
  obtain ⟨fetches, closings, registry, jobs, rfl, hr, -, -⟩ := h
  rcases hr with rfl | rfl
  · exact .beside rfl rfl rfl rfl rfl
  · exact ⟨rfl, rfl, rfl, Registry.attached_shut _, Registry.fetches_shut _, id⟩

theorem replan (l : Loader) (resolve : ChunkId → Except Fault String)
    (hasAsset : ChunkId → Bool) : Unbooked l (l.replan resolve hasAsset) where
  sink := rfl
  begun := rfl
  attempts := rfl
  attached := rfl
  fetches := rfl
  wired := by
    rintro ⟨resolve', hw⟩
    exact ⟨resolve, by simp [Loader.replan, hw]⟩

end Unbooked

namespace Balanced

theorem unbooked (b : Balanced p l requests loadless) (s : Unbooked l l') :
    Balanced p l' requests loadless := by
  obtain ⟨t, ht, reads⟩ := b.tallied
  have begun : l'.cache.begun = l.cache.begun := by simp only [Cache.begun, s.begun]
  have ended : l'.ended = l.ended := by simp only [Loader.ended, s.attempts]
  refine ⟨⟨t, s.sink.trans ht, ?_⟩, ?_, ?_, s.fetches.trans b.listed, s.wired b.wired, ?_,
    fun hn => ended.trans (b.endless hn)⟩
  · rw [begun, s.attempts, s.attached, ended]
    exact { reads with ended := fun type => by rw [Page.endedBy, ended]; exact reads.ended type }
  · rw [begun, s.attempts]
    exact b.begun
  · rw [s.begun]
    exact b.single
  · unfold Ages
    rw [s.attempts]
    exact b.ages

/-! ### What is counted -/

theorem steady (b : Balanced p l requests loadless) : l.sink.Steady := by
  obtain ⟨t, ht, -⟩ := b.tallied
  rw [ht]
  exact Metrics.Sink.steady_tally t

/-- A load ends, and is counted under the type of the signal. -/
theorem conclude (b : Balanced p l requests loadless) {a : AttemptId} {x : Attempt}
    (ha : l.attempts.get? a = some x) (hx : x.settled = false) {e : LoadEvent}
    (he : p.type = some e.type) :
    ∃ l', l.conclude a x e = (l', none) ∧ Balanced p l' requests loadless := by
  obtain ⟨t, ht, reads⟩ := b.tallied
  obtain ⟨log, hcon⟩ := conclude_counted b.steady a x e
  have ended : (l.attempts.update a ({ · with settled := true })).count (·.settled) =
      l.ended + 1 := Table.count_update ha hx rfl
  have attached : (l.registryAfter x.handle e).attached = l.registry.attached := by
    unfold registryAfter
    split
    · rfl
    · exact (Unbooked.remove l x.handle).attached
  refine ⟨_, hcon, ⟨t.add outcomesTotal 1 [("outcome", e.type)], by rw [ht]; rfl, ?_⟩, ?_,
    b.single, ?_, b.wired, ?_, fun hn => absurd (hn.symm.trans he) nofun⟩
  · dsimp only
    rw [Table.size_update, attached]
    simp only [Loader.ended, ended]
    refine { reads.outcome e.type with ended := fun type => ?_ }
    rw [(reads.outcome e.type).ended]
    simp only [Page.endedBy, Loader.ended, ended, he, Option.some.injEq]
    by_cases htype : e.type = type
    · subst htype
      simp only [if_true, Nat.cast_add, Nat.cast_one]
      ring
    · rw [if_neg htype, if_neg htype, if_neg fun h => htype h.symm]
      ring
  · rw [Table.size_update]
    exact b.begun
  · exact (fetches_registryAfter l x.handle e).trans b.listed
  · intro c y hc
    obtain ⟨z, hz, hs⟩ := b.ages c y hc
    rw [Table.get?_update, hz]
    split
    · exact ⟨_, rfl, fun _ => rfl⟩
    · exact ⟨z, rfl, hs⟩

/-- A request is counted, and with it the attempt that it begins, if it does. -/
theorem request_counted (b : Balanced p l requests loadless) (l₁ : Loader) (result : String)
    (hs : l₁.sink = l.sink)
    (hb : l₁.cache.begun = l.cache.begun + if "start" = result then 1 else 0)
    (hk : l₁.cache.attempts.keys.Nodup) (ha : l₁.attempts = l.attempts)
    (hr : l₁.registry = l.registry) (hp : l₁.plan = l.plan) :
    ∃ sink, l₁.count requestsTotal ("result", result) = ({ l₁ with sink }, none) ∧
      Balanced p { l₁ with sink } (requests + 1)
        (loadless + if "start" = result then 1 else 0) := by
  obtain ⟨t, ht, reads⟩ := b.tallied
  have ended : l₁.ended = l.ended := by simp only [Loader.ended, ha]
  refine ⟨_, count_tally (hs.trans ht) requestsTotal ("result", result), ⟨_, rfl, ?_⟩, ?_, hk,
    ?_, ?_, ?_, fun hn => ended.trans (b.endless hn)⟩
  · have counted := reads.request result
    rw [← hb, ← ha, ← hr] at counted
    change Tally.Reads _ _ _ _ _ l₁.ended _
    rw [ended]
    refine { counted with ended := fun type => ?_ }
    rw [counted.ended type]
    exact congrArg (fun n : Nat => _ + if p.type = some type then (n : Int) - _ else 0) ended.symm
  · rw [hb, ha, b.begun]
    exact Nat.add_assoc ..
  · exact (congrArg Registry.fetches hr).trans b.listed
  · rw [hp]
    exact b.wired
  · unfold Ages
    rw [ha]
    exact b.ages

/-- A request is taken in; it begins an attempt if its chunk is unknown. -/
theorem serve (b : Balanced p l requests loadless) (chunk : ChunkId) :
    (∃ l' q, l.serve chunk = (l', .ok (q, none)) ∧ (l.cache.find? chunk).isNone = false ∧
        Balanced p l' (requests + 1) loadless) ∨
      ∃ l' t, l.serve chunk = (l', .ok (t.promise, some t)) ∧ t.chunk = chunk ∧
        (l.cache.find? chunk).isNone = true ∧ l'.plan = l.plan ∧
          Balanced p l' (requests + 1) (loadless + 1) := by
  cases hf : l.cache.find? chunk with
  | none =>
    have hf' : { l.cache with used := true }.find? chunk = none := hf
    obtain ⟨sink, hc, counted⟩ := b.request_counted
      { l with
        cache := ({ l.cache with used := true }.begin chunk l.promises.create.2).1
        promises := l.promises.create.1 } "start" rfl
      (Cache.begun_begin { l.cache with used := true } chunk _)
      (Pairs.nodup_keys_put b.single chunk _) rfl rfl rfl
    have served : l.serve chunk =
        (({ l with
            cache := ({ l.cache with used := true }.begin chunk l.promises.create.2).1
            promises := l.promises.create.1
            sink } : Loader).noteStart
              ({ l.cache with used := true }.begin chunk l.promises.create.2).2,
          .ok (l.promises.create.2,
            some ({ l.cache with used := true }.begin chunk l.promises.create.2).2)) := by
      simp only [Loader.serve, hf', newPromise, hc]
    rw [if_pos rfl] at counted
    have noted := counted.unbooked
      (.noteStart _ ({ l.cache with used := true }.begin chunk l.promises.create.2).2)
    refine .inr ⟨_, ({ l.cache with used := true }.begin chunk l.promises.create.2).2, served, ?_⟩
    exact ⟨rfl, rfl, rfl, noted⟩
  | some e =>
    have hf' : { l.cache with used := true }.find? chunk = some e := hf
    by_cases he : e.state = .inFlight
    · cases e with
      | skipped => cases he
      | loaded => cases he
      | inFlight pending =>
        obtain ⟨sink, hc, counted⟩ := b.request_counted
          { l with cache := { l.cache with used := true }.join chunk pending } "join" rfl rfl
          b.single rfl rfl rfl
        have served : l.serve chunk =
            ({ l with cache := { l.cache with used := true }.join chunk pending, sink },
              .ok (pending.promise, none)) := by
          simp only [Loader.serve, hf', hc]
        exact .inl ⟨_, _, served, rfl, counted⟩
    · obtain ⟨sink, hc, counted⟩ := b.request_counted
        { l with cache := { l.cache with used := true } } "hit" rfl rfl b.single rfl rfl rfl
      have kept := counted.unbooked (.keep _)
      refine .inl ⟨_, l.promises.create.2, ?_, rfl, kept⟩
      cases e with
      | inFlight pending => exact absurd rfl he
      | skipped => simp only [Loader.serve, hf', hc, newPromise]
      | loaded => simp only [Loader.serve, hf', hc, newPromise]

/-- A load begins for an attempt that had none, and is counted under how it gets its handle. -/
theorem load_counted (b : Balanced p l requests (loadless + 1)) {t : Tally} (ht : l.sink = .tally t)
    {x : Attempt} (hx : x.settled = false) (mode : String)
    (hs : l'.sink = .tally (t.add handlesTotal 1 [("mode", mode)]))
    (hc : l'.cache.attempts = l.cache.attempts) (ha : l'.attempts = l.attempts.add x)
    (hr : l'.registry.attached = l.registry.attached + if "created" = mode then 1 else 0)
    (hf : l'.registry.fetches = l.registry.fetches) (hp : l'.plan = l.plan) :
    Balanced p l' requests loadless := by
  obtain ⟨t', ht', reads⟩ := b.tallied
  cases ht.symm.trans ht'
  have ended : l'.ended = l.ended := by
    simp only [Loader.ended, ha, Table.count_add, hx, Bool.false_eq_true, if_false, Nat.add_zero]
  have begun : l'.cache.begun = l.cache.begun := by simp only [Cache.begun, hc]
  refine ⟨⟨_, hs, ?_⟩, ?_, by rw [hc]; exact b.single, hf.trans b.listed,
    by rw [hp]; exact b.wired, ?_, fun hn => ended.trans (b.endless hn)⟩
  · rw [begun, ha, Table.size_add, hr, ended]
    refine { reads.handle mode with ended := fun type => ?_ }
    rw [(reads.handle mode).ended, Page.endedBy, Page.endedBy, ended]
  · rw [begun, ha, Table.size_add, b.begun]
    omega
  · intro a y hy
    obtain ⟨z, hz, hs⟩ := b.ages a y hy
    rw [ha]
    exact ⟨z, Table.get?_add_of_some hz x, hs⟩

/-- A load begins; it is still open if it is to be concluded at once. -/
theorem load (b : Balanced p l requests (loadless + 1)) (chunk : ChunkId) (url : String)
    (done : Done) :
    ∃ l' h, Balanced p l' requests loadless ∧
      (l.load chunk url done = (l', .ok (h, none)) ∨
        ∃ a x, l.load chunk url done = (l', .ok (h, some a)) ∧ l'.attempts.get? a = some x ∧
          x.settled = false) := by
  obtain ⟨t, ht, -⟩ := b.tallied
  cases hf : l.findHandle chunk url with
  | none =>
    obtain ⟨log, fetches, asks, hl, -⟩ := load_taken_of_unfound done hf
      (count_tally (l := { l with handles := l.handles.add (l.madeHandle chunk url) }) ht
        handlesTotal ("mode", HandleMode.created.word))
    have attached : (l.registry.attach l.handles.size url).attached =
        l.registry.attached + if "created" = "created" then 1 else 0 := by
      rw [if_pos rfl]
      exact Registry.attached_attach _ _ _ b.listed
    refine ⟨_, _, ?_, .inl hl⟩
    exact b.load_counted (x := { chunk, handle := l.handles.size, done }) ht rfl "created" rfl rfl
      rfl attached (Registry.fetches_attach ..) rfl
  | some h =>
    cases hload : (l.handles.get? h).any (·.loading) with
    | true =>
      obtain ⟨log, hl⟩ := load_taken_of_loading done hf hload
        (count_tally ht handlesTotal ("mode", HandleMode.adoptedLoading.word))
      refine ⟨_, h, ?_, .inl hl⟩
      exact b.load_counted (x := { chunk, handle := h, done }) ht rfl "adopted_loading" rfl rfl rfl
        rfl rfl rfl
    | false =>
      obtain ⟨log, hl⟩ := load_taken_of_complete done hf hload
        (count_tally ht handlesTotal ("mode", HandleMode.adoptedComplete.word))
      refine ⟨_, h, ?_, .inr ⟨_, _, hl, Table.get?_add_size .., rfl⟩⟩
      exact b.load_counted (x := { chunk, handle := h, done }) ht rfl "adopted_complete" rfl rfl rfl
        rfl rfl rfl

/-! ## §3 Work -/

/-- A signal of the page's type ends loads. -/
theorem signal {e : LoadEvent} (he : p.type = some e.type) (foreign : Option CallbackId)
    (waiting : List AttemptId) (b : Balanced p l requests loadless) :
    Balanced p (Loader.signal e foreign waiting l).1 requests loadless := by
  refine signal_keeps (I := (Balanced p · requests loadless)) (fun l a x ha hx b => ?ended)
    (fun l t b => b.unbooked (.redeem l t e)) foreign waiting b
  case ended =>
    obtain ⟨l₁, hcon, concluded⟩ := b.conclude ha hx he
    rw [hcon]
    exact concluded

theorem abortAll (hp : p.type = some "abort") (attempts : List AttemptId)
    (b : Balanced p l requests loadless) :
    Balanced p (Loader.abortAll attempts l).1 requests loadless :=
  abortAll_keeps (I := (Balanced p · requests loadless))
    (fun l a b => b.signal (e := l.endSignal a "abort") hp none [a]) attempts b

end Balanced

/-- A request for the chunk begins an attempt. -/
def begins (l : Loader) (chunk : ChunkId) : Bool :=
  l.plan.hasAsset chunk && (l.cache.find? chunk).isNone

/-- The address of the chunk is refused. -/
def refuses (l : Loader) (chunk : ChunkId) : Bool :=
  match l.plan.wiring with
  | .user _ => false
  | .fetch resolve => !(resolve chunk).isOk

/--
The requests that reach the cache when chunks are asked for one after the other, each with the
loader in which it was made. They stop at the first one that fails.
-/
def reached : List ChunkId → Loader → List (Loader × ChunkId)
  | [], _ => []
  | chunk :: rest, l =>
    if l.closed then []
    else
      (l, chunk) ::
        match l.request chunk with
        | (_, .error _) => []
        | (l, .ok (p, none)) => reached rest (l.hand chunk p)
        | (l, .ok (p, some t)) =>
          match l.start t with
          | (l, .through) => reached rest (l.hand chunk p)
          | _ => []

/-- A request began an attempt whose address was refused. -/
def unresolved (asked : Loader × ChunkId) : Bool :=
  asked.1.begins asked.2 && asked.1.refuses asked.2

namespace Balanced

theorem request (b : Balanced p l requests loadless) (ho : l.closed = false) (chunk : ChunkId) :
    (∃ l' q, l.request chunk = (l', .ok (q, none)) ∧ l.begins chunk = false ∧
        Balanced p l' (requests + 1) loadless) ∨
      ∃ l' t, l.request chunk = (l', .ok (t.promise, some t)) ∧ t.chunk = chunk ∧
        l.begins chunk = true ∧ l'.plan = l.plan ∧
          Balanced p l' (requests + 1) (loadless + 1) := by
  cases ha : l.plan.hasAsset chunk with
  | true =>
    rcases b.serve chunk with ⟨l', q, hs, hk, b'⟩ | ⟨l', t, hs, ht, hn, hp, b'⟩
    · exact .inl ⟨l', q, by simp [Loader.request, ho, ha, hs], by simp [begins, hk], b'⟩
    · exact .inr ⟨l', t, by simp [Loader.request, ho, ha, hs], ht, by simp [begins, ha, hn], hp, b'⟩
  | false =>
    have known : ((l.mark chunk .skipped).cache.find? chunk).isNone = false := by
      simp [Loader.mark, Cache.find?_mark]
    rcases (b.unbooked (.mark l chunk .skipped)).serve chunk with
      ⟨l', q, hs, -, b'⟩ | ⟨l', t, -, -, hn, -⟩
    · exact .inl ⟨l', q, by simp [Loader.request, ho, ha, hs], by simp [begins, ha], b'⟩
    · rw [known] at hn
      cases hn

/-- An attempt gets its load, unless its address is refused. -/
theorem start (hp : p.type = some "load") (t : Ticket)
    (b : Balanced p l requests (loadless + 1)) :
    Balanced p (l.start t).1 requests (loadless + if l.refuses t.chunk then 1 else 0) := by
  obtain ⟨resolve, hw⟩ := b.wired
  cases hr : resolve t.chunk with
  | error f =>
    have refused : l.refuses t.chunk = true := by simp [refuses, hw, hr, Except.isOk, Except.toBool]
    simp only [Loader.start, hw, fetch, hr, refused, if_true]
    exact b.unbooked (.abandon l t)
  | ok url =>
    have found : l.refuses t.chunk = false := by simp [refuses, hw, hr, Except.isOk, Except.toBool]
    simp only [Loader.start, hw, fetch, hr, found, Bool.false_eq_true, if_false, Nat.add_zero]
    obtain ⟨l₁, h, loaded, hl | ⟨a, x, hl, -, -⟩⟩ := b.load t.chunk url (.redeem t)
    · simp only [hl]
      exact loaded
    · have ended : Balanced p (l₁.settleLoad a (l₁.signalFrom h "load")).1 requests loadless :=
        loaded.signal (e := l₁.signalFrom h "load") hp none [a]
      simp only [hl]
      cases hs : l₁.settleLoad a (l₁.signalFrom h "load") with
      | mk l₂ flow =>
        rw [hs] at ended
        cases flow with
        | through => exact ended
        | calls c left => exact ended
        | fails f => exact ended.unbooked (.abandon l₂ t)

/-- A task asks for its chunks. -/
theorem collect (hp : p.type = some "load") (task : TaskId) (chunks : List ChunkId)
    (got : List PromiseId) (b : Balanced p l requests loadless) :
    Balanced p (Loader.collect task got chunks l).1 (requests + (reached chunks l).length)
      (loadless + (reached chunks l).countP unresolved) := by
  induction chunks generalizing l got requests loadless with
  | nil => exact b.unbooked (.inner (l.inner_await task got))
  | cons chunk rest ih =>
    unfold Loader.collect reached
    cases ho : l.closed with
    | true =>
      simp only [Loader.request, ho, if_true]
      exact b.unbooked (.endTask l task _)
    | false =>
      simp only [Bool.false_eq_true, if_false, List.length_cons, List.countP_cons]
      rcases b.request ho chunk with ⟨l₁, q, hr, hn, b₁⟩ | ⟨l₁, t, hr, rfl, hb, hplan, b₁⟩
      · have passed : unresolved (l, chunk) = false := by simp [unresolved, hn]
        have next := ih (l := l₁.hand chunk q) (got ++ [q])
          (b₁.unbooked (.hand ..))
        simp only [hr, passed, Bool.false_eq_true, if_false, Nat.add_zero]
        rw [Nat.add_comm _ 1, ← Nat.add_assoc]
        exact next
      · have refused : unresolved (l, t.chunk) = l₁.refuses t.chunk := by
          simp [unresolved, hb, refuses, hplan]
        have started := b₁.start hp t
        simp only [hr, refused]
        cases hs : l₁.start t with
        | mk l₂ flow =>
          rw [hs] at started
          cases flow with
          | through =>
            have next := ih (l := l₂.hand t.chunk t.promise) (got ++ [t.promise])
              (started.unbooked (.hand ..))
            dsimp only
            rw [Nat.add_comm _ 1, ← Nat.add_assoc, Nat.add_comm (List.countP ..), ← Nat.add_assoc]
            exact next
          | calls c left =>
            simpa using started
          | fails f =>
            simpa using started.unbooked (.endTask l₂ task (.fault f))

end Balanced

end Loader

end SingleFlight
