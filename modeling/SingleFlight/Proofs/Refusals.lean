/-
SingleFlight.Proofs.Refusals — requests that raise.

A whole loader raises for three reasons: it is closed, the chunk has no address,
or the sink refuses a count. The first changes nothing. The second is found out
when the cache has made its entry already, and the loads have made nothing yet:
so only the entry is taken back. It stood behind all the others, which is why
the entries are the same list again. What stays is the number of the attempt,
the count of its start, and that the cache has been used.

* `Loader.givenUp` — a loader after a request for a chunk without an address;
  `requested_givenUp`, `givenUp_spec`.
* `Loader.request_again` — the next request starts afresh.
* `Loader.requested_known` — chunks in flight, chunks with a final entry, and
  those with nothing to fetch are answered.
* `Run.refused_requests` — all of this, in every state of a whole loader.
-/
import SingleFlight.Proofs.Collecting

namespace SingleFlight

namespace Loader

variable {l : Loader} {chunk : ChunkId} {f : Fault}

/-! ## §1 What a request is refused for -/

/-- The sink's objection to the count of a request with this result, if it has one. -/
def objection? (l : Loader) (result : String) : Option Fault :=
  (l.count requestsTotal ("result", result)).2

/-- A closed loader refuses every request, and that is all. -/
theorem requested_closed (hc : l.closed = true) (chunk : ChunkId) :
    l.Requested chunk l (.error .closed) :=
  .refused (by simp [request, hc])

/-! ## §2 Chunks without an address -/

/-- The ticket of the next attempt at a chunk. -/
def nextTicket (l : Loader) (chunk : ChunkId) : Ticket :=
  ⟨chunk, l.promises.table.size, l.cache.attemptsAt chunk + 1⟩

/-- A loader after a request for an unknown chunk that has no address. -/
def givenUp (l : Loader) (chunk : ChunkId) : Loader :=
  ({ l with
      cache := { l.cache with
        attempts := l.cache.attempts.put chunk (l.cache.attemptsAt chunk + 1)
        used := true }
      promises := l.promises.create.1
      sink := (l.sink.add requestsTotal (.whole 1) [("result", "start")]).1 } : Loader).noteStart
    (l.nextTicket chunk)

/-- A loader that has just made the ticket of an attempt. -/
def ticketed (l : Loader) (chunk : ChunkId) : Loader :=
  ({ l with
      cache := ({ l.cache with used := true }.begin chunk l.promises.create.2).1
      promises := l.promises.create.1
      sink := (l.sink.add requestsTotal (.whole 1) [("result", "start")]).1 } : Loader).noteStart
    (l.nextTicket chunk)

/-- A request for an unknown chunk: the next attempt gets its ticket. -/
theorem request_unknown (ho : l.closed = false) (ha : l.plan.hasAsset chunk = true)
    (hf : l.cache.find? chunk = none) (hc : l.objection? "start" = none) :
    l.request chunk =
      (l.ticketed chunk, .ok ((l.nextTicket chunk).promise, some (l.nextTicket chunk))) := by
  have hf' : { l.cache with used := true }.find? chunk = none := hf
  have counted : ({ l with
      cache := ({ l.cache with used := true }.begin chunk l.promises.create.2).1
      promises := l.promises.create.1 } : Loader).count requestsTotal ("result", "start") =
      ({ l with
        cache := ({ l.cache with used := true }.begin chunk l.promises.create.2).1
        promises := l.promises.create.1
        sink := (l.sink.add requestsTotal (.whole 1) [("result", "start")]).1 }, none) :=
    Prod.ext rfl hc
  have served : l.request chunk = l.serve chunk := by simp [request, ho, ha]
  rw [served]
  simp only [serve, hf', newPromise]
  simp only [Cache.begin] at counted ⊢
  rw [counted]
  rfl

/-- The entry that was made for an attempt is taken back. -/
theorem abandon_ticketed (hf : l.cache.find? chunk = none) :
    (l.ticketed chunk).abandon (l.nextTicket chunk) = l.givenUp chunk := by
  have honoured : (l.ticketed chunk).cache.honours (l.nextTicket chunk) = true :=
    Cache.honours_of_ticketOf? ((Cache.ticketOf?_begin _ chunk chunk _).trans (if_pos rfl))
  have entries : (l.ticketed chunk).cache.entries.erase chunk = l.cache.entries :=
    Pairs.erase_put_of_get?_eq_none hf _
  unfold abandon
  rw [if_pos honoured]
  simp only [Cache.drop, nextTicket, entries]
  rfl

theorem requested_givenUp {resolve : ChunkId → Except Fault String}
    (hw : l.plan.wiring = .fetch resolve) (hr : resolve chunk = .error f) (ho : l.closed = false)
    (ha : l.plan.hasAsset chunk = true) (hf : l.cache.find? chunk = none)
    (hc : l.objection? "start" = none) :
    l.Requested chunk (l.givenUp chunk) (.error f) := by
  refine .failed (request_unknown ho ha hf hc) ?_
  have hw' : (l.ticketed chunk).plan.wiring = .fetch resolve := hw
  have hr' : resolve (l.nextTicket chunk).chunk = .error f := hr
  simp only [start, hw', fetch, hr', abandon_ticketed hf]

/-- What is left of a request for a chunk without an address. -/
structure CameToNothing (l : Loader) (chunk : ChunkId) (l' : Loader) : Prop where
  /-- The cache holds the same entries in the same order. -/
  entries : l'.cache.entries = l.cache.entries
  attempted : ∀ k, l'.cache.attemptsAt k = l.cache.attemptsAt k + if k = chunk then 1 else 0
  used : l'.cache.used = true
  counted : l'.sink = (l.sink.add requestsTotal (.whole 1) [("result", "start")]).1
  /-- A tally reads one start more, and no other difference. -/
  tallied : ∀ t, l.sink = .tally t → ∃ t', l'.sink = .tally t' ∧ ∀ name tag,
    t'.get name [tag] =
      t.get name [tag] + if name = requestsTotal ∧ tag = ("result", "start") then 1 else 0
  /-- Promises stand as they stood, and nobody was answered with the one that was made. -/
  promises : ∀ p, l'.promises.outcome? p = l.promises.outcome? p
  settled : l'.promises.settled = l.promises.settled
  /-- Apart from the log, nothing else is different. -/
  others : ∃ cache promises sink log, l' = { l with cache, promises, sink, log }

theorem givenUp_spec (l : Loader) (chunk : ChunkId) :
    l.CameToNothing chunk (l.givenUp chunk) where
  entries := rfl
  attempted := by
    intro k
    have begun : (l.givenUp chunk).cache.attemptsAt k =
        if k = chunk then l.cache.attemptsAt chunk + 1 else l.cache.attemptsAt k :=
      Cache.attemptsAt_begin { l.cache with used := true } chunk k l.promises.table.size
    rw [begun]
    split
    · rename_i hk
      rw [hk]
    · rfl
  used := rfl
  counted := rfl
  tallied := by
    intro t ht
    refine ⟨t.add requestsTotal 1 [("result", "start")], ?_, fun name tag => ?_⟩
    · show (l.sink.add requestsTotal (.whole 1) [("result", "start")]).1 = _
      rw [ht]
      rfl
    · exact t.get_add requestsTotal name ("result", "start") tag 1
  promises := fun p => Promises.outcome?_create l.promises p
  settled := rfl
  others := ⟨_, _, _, _, rfl⟩

/-- Once the chunk has an address, its next request is the start of the attempt after this one. -/
theorem request_again (ho : l.closed = false) (hf : l.cache.find? chunk = none)
    (resolve : ChunkId → Except Fault String) {hasAsset : ChunkId → Bool}
    (ha : hasAsset chunk = true) (hc : (l.givenUp chunk).objection? "start" = none) :
    ∃ l' t, ((l.givenUp chunk).replan resolve hasAsset).request chunk =
        (l', .ok (t.promise, some t)) ∧ t.chunk = chunk ∧
      t.attempt = l.cache.attemptsAt chunk + 2 ∧ l.promises.table.size < t.promise := by
  have opened : ((l.givenUp chunk).replan resolve hasAsset).closed = false := ho
  have unknown : ((l.givenUp chunk).replan resolve hasAsset).cache.find? chunk = none := hf
  refine ⟨_, _, request_unknown opened ha unknown hc, rfl, ?_, ?_⟩
  · have attempted := (l.givenUp_spec chunk).attempted chunk
    rw [if_pos rfl] at attempted
    show (l.givenUp chunk).cache.attemptsAt chunk + 1 = _
    rw [attempted]
  · show l.promises.table.size < l.promises.create.1.table.size
    simp

/-! ## §3 Chunks that are answered -/

/-- A chunk that is known is answered, or the sink objects to counting the request. -/
theorem serve_known {e : Entry} (hf : l.cache.find? chunk = some e) :
    (∃ l' p, l.serve chunk = (l', .ok (p, none))) ∨
      ∃ result l' f, l.objection? result = some f ∧ l.serve chunk = (l', .error f) := by
  have hf' : { l.cache with used := true }.find? chunk = some e := hf
  cases e with
  | inFlight p =>
    let joined : Loader := { l with cache := { l.cache with used := true }.join chunk p }
    obtain ⟨sink, refusal, hc⟩ := count_eq joined requestsTotal ("result", "join")
    cases refusal with
    | some f =>
      refine .inr ⟨"join", { joined with sink }, f, congrArg Prod.snd hc, ?_⟩
      simp only [serve, hf', hc, joined]
    | none =>
      refine .inl ⟨{ joined with sink }, p.promise, ?_⟩
      simp only [serve, hf', hc, joined]
  | _ =>
    let used : Loader := { l with cache := { l.cache with used := true } }
    obtain ⟨sink, refusal, hc⟩ := count_eq used requestsTotal ("result", "hit")
    cases refusal with
    | some f =>
      refine .inr ⟨"hit", { used with sink }, f, congrArg Prod.snd hc, ?_⟩
      simp only [serve, hf', hc, used]
    | none =>
      refine .inl ⟨({ used with sink }.newPromise).1.settlePromise l.promises.create.2 .ok,
        l.promises.create.2, ?_⟩
      simp only [serve, hf', hc, used]
      rfl

/-- A chunk that is known, or has nothing to fetch. -/
theorem requested_known (ho : l.closed = false)
    (hk : l.cache.find? chunk ≠ none ∨ l.plan.hasAsset chunk = false) :
    (∃ l' p, l.Requested chunk l' (.ok p)) ∨
      ∃ result l' f, l.objection? result = some f ∧ l.Requested chunk l' (.error f) := by
  have answered : ∀ {l₁ : Loader} {e : Entry}, l.request chunk = l₁.serve chunk →
      l₁.sink = l.sink → l₁.cache.find? chunk = some e →
      (∃ l' p, l.Requested chunk l' (.ok p)) ∨
        ∃ result l' f, l.objection? result = some f ∧ l.Requested chunk l' (.error f) := by
    intro l₁ e hr hs hf
    rcases serve_known hf with ⟨l', p, hserve⟩ | ⟨result, l', f, hobj, hserve⟩
    · exact .inl ⟨_, p, .answered (hr.trans hserve)⟩
    · refine .inr ⟨result, l', f, ?_, .refused (hr.trans hserve)⟩
      simpa [objection?, count, hs] using hobj
  cases ha : l.plan.hasAsset chunk with
  | true =>
    have hne : l.cache.find? chunk ≠ none := hk.resolve_right (by simp [ha])
    obtain ⟨e, hf⟩ := Option.ne_none_iff_exists'.mp hne
    exact answered (by simp [request, ho, ha]) rfl hf
  | false =>
    -- The chunk is skipped on the spot, unless it is known as something else.
    have marked : ∃ e, (l.mark chunk .skipped).cache.find? chunk = some e := by
      refine Option.ne_none_iff_exists'.mp ?_
      simp [mark, Cache.find?_mark]
    obtain ⟨e, hf⟩ := marked
    have served : l.request chunk = (l.mark chunk .skipped).serve chunk := by
      simp [request, ho, ha]
    exact answered served rfl hf

end Loader

/-! ## §4 Whole loaders -/

/-- Requests that raise leave a whole loader as it was. -/
structure Run.Unharmed (r : Run) (resolve : ChunkId → Except Fault String) (chunk : ChunkId) :
    Prop where
  /-- A closed loader: nothing changes at all. -/
  closed : r.loader.closed = true →
    r.loader.Requested chunk r.loader (.error .closed) ∧ r.step (.invoke (.request chunk)) = r
  /-- A chunk without an address: its error is raised, and no answer is given. -/
  unresolved : r.loader.closed = false → r.loader.plan.hasAsset chunk = true →
    r.loader.cache.find? chunk = none → r.loader.objection? "start" = none →
    ∀ f, resolve chunk = .error f → ∃ l,
      r.loader.Requested chunk l (.error f) ∧
      r.step (.invoke (.request chunk)) = { r with loader := l } ∧
      r.loader.CameToNothing chunk l ∧
      -- The next request is a start again, of the attempt that is next.
      ∀ resolve' hasAsset', hasAsset' chunk = true → l.objection? "start" = none →
        ∃ l' t, (l.replan resolve' hasAsset').request chunk = (l', .ok (t.promise, some t)) ∧
          t.chunk = chunk ∧ t.attempt = r.loader.cache.attemptsAt chunk + 2 ∧
          r.loader.promises.table.size < t.promise
  /-- An open loader answers for a chunk that is known or has nothing to fetch. -/
  known : r.loader.closed = false →
    (r.loader.cache.find? chunk ≠ none ∨ r.loader.plan.hasAsset chunk = false) →
    (∃ l p, r.loader.Requested chunk l (.ok p)) ∨
      ∃ result l f, r.loader.objection? result = some f ∧ r.loader.Requested chunk l (.error f)

/--
In every state of a whole loader, whatever calls are under way: a request that raises because the
loader is closed or the chunk has no address does no harm, and only a sink that refuses its count
can keep a request from being answered where no attempt is needed.
-/
theorem Run.refused_requests {r : Run} {resolve : ChunkId → Except Fault String}
    (hw : r.loader.plan.wiring = .fetch resolve) (chunk : ChunkId) :
    r.Unharmed resolve chunk where
  closed := by
    intro hc
    have refused := Loader.requested_closed hc chunk
    refine ⟨refused, ?_⟩
    rw [Run.step_request refused]
    simp [Except.toOption]
  unresolved := by
    intro ho ha hf hobj f hr
    have raised := Loader.requested_givenUp hw hr ho ha hf hobj
    refine ⟨_, raised, ?_, r.loader.givenUp_spec chunk, fun resolve' hasAsset' ha' hobj' =>
      Loader.request_again ho hf resolve' ha' hobj'⟩
    rw [Run.step_request raised]
    simp [Except.toOption]
  known := Loader.requested_known

/--
The first request for a chunk raises because the chunk has no address, and yet reports can be
queued from then on, which raised an error before. A sink that holds a counter of requests with
other labels refuses to count a request for a chunk that is loaded.
-/
theorem Run.refused_requests_use :
    let chunk : ChunkId := .name "a"
    let error : LoadEvent := { type := "error" }
    let opened : Run :=
      { loader := .whole {} (fun k => .error (.noAddress k)) (fun _ => true) {} (.document [] 0)
          .silent }
    let r := opened.step (.invoke (.request chunk))
    let taken : Metrics.Sink :=
      (SinkBackend.declared.create.add Loader.requestsTotal (.whole 1) [("chunk", "a")]).1
    let loaded : Loader :=
      .whole {} (fun k => .error (.noAddress k)) (fun _ => true)
        { entries := [(chunk, .loaded)] } (.document [] 0) taken
    opened.loader.Requested chunk r.loader (.error (.noAddress chunk)) ∧
      (opened.loader.invoke (.reportLater chunk error)).2 = .error .neverUsed ∧
      (r.loader.invoke (.reportLater chunk error)).2 = Loader.atOnce .nothing ∧
      (loaded.request chunk).2.toBool = false := by
  intro chunk error opened r taken loaded
  exact ⟨Loader.requested_givenUp rfl rfl rfl rfl rfl rfl, rfl, rfl, by decide +kernel⟩

/-- A chunk without an address is requested while another one is in flight. -/
theorem Run.refused_requests_beside :
    let resolve : ChunkId → Except Fault String := fun k =>
      if k = .name "a" then .ok "/a.css" else .error (.noAddress k)
    let opened : Run :=
      { loader := .whole {} resolve (fun _ => true) {} (.document [] 0) .silent }
    let r := opened.step (.invoke (.request (.name "a")))
    let r' := r.step (.invoke (.request (.name "b")))
    r.Unharmed resolve (.name "b") ∧ r'.loader.cache = { r.loader.cache with
      attempts := [(.name "a", 1), (.name "b", 1)] } ∧ r'.answers = [.promise 0] ∧
      r'.loader.active = [0] := by
  intro resolve opened r r'
  exact ⟨Run.refused_requests rfl (.name "b"), by decide, by decide, by decide⟩

end SingleFlight
