/-
SingleFlight.Proofs.Facets — the part that one chunk has in a loader.

Chunks share a loader: its entries, its loads, its list of handles, its clock.
What belongs to one of them can be told without the numbers that its handles and
promises have, which depend on what was done for the others: its second handle,
its third promise. That is its facet, and the first half of this module reads it
off a loader.

The second half plays with facets alone: `Terms.play` says what becomes of the
facet of a chunk when something is done, and looks at nothing but the facet. It
is a loader for one chunk. That it tells the truth about loaders for many is
proved in `SingleFlight.Proofs.Independence`.

* `ChunkView`, `Facet` — what can be seen of a chunk, and what is known of it.
* `Deed` — what is done to a loader, told in the same way; `Deed.moves` — the
  moves by which it is done.
* `Terms`, `Terms.play` — a loader for one chunk.
-/
import SingleFlight.Loader.Run
import SingleFlight.Proofs.Lookups

namespace SingleFlight

/-! ## §1 Views of a loader -/

/-- What can be seen of a chunk. -/
structure ChunkView where
  state : LoadState
  attempts : Nat
  /-- The number of the attempt in flight, and how many requests it serves. -/
  flight : Option (Nat × Nat)
  /-- Whether they are registered, for the handles made for the chunk, in order. -/
  registered : List Bool
  /-- What has become of the promises that requests were answered with, in order. -/
  futures : List Promise

/-- What is known of a chunk, with what its view will depend on. -/
structure Facet extends ChunkView where
  /-- What has become of the promise of the attempt in flight. -/
  shared : Promise
  /-- When the watchdogs of its loads are due. -/
  alarms : List Float
  now : Float
  closed : Bool

namespace Loader

variable (l : Loader) (c : ChunkId)

/-- The promises that requests for a chunk were answered with. -/
def answersTo : List PromiseId :=
  (l.handed.filter (·.1 = c)).map (·.2)

/-- The handles that were made for a chunk, which have its tag. -/
def handlesOf : List HandleId :=
  (List.range l.handles.size).filter fun h =>
    (l.handles.get? h).any (·.tag == some (l.plan.policy.tagFor c))

/-- When the watchdogs of a chunk's loads are due. -/
def alarmsOf : List Float :=
  (l.watchdogs.filter fun w => (l.attempts.get? w.attempt).any (·.chunk == c)).map (·.due)

/-- The attempt in flight for a chunk. -/
def flightOf : Option Pending :=
  match l.cache.find? c with
  | some (.inFlight p) => some p
  | _ => none

/-- Whether the handles that were made for a chunk are registered. -/
def registeredOf : List Bool :=
  (l.handlesOf c).map fun h => decide (h ∈ l.registry.handles)

/-- What has become of the promises that requests for a chunk were answered with. -/
def futuresOf : List Promise :=
  (l.answersTo c).map l.promises.outcome?

/-- What has become of the promise of a chunk's attempt in flight. -/
def sharedOf : Promise :=
  (l.flightOf c).bind fun p => l.promises.outcome? p.promise

/-- What can be seen of a chunk. -/
def view : ChunkView where
  state := l.cache.state c
  attempts := l.cache.attemptsAt c
  flight := (l.flightOf c).map fun p => (p.attempt, p.waiters)
  registered := l.registeredOf c
  futures := l.futuresOf c

/-- What is known of a chunk. -/
def facet : Facet where
  toChunkView := l.view c
  shared := l.sharedOf c
  alarms := l.alarmsOf c
  now := l.now
  closed := l.closed

/-! ### What facets are made of -/

variable {l c}

theorem mem_answersTo {p : PromiseId} : p ∈ l.answersTo c ↔ (c, p) ∈ l.handed := by
  simp [answersTo]

theorem mem_handlesOf {h : HandleId} :
    h ∈ l.handlesOf c ↔
      ∃ x, l.handles.get? h = some x ∧ x.tag = some (l.plan.policy.tagFor c) := by
  simp only [handlesOf, List.mem_filter, List.mem_range, Option.any_eq_true, beq_iff_eq]
  constructor
  · exact fun hh => hh.2
  · rintro ⟨x, hx, htag⟩
    exact ⟨(List.getElem?_eq_some_iff.mp hx).1, x, hx, htag⟩

variable {l' : Loader}

theorem flightOf_congr (h : l'.cache.find? c = l.cache.find? c) :
    l'.flightOf c = l.flightOf c := by
  unfold flightOf
  rw [h]

theorem flightOf_of_inFlight {p : Pending} (h : l.cache.find? c = some (.inFlight p)) :
    l.flightOf c = some p := by
  simp [flightOf, h]

/-- Handles that keep their tags stay those of their chunks. -/
theorem handlesOf_update {h : HandleId} {f : Handle → Handle} (hf : ∀ x, (f x).tag = x.tag)
    (hpl : l'.plan = l.plan) (hh : l'.handles = l.handles.update h f) (c : ChunkId) :
    l'.handlesOf c = l.handlesOf c := by
  unfold handlesOf
  rw [hpl, hh, Table.size_update]
  refine List.filter_congr fun h' _ => ?_
  rw [Table.get?_update]
  split
  · cases l.handles.get? h' with
    | none => rfl
    | some x => simp [hf]
  · rfl

/-- The facet of a chunk to which nothing happens. -/
theorem facet_congr (find : l'.cache.find? c = l.cache.find? c)
    (attempts : l'.cache.attemptsAt c = l.cache.attemptsAt c)
    (registered : l'.registeredOf c = l.registeredOf c) (futures : l'.futuresOf c = l.futuresOf c)
    (shared : l'.sharedOf c = l.sharedOf c) (alarms : l'.alarmsOf c = l.alarmsOf c)
    (now : l'.now = l.now) (closed : l'.closed = l.closed) : l'.facet c = l.facet c := by
  unfold facet view Cache.state
  rw [find, attempts, flightOf_congr find, registered, futures, shared, alarms, now, closed]

end Loader

/-! ## §2 Deeds -/

/--
What is done to a loader that keeps its handles in a document. The event loop has nothing to run
between deeds: jobs come from tasks, downloads and reports from other threads.
-/
inductive Deed where
  | request (chunk : ChunkId)
  /-- A chunk is marked as loaded, or as skipped. -/
  | mark (chunk : ChunkId) (loaded : Bool)
  /-- An outcome is reported. Its source is none, or a handle that was made for the chunk. -/
  | report (chunk : ChunkId) (type : String) (source : Option Nat)
  /-- The registered handle of an address gives a signal. -/
  | complete (url type : String)
  /-- A handle that was made for the chunk gives a signal. -/
  | dispatch (chunk : ChunkId) (n : Nat) (type : String)
  /-- A promise that a request for the chunk was answered with is cancelled. -/
  | cancel (chunk : ChunkId) (n : Nat)
  /-- Time passes, and the watchdogs that are due fire. -/
  | advance (seconds : Float)
  | close
  /-- The active loads are looked at in another order from now on. -/
  | reorder (active : List AttemptId)

namespace Deed

/-- The deed is about chunks of one kind only: names, or numbers. -/
def Of (named : Bool) : Deed → Prop
  | request k => k.isName = named
  | mark k _ => k.isName = named
  | report k _ _ => k.isName = named
  | dispatch k _ _ => k.isName = named
  | cancel k _ => k.isName = named
  | _ => True

/-- The deed is about another chunk, or about none at all. -/
def Beside (resolve : ChunkId → Except Fault String) (c : ChunkId) : Deed → Prop
  | request k => k ≠ c
  | mark k _ => k ≠ c
  | report k _ _ => k ≠ c
  | complete url _ => resolve c ≠ .ok url
  | dispatch k _ _ => k ≠ c
  | cancel k _ => k ≠ c
  | advance _ => False
  | close => False
  | reorder _ => True

/--
The moves by which a deed is done. What names a handle or a promise that there is not is no move
at all. As many watchdogs are let fire as are armed, so that none that is due is left.
-/
def moves (l : Loader) : Deed → List Move
  | request k => [.invoke (.request k)]
  | mark k loaded => [.invoke (.mark k (if loaded then .loaded else .skipped))]
  | report k type none => [.invoke (.report k { type })]
  | report k type (some n) =>
    match (l.handlesOf k)[n]? with
    | some h => [.invoke (.report k (l.signalFrom h type))]
    | none => []
  | complete url type => [.invoke (.complete url type)]
  | dispatch k n type =>
    match (l.handlesOf k)[n]? with
    | some h => [.invoke (.dispatch h type)]
    | none => []
  | cancel k n =>
    match (l.answersTo k)[n]? with
    | some p => [.invoke (.cancelPromise p)]
    | none => []
  | advance seconds =>
    List.replicate l.watchdogs.length (.fire (l.now + seconds)) ++
      [.setClock (l.now + seconds)]
  | close => [.invoke .close]
  | reorder active => [.reorder active]

end Deed

namespace Run

/-- The use after a deed. -/
def deed (r : Run) (d : Deed) : Run :=
  r.steps (d.moves r.loader)

/-- Some deeds, each with what can be seen of a chunk after it. -/
def record (c : ChunkId) : Run → List Deed → List (Deed × ChunkView)
  | _, [] => []
  | r, d :: ds => (d, (r.deed d).loader.view c) :: record c (r.deed d) ds

end Run

/-! ## §3 Facets by themselves -/

/--
What a loader agrees on with its user for good: how it loads, where chunks are found and which of
them have anything to fetch, and whether chunks are names or numbers. No two chunks have one
address.
-/
structure Terms where
  policy : Policy
  resolve : ChunkId → Except Fault String
  hasAsset : ChunkId → Bool
  named : Bool
  apart : ∀ k k' url, k.isName = named → k'.isName = named → resolve k = .ok url →
    resolve k' = .ok url → k = k'

namespace Facet

variable (f : Facet)

/-- The clock shows another time. -/
def clock (now : Float) : Facet :=
  { f with now }

/-- The chunk gets a final state, if it is unknown. -/
def mark (s : LoadState) : Facet :=
  if f.state = .unknown then { f with state := s } else f

/-- A request joins the attempt in flight. -/
def join : Facet :=
  { f with
    flight := f.flight.map fun (attempt, waiters) => (attempt, waiters + 1)
    futures := f.futures ++ [f.shared] }

/-- A request finds the chunk in a final state. -/
def keep : Facet :=
  { f with futures := f.futures ++ [some .ok] }

/-- A request starts an attempt, which makes a handle and arms a watchdog. -/
def start (window : Float) : Facet :=
  { f with
    state := .inFlight
    attempts := f.attempts + 1
    flight := some (f.attempts + 1, 1)
    registered := f.registered ++ [true]
    futures := f.futures ++ [none]
    shared := none
    alarms := f.alarms ++ [f.now + window] }

/-- A request starts an attempt that fails at once. -/
def miss : Facet :=
  { f with attempts := f.attempts + 1 }

/-- The attempt in flight ends; whoever waits for it gets the outcome. -/
def finish (load : Bool) (o : Outcome) : Facet :=
  if f.state = .inFlight then
    { f with
      state := if load then .loaded else .unknown
      flight := none
      registered := if load then f.registered else f.registered.map fun _ => false
      futures := f.futures.map (Promise.settle · o)
      shared := none
      alarms := [] }
  else f

/--
A promise is cancelled. If it waits, it is the one of the attempt in flight, and so are the others
that wait.
-/
def cancel (n : Nat) : Facet :=
  match f.futures[n]? with
  | some none =>
    { f with
      futures := f.futures.map (Promise.settle · .cancelled)
      shared := some .cancelled }
  | _ => f

end Facet

namespace Terms

variable (terms : Terms) (c : ChunkId)

/-- The loader's plan. -/
def plan : Plan where
  policy := terms.policy
  wiring := .fetch terms.resolve
  hasAsset := terms.hasAsset

@[simp] theorem plan_policy : terms.plan.policy = terms.policy := rfl

/-- What the waiters of an attempt receive when a signal of a type ends it. -/
def ending (type : String) (request : Option String) : Outcome :=
  if type = "load" then .ok
  else .failed
    { chunk := c
      cause := LoadFailure.causeOf terms.policy.timeout type
      request
      assetKind := terms.policy.assetKind }

/-- A signal of a type ends the attempt in flight. -/
def finish (type : String) (request : Option String) (f : Facet) : Facet :=
  f.finish (type == "load") (terms.ending c type request)

/-- The address of a chunk, which its handles have. -/
def address : Option String :=
  (terms.resolve c).toOption

/-- A request for the chunk, as the cache serves it. -/
def serve (f : Facet) : Facet :=
  match f.state with
  | .inFlight => f.join
  | .unknown => if (terms.address c).isSome then f.start terms.policy.timeout else f.miss
  | _ => f.keep

/-- A request for the chunk; it is refused after a shutdown. -/
def request (f : Facet) : Facet :=
  if f.closed then f
  else terms.serve c (if terms.hasAsset c then f else f.mark .skipped)

/-- The attempt in flight ends if its watchdog is due. -/
def expire (target : Float) (f : Facet) : Facet :=
  if f.alarms.any (· ≤ target) then terms.finish c "timeout" (terms.address c) f else f

/-- What becomes of the facet of a chunk when something is done. -/
def play (f : Facet) : Deed → Facet
  | .request k => if k = c then terms.request c f else f
  | .mark k loaded => if k = c then f.mark (if loaded then .loaded else .skipped) else f
  | .report k type none => if k = c then terms.finish c type none f else f
  | .report k type (some n) =>
    if k = c ∧ n < f.registered.length then terms.finish c type (terms.address c) f else f
  | .complete url type =>
    if terms.address c = some url then terms.finish c type (some url) f else f
  | .dispatch k n type =>
    if k = c ∧ f.registered[n]? = some true then terms.finish c type (terms.address c) f else f
  | .cancel k n => if k = c then f.cancel n else f
  | .advance seconds => (terms.expire c (f.now + seconds) f).clock (f.now + seconds)
  | .close =>
    if f.closed then f
    else { terms.finish c "abort" (terms.address c) f with closed := true }
  | .reorder _ => f

/-- The chunk has an address if it has this one. -/
theorem address_eq_some {url : String} :
    terms.address c = some url ↔ terms.resolve c = .ok url := by
  unfold address
  cases terms.resolve c <;> simp [Except.toOption]

/-- What is done beside a chunk does not touch its facet. -/
theorem play_beside (f : Facet) {d : Deed} (h : d.Beside terms.resolve c) :
    terms.play c f d = f := by
  cases d with
  | request k => exact if_neg h
  | mark k loaded => exact if_neg h
  | report k type source =>
    cases source with
    | none => exact if_neg h
    | some n => exact if_neg fun hk => h hk.1
  | complete url type => exact if_neg fun ha => h ((terms.address_eq_some c).mp ha)
  | dispatch k n type => exact if_neg fun hk => h hk.1
  | cancel k n => exact if_neg h
  | advance seconds => exact h.elim
  | close => exact h.elim
  | reorder active => rfl

end Terms

end SingleFlight
