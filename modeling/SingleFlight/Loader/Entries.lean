/-
SingleFlight.Loader.Entries — requests and outcomes, as the cache sees them.

* `Loader.serve` — a request: answered at once, joined to the attempt in flight,
  or the start of an attempt.
* `Loader.redeem` — the outcome of an attempt, which counts only while the
  chunk's entry still belongs to it.
* `Loader.abandon` — an attempt whose start failed.
* `Loader.closeCache` — the end of everything in flight.
-/
import SingleFlight.Loader.Basic

namespace SingleFlight.Loader

/-- The counter of requests. -/
def requestsTotal : String := "chunk_load_requests_total"

/-- The log record of an attempt's start. -/
def noteStart (l : Loader) (t : Ticket) : Loader :=
  l.note .cache .debug
    ("Starting load of chunk " ++ t.chunk.text ++ " (attempt " ++ toString t.attempt ++ ")")

/--
Takes in a request for a chunk. The answer is the promise to wait for and, if an attempt has to
be started, its ticket.
-/
def serve (l : Loader) (chunk : ChunkId) :
    Loader × Except Fault (PromiseId × Option Ticket) :=
  let l := { l with cache := { l.cache with used := true } }
  match l.cache.find? chunk with
  | some (.inFlight p) =>
    let l := { l with cache := l.cache.join chunk p }
    match l.count requestsTotal ("result", "join") with
    | (l, some f) => (l, .error f)
    | (l, none) => (l, .ok (p.promise, none))
  | some _ =>
    match l.count requestsTotal ("result", "hit") with
    | (l, some f) => (l, .error f)
    | (l, none) =>
      let (l, p) := l.newPromise
      (l.settlePromise p .ok, .ok (p, none))
  | none =>
    let (l, p) := l.newPromise
    let (cache, t) := l.cache.begin chunk p
    let l := { l with cache }
    match l.count requestsTotal ("result", "start") with
    | (l, some f) => (l, .error f)
    | (l, none) => (l.noteStart t, .ok (p, some t))

/-- Forgets an attempt whose start failed, unless the entry is no longer its own. -/
def abandon (l : Loader) (t : Ticket) : Loader :=
  if l.cache.honours t then { l with cache := l.cache.drop t.chunk } else l

/-- The failure that a signal means for a chunk. -/
def failureOf (l : Loader) (chunk : ChunkId) (e : LoadEvent) : LoadFailure :=
  .ofEvent chunk l.plan.policy.assetKind l.plan.policy.timeout e

/-- Ends an attempt that is in flight. -/
def settleEntry (l : Loader) (t : Ticket) (e : LoadEvent) : Loader :=
  if e.isLoad then
    { l with cache := l.cache.finish t.chunk }.settlePromise t.promise .ok
  else
    let f := l.failureOf t.chunk e
    ({ l with cache := l.cache.drop t.chunk }.note .cache .warning f.message).settlePromise
      t.promise (.failed f)

/-- Ends the attempt of a ticket; a signal for an attempt that has ended is ignored. -/
def redeem (l : Loader) (t : Ticket) (e : LoadEvent) : Loader :=
  if l.cache.honours t then l.settleEntry t e
  else
    l.note .cache .debug
      ("Ignoring " ++ e.type ++ " signal for chunk " ++ t.chunk.text ++ ": attempt " ++
        toString t.attempt ++ " already settled")

/-- The log record of a report for a chunk that is not in flight. -/
def noteIdle (l : Loader) (chunk : ChunkId) (e : LoadEvent) : Loader :=
  l.note .cache .debug
    ("Ignoring " ++ e.type ++ " signal for chunk " ++ chunk.text ++ ": not in flight")

/-- Gives an unknown chunk a final state. -/
def mark (l : Loader) (chunk : ChunkId) (e : Entry) : Loader :=
  { l with cache := l.cache.mark chunk e }

/-- Ends one attempt because the cache is closed. -/
def abortEntry (l : Loader) (t : Ticket) : Loader :=
  { l with cache := l.cache.drop t.chunk }.settlePromise t.promise
    (.failed { chunk := t.chunk, cause := .aborted "abort", assetKind := l.plan.policy.assetKind })

/-- Ends every attempt in flight, in the order of the entries. -/
def closeCache (l : Loader) : Loader :=
  l.cache.inFlight.foldl abortEntry l

end SingleFlight.Loader
