/-
SingleFlight.Cache — one entry per chunk, and how often each was attempted.

A chunk without an entry is unknown. Entries stand in the order in which they
were first made; an entry that is replaced keeps its place, and one that is made
anew after it was dropped goes to the end.

* `Entry`, `Pending` — what an entry holds.
* `Ticket` — one attempt at one chunk, as the cache handed it out; it is good as
  long as the entry still belongs to it (`Cache.honours`).
* `Cache.begin`, `Cache.join`, `Cache.finish`, `Cache.drop`, `Cache.mark` — the
  changes that an entry can undergo.
-/
import SingleFlight.Fault
import SingleFlight.Pairs
import SingleFlight.Promise

namespace SingleFlight

/-- An attempt in flight, shared by everyone who waits for it. -/
structure Pending where
  promise : PromiseId
  /-- The number of the attempt among those of its chunk, from 1. -/
  attempt : Nat := 1
  /-- How many requests it serves. -/
  waiters : Nat := 1
deriving DecidableEq, Repr

/-- What is known about a chunk that is not unknown. -/
inductive Entry where
  | skipped
  | loaded
  | inFlight (p : Pending)
deriving DecidableEq, Repr

/-- The state that an entry stands for. -/
def Entry.state : Entry → LoadState
  | skipped => .skipped
  | loaded => .loaded
  | inFlight _ => .inFlight

/-- The final entry that a word stands for. -/
def Entry.final? : String → Option Entry
  | "skipped" => some .skipped
  | "loaded" => some .loaded
  | _ => none

/-- One attempt at one chunk. -/
structure Ticket where
  chunk : ChunkId
  promise : PromiseId
  attempt : Nat
deriving DecidableEq, Repr

/-! ## The cache -/

/-- What a loader knows about its chunks. -/
structure Cache where
  entries : Pairs ChunkId Entry := []
  /-- How often each chunk was attempted; chunks that never were are not listed. -/
  attempts : Pairs ChunkId Nat := []
  /-- Whether a load was ever requested. -/
  used : Bool := false
deriving DecidableEq, Repr

namespace Cache

/-- The entry of a chunk. -/
def find? (c : Cache) (chunk : ChunkId) : Option Entry :=
  c.entries.get? chunk

/-- The state of a chunk. -/
def state (c : Cache) (chunk : ChunkId) : LoadState :=
  match c.find? chunk with
  | some e => e.state
  | none => .unknown

/-- The number of attempts at a chunk so far. -/
def attemptsAt (c : Cache) (chunk : ChunkId) : Nat :=
  (c.attempts.get? chunk).getD 0

/-- The attempts in flight, in the order of their entries. -/
def inFlight (c : Cache) : List Ticket :=
  c.entries.filterMap fun (chunk, e) =>
    match e with
    | .inFlight p => some ⟨chunk, p.promise, p.attempt⟩
    | _ => none

/-- The ticket of the attempt in flight for a chunk. -/
def ticketOf? (c : Cache) (chunk : ChunkId) : Option Ticket :=
  match c.find? chunk with
  | some (.inFlight p) => some ⟨chunk, p.promise, p.attempt⟩
  | _ => none

/-- Whether the chunk's entry still belongs to the ticket. -/
def honours (c : Cache) (t : Ticket) : Bool :=
  match c.find? t.chunk with
  | some (.inFlight p) => p.promise == t.promise
  | _ => false

/-- Gives an unknown chunk a final state; any other chunk stays as it is. -/
def mark (c : Cache) (chunk : ChunkId) (e : Entry) : Cache :=
  match c.find? chunk with
  | some _ => c
  | none => { c with entries := c.entries.put chunk e }

/-- Starts the next attempt at a chunk. -/
def begin (c : Cache) (chunk : ChunkId) (promise : PromiseId) : Cache × Ticket :=
  let attempt := c.attemptsAt chunk + 1
  ({ c with
      entries := c.entries.put chunk (.inFlight { promise, attempt })
      attempts := c.attempts.put chunk attempt },
    ⟨chunk, promise, attempt⟩)

/-- Serves one more request by the attempt in flight. -/
def join (c : Cache) (chunk : ChunkId) (p : Pending) : Cache :=
  { c with entries := c.entries.put chunk (.inFlight { p with waiters := p.waiters + 1 }) }

/-- Makes a chunk loaded. -/
def finish (c : Cache) (chunk : ChunkId) : Cache :=
  { c with entries := c.entries.put chunk .loaded }

/-- Makes a chunk unknown again. -/
def drop (c : Cache) (chunk : ChunkId) : Cache :=
  { c with entries := c.entries.erase chunk }

/-- The entry of a chunk that is known from the start. -/
def seedEntry : ChunkId × String → Except Fault (ChunkId × Entry)
  | (chunk, state) =>
    match Entry.final? state with
    | some e => .ok (chunk, e)
    | none => .error (.badSeed chunk state)

/-- The entries of chunks that are known from the start; a later pair overrides an earlier one. -/
def seed (installed : List (ChunkId × String)) : Except Fault Cache := do
  let places := installed.foldl (fun ps (chunk, state) => Pairs.put ps chunk state) []
  let entries ← places.mapM seedEntry
  return { entries }

end Cache

end SingleFlight
