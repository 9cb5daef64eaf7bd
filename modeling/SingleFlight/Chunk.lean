/-
SingleFlight.Chunk — chunk ids and the states of a chunk.

* `ChunkId` — a name or a number; `1` and `"1"` are different ids that read
  alike.
* `LoadState` — what is known about a chunk.
-/
import SingleFlight.Text.Quoted

namespace SingleFlight

/-- The id of a chunk. -/
inductive ChunkId where
  | name (s : String)
  | number (n : Int)
deriving DecidableEq, Repr, Inhabited

namespace ChunkId

/-- An id as plain text. -/
def text : ChunkId → String
  | name s => s
  | number n => toString n

/-- An id as messages quote it: names between quotes, numbers as they are. -/
def quoted : ChunkId → String
  | name s => String.ofList (Text.quote s.toList)
  | number n => toString n

/-- The order in which chunks are listed: numbers by size, then names by code point. -/
def le : ChunkId → ChunkId → Bool
  | number m, number n => m ≤ n
  | number _, name _ => true
  | name _, number _ => false
  | name s, name t => s ≤ t

end ChunkId

/-- What is known about a chunk. -/
inductive LoadState where
  | unknown
  /-- Nothing is to be fetched for the chunk. -/
  | skipped
  | inFlight
  | loaded
deriving DecidableEq, Repr

/-- The word for a state. -/
def LoadState.word : LoadState → String
  | .unknown => "unknown"
  | .skipped => "skipped"
  | .inFlight => "in_flight"
  | .loaded => "loaded"

end SingleFlight
