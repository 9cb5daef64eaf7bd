/-
SingleFlight.Failure — how one load attempt fails.

* `LoadFailure` — what the waiters of a failed attempt receive.
* `LoadFailure.ofEvent` — the failure that a signal other than a load means.
* `LoadFailure.ofParts` — a failure of a given kind from its parts.
-/
import SingleFlight.Chunk
import SingleFlight.Event

namespace SingleFlight

/-- Why an attempt ended without success; `type` is the type of the signal that ended it. -/
inductive FailureCause where
  | unspecified (type : String)
  /-- The handle signalled an error. -/
  | failed (type : String)
  /-- No signal arrived within the watchdog's window. -/
  | timedOut (window : Float)
  /-- The loader was shut down first. -/
  | aborted (type : String)

/-- The type of the signal that a cause stands for. -/
def FailureCause.type : FailureCause → String
  | unspecified t => t
  | failed t => t
  | timedOut _ => "timeout"
  | aborted t => t

/-- One failed attempt at one chunk. -/
structure LoadFailure where
  chunk : ChunkId
  cause : FailureCause
  request : Option String := none
  assetKind : String := "css"

namespace LoadFailure

/-- The wording of a failure. -/
def message (f : LoadFailure) : String :=
  "Loading " ++ f.assetKind ++ " chunk " ++ f.chunk.text ++ " failed.\n(" ++
    f.cause.type ++ ": " ++ optionText f.request ++ ")"

/-- The cause that a type of signal stands for; a signal of no type is an error. -/
def causeOf (window : Float) (type : String) : FailureCause :=
  if type = "timeout" then .timedOut window
  else if type = "abort" then .aborted "abort"
  else .failed (if type = "" then "error" else type)

/-- The failure of a chunk that a signal means. -/
def ofEvent (chunk : ChunkId) (assetKind : String) (window : Float) (e : LoadEvent) :
    LoadFailure :=
  { chunk, cause := causeOf window e.type, request := e.request, assetKind }

end LoadFailure

/-! ## Failures from their parts -/

/-- The kinds of failure, as `FailureCause` tells them apart. -/
inductive FailureKind where
  | unspecified
  | failed
  | timedOut
  | aborted
deriving DecidableEq, Repr

/-- What a failure can be made from. -/
structure FailureParts where
  chunk : ChunkId
  type : Option String := none
  /-- The watchdog's window. -/
  window : Option Float := none
  request : Option String := none
  assetKind : String := "css"

/-- Why parts make no failure: one has no place in it, or one that it needs is not there. -/
inductive PartError where
  | surplus (owner part : String)
  | missing (owner part : String)
deriving DecidableEq, Repr

/-- The wording of an error in parts. -/
def PartError.message : PartError → String
  | surplus owner part =>
    owner ++ ".__init__() got an unexpected keyword argument '" ++ part ++ "'"
  | missing owner part =>
    owner ++ ".__init__() missing 1 required keyword-only argument: '" ++ part ++ "'"

namespace LoadFailure

/-- The cause of a failure from a window; the type of a timeout is fixed. -/
def timeoutOfParts (p : FailureParts) : Except PartError FailureCause :=
  match p.type, p.window with
  | some _, _ => .error (.surplus "ChunkLoadTimeoutError" "type")
  | none, none => .error (.missing "ChunkLoadTimeoutError" "timeout_s")
  | none, some window => .ok (.timedOut window)

/-- The cause of a failure from the type of its signal; only a timeout has a window. -/
def causeOfParts (make : String → FailureCause) (p : FailureParts) :
    Except PartError FailureCause :=
  match p.window, p.type with
  | some _, _ => .error (.surplus "ChunkLoadError" "timeout_s")
  | none, none => .error (.missing "ChunkLoadError" "type")
  | none, some type => .ok (make type)

/-- A failure of a kind from its parts. -/
def ofParts (kind : FailureKind) (p : FailureParts) : Except PartError LoadFailure := do
  let cause ← match kind with
    | .unspecified => causeOfParts .unspecified p
    | .failed => causeOfParts .failed p
    | .timedOut => timeoutOfParts p
    | .aborted => causeOfParts .aborted p
  return { chunk := p.chunk, cause, request := p.request, assetKind := p.assetKind }

end LoadFailure

end SingleFlight
