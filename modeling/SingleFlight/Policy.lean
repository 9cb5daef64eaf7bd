/-
SingleFlight.Policy — how one loader loads.

* `Policy` — the watchdog's window, the name that tags carry, the kind of asset.
* `Policy.make` — a policy from its parts, if they are usable.
* `Policy.tagFor` — the tag under which the handle of a chunk can be found.
-/
import SingleFlight.Fault
import SingleFlight.Text.Blank

namespace SingleFlight

/-- How one loader loads. -/
structure Policy where
  /-- Seconds that one attempt may take. -/
  timeout : Float := 120
  uniqueName : String := "webpack"
  /-- The kind of asset, as messages name it. -/
  assetKind : String := "css"

namespace Policy

/-- Refuses a window of zero or less first, then a name that is blank. -/
def make (timeout : Float) (uniqueName assetKind : String) : Except Fault Policy :=
  if timeout ≤ 0 then .error .windowNotPositive
  else if Text.allBlank uniqueName.toList then .error .blankName
  else .ok { timeout, uniqueName, assetKind }

/-- The tag of a chunk's handle. -/
def tagFor (p : Policy) (chunk : ChunkId) : String :=
  p.uniqueName ++ ":chunk-" ++ chunk.text

end Policy

end SingleFlight
