/-
SingleFlight.Handle — fetch handles and their observers.

A handle performs one fetch and tells its outcome to whoever fills its two
slots. Each load that waits for a handle puts itself in front of what a slot
held before, so a slot is a chain: attempts, the newest first, and at its end
the observer that the handle's maker put there, if any.

* `Slot` — such a chain.
* `Handle` — a handle; one that fetches over HTTP also holds what it got.
* `Handle.observe`, `Handle.release` — a load begins and stops to wait.
-/
import SingleFlight.Event
import SingleFlight.Table

namespace SingleFlight

/-- A piece of code of the library's user, by a number that its owner knows. -/
abbrev CallbackId := Nat

/-- A load that waits for a handle, by its place among the attempts of its loader. -/
abbrev AttemptId := Nat

/-- An observer slot. -/
structure Slot where
  /-- The loads that wait, the newest first. -/
  waiting : List AttemptId := []
  /-- The observer that was there before the first of them. -/
  foreign : Option CallbackId := none
deriving DecidableEq, Repr

/-- Whether anyone observes. -/
def Slot.isSet (s : Slot) : Bool :=
  !s.waiting.isEmpty || s.foreign.isSome

/-- What a fetch over HTTP has brought. -/
structure Download where
  content : Option String := none
  status : Option Int := none
  error : Option String := none
deriving DecidableEq, Repr

/-- A fetch handle. -/
structure Handle where
  url : String
  tag : Option String := none
  /-- Whether a load waits for the outcome. -/
  loading : Bool := false
  onLoad : Slot := {}
  onError : Slot := {}
  /-- Present if the handle fetches over HTTP. -/
  download : Option Download := none
deriving DecidableEq, Repr

namespace Handle

/-- Whether a handle is the one looked for: by its address, or by a tag if one is given. -/
def answers (h : Handle) (url : String) (tag : Option String) : Bool :=
  h.url == url || (tag.isSome && h.tag == tag)

/-- The slot that a signal goes to. -/
def slotFor (h : Handle) (type : String) : Slot :=
  if type = "load" then h.onLoad else h.onError

/-- The handle with one more load waiting for it. -/
def observe (h : Handle) (a : AttemptId) : Handle :=
  { h with
    onLoad := { h.onLoad with waiting := a :: h.onLoad.waiting }
    onError := { h.onError with waiting := a :: h.onError.waiting } }

/-- The handle with nobody waiting for it. -/
def release (h : Handle) : Handle :=
  { h with onLoad := {}, onError := {}, loading := false }

/-- Changes what the fetch has brought. -/
def record (h : Handle) (f : Download → Download) : Handle :=
  { h with download := h.download.map f }

end Handle

end SingleFlight
