/-
SingleFlight.Event — completion signals.

A signal has a type, which is a word of its sender's choice, and may have a
source. `load` alone means success; `timeout` comes from a watchdog and `abort`
from a shutdown.
-/
namespace SingleFlight

/-- A fetch handle, by its place in the table of handles. -/
abbrev HandleId := Nat

/-- Where a signal comes from: an address, and the handle that has it if the sender knows one. -/
structure EventSource where
  url : String
  handle : Option HandleId := none
deriving DecidableEq, Repr

/-- One completion signal. -/
structure LoadEvent where
  type : String
  source : Option EventSource := none
deriving DecidableEq, Repr

namespace LoadEvent

/-- The address of the signal's source. -/
def request (e : LoadEvent) : Option String :=
  e.source.map (·.url)

/-- Whether the signal reports success. -/
def isLoad (e : LoadEvent) : Bool :=
  e.type == "load"

end LoadEvent

/-- An optional text as messages show it. -/
def optionText : Option String → String
  | some s => s
  | none => "None"

end SingleFlight
