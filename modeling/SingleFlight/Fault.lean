/-
SingleFlight.Fault — why an operation is refused.

* `Fault` — the causes, one constructor each.
* `Fault.message` — their wording.
-/
import SingleFlight.Failure
import SingleFlight.Metrics.Error
import SingleFlight.Template.Error

namespace SingleFlight

/-- Why an operation is refused. -/
inductive Fault where
  /-- A load failed. -/
  | load (f : LoadFailure)
  | template (e : TemplateError)
  | metrics (e : Metrics.MetricsError)
  /-- Something was to be made from the wrong parts. -/
  | parts (e : PartError)
  /-- A table of addresses has none for the chunk. -/
  | noAddress (chunk : ChunkId)
  /-- No registered handle has the address. -/
  | noHandle (url : String)
  /-- A registry that fetches was given a handle that cannot hold what it fetches. -/
  | notFetchable
  /-- The watchdog's window is zero or less. -/
  | windowNotPositive
  | blankName
  | unreadableNumber (text : String)
  /-- A number of seconds beyond the largest double. -/
  | hugeSeconds
  | unknownRegistry (backend : String)
  | unknownSink (backend : String)
  /-- A chunk was to be installed in a state that is not final. -/
  | badSeed (chunk : ChunkId) (state : String)
  /-- The loader has been shut down. -/
  | closed
  /-- A report was to be queued before the first request. -/
  | neverUsed
  /-- There is no observer to tell an outcome to. -/
  | noObserver
  /-- A script names something that there is not. -/
  | missing (name : String)
  /-- Code of the library's user raised an error of its own. -/
  | foreign (text : String)

/-- A text as messages quote it. -/
def quoted (s : String) : String :=
  String.ofList (Text.quote s.toList)

/-- The wording of a fault. -/
def Fault.message : Fault → String
  | load f => f.message
  | template (.unknownName name) => quoted name
  | template e => e.message
  | metrics e => e.message
  | parts e => e.message
  | noAddress chunk => chunk.quoted
  | noHandle url => quoted url
  | notFetchable => "HttpHandleRegistry only attaches HttpFetchHandle instances"
  | windowNotPositive => "timeout_s must be > 0"
  | blankName => "unique_name must be non-empty"
  | unreadableNumber text => "could not convert string to float: " ++ quoted text
  | hugeSeconds => "int too large to convert to float"
  | unknownRegistry backend => "Unknown handle registry backend '" ++ backend ++ "'"
  | unknownSink backend => "Unknown metrics backend: " ++ backend
  | badSeed chunk state =>
    "Chunk " ++ chunk.quoted ++ " can only be seeded as one of ('skipped', 'loaded'), got " ++
      quoted state
  | closed => "ChunkLoadingRuntime is closed"
  | neverUsed => "LoadCache has not been used from an event loop yet"
  | noObserver => "'NoneType' object is not callable"
  | missing name => name
  | foreign text => text

end SingleFlight
