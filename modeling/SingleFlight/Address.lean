/-
SingleFlight.Address — from chunk ids to addresses.

* `AddressTemplate` — a path followed by a template over the chunk's id and
  hash.
* `AddressBook` — such a template, or a table of addresses.
-/
import SingleFlight.Fault
import SingleFlight.Template.Render

namespace SingleFlight

/-- What a list of pairs holds for a key; a later pair overrides an earlier one. -/
def lastFor {κ α : Type} [BEq κ] (key : κ) (pairs : List (κ × α)) : Option α :=
  pairs.reverse.lookup key

/-- An address made of a fixed path and a file name that depends on the chunk. -/
structure AddressTemplate where
  publicPath : String := ""
  /-- May name `id` and `hash`. -/
  filename : String := "\x7bid\x7d.css"
  /-- The hashes of chunks; a chunk without one has the empty hash. -/
  hashes : List (ChunkId × String) := []
deriving Repr

namespace AddressTemplate

/-- A chunk id as a value of a template. -/
def idValue : ChunkId → Template.Value
  | .name s => .text s.toList
  | .number n => .number n

/-- The values that a file name may show for a chunk. -/
def bindings (a : AddressTemplate) (chunk : ChunkId) : Template.Bindings :=
  [("id".toList, idValue chunk),
    ("hash".toList, .text ((lastFor chunk a.hashes).getD "").toList)]

/-- The address of a chunk. -/
def resolve (a : AddressTemplate) (chunk : ChunkId) : Except Fault String :=
  match Template.render (a.bindings chunk) a.filename.toList with
  | .ok filename => .ok (a.publicPath ++ String.ofList filename)
  | .error e => .error (.template e)

end AddressTemplate

/-- Where the addresses of chunks are found. -/
inductive AddressBook where
  | template (a : AddressTemplate)
  | table (urls : List (ChunkId × String))

/-- The address of a chunk. -/
def AddressBook.resolve : AddressBook → ChunkId → Except Fault String
  | template a, chunk => a.resolve chunk
  | table urls, chunk =>
    match lastFor chunk urls with
    | some url => .ok url
    | none => .error (.noAddress chunk)

end SingleFlight
