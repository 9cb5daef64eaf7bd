/-
SingleFlight.Template.Feature — what a kind of value holds under a name.

A kind lists what its values can do and the facts that they tell about
themselves. Such a feature has arguments and a description, either of which may
be missing.

* `FeatureSort` — what sort of thing is held.
* `Feature` — one row of a kind's list; a builder for each sort.
* `Feature.shown` — a feature as text, by its kind.
-/
import SingleFlight.Template.Kind

namespace SingleFlight.Template

/-- What a kind can hold under a name. -/
inductive FeatureSort where
  /-- Something that values of the kind do. -/
  | method
  /-- Something that values of many kinds do. -/
  | operator
  /-- A fact that is worked out when it is asked for. -/
  | field
  /-- A fact that is kept. -/
  | cell
  /-- Something that the kind does itself. -/
  | kindMethod
  /-- Something that is done with neither the kind nor a value of it. -/
  | looseMethod
  /-- What makes the values of the kind. -/
  | maker
  /-- What the kind is about. -/
  | about
  /-- Something that the values of the kind cannot do, though others can. -/
  | absent
deriving DecidableEq, Repr

namespace FeatureSort

/-- Whether a fact takes the place of the feature where a value is asked for it. -/
def isFact : FeatureSort → Bool
  | field => true
  | cell => true
  | _ => false

/-- The kind of what is held. -/
def kindOf : FeatureSort → Kind
  | method => .method
  | operator => .operator
  | field => .field
  | cell => .cell
  | kindMethod => .kindMethod
  | looseMethod => .boundMethod
  | maker => .boundMethod
  | about => .text
  | absent => .nothing

/-- What a sort is called in the text of a feature. -/
def word : FeatureSort → String
  | operator => "slot wrapper"
  | field => "attribute"
  | cell => "member"
  | _ => "method"

end FeatureSort

/-- What a kind holds under a name. -/
structure Feature where
  name : String
  sort : FeatureSort
  /-- The arguments that it takes. -/
  signature? : Option String := none
  about? : Option String := none
deriving DecidableEq, Repr

namespace Feature

/-- A feature from its texts; an empty signature or no lines stand for a missing text. -/
def ofText (sort : FeatureSort) (name signature : String) (about : List String) : Feature where
  name
  sort
  signature? := if signature.isEmpty then none else some signature
  about? := if about.isEmpty then none else some ("\n".intercalate about)

/-- Something that values of the kind do: its name, its arguments, and what it does. -/
def method : String → String → List String → Feature :=
  ofText .method

/-- Something that the kind does itself. -/
def kindMethod : String → String → List String → Feature :=
  ofText .kindMethod

/-- Something that is done with neither the kind nor a value of it. -/
def looseMethod : String → String → List String → Feature :=
  ofText .looseMethod

/-- A fact that is worked out, and what it tells. -/
def field (name : String) : List String → Feature :=
  ofText .field name ""

/-- A fact that is kept, and what it tells. -/
def cell (name : String) : List String → Feature :=
  ofText .cell name ""

/-- What makes the values of the kind. -/
def maker : Feature :=
  ofText .maker "__new__" "($type, *args, **kwargs)"
    ["Create and return a new object.  See help(type) for accurate signature."]

/-- What the kind is about. -/
def about : List String → Feature :=
  ofText .about "__doc__" ""

/-- Something that the values of the kind cannot do. -/
def absent (name : String) : Feature :=
  ofText .absent name "" []

/-- A feature as text, as the kind `owner` holds it. -/
def shown (owner : Kind) (f : Feature) : String :=
  "<" ++ f.sort.word ++ " '" ++ f.name ++ "' of '" ++ owner.word ++ "' objects>"

/--
A feature of one value as text, by the kind of that value. The place of the value, with which the
text ends, is of no account; zero stands for it.
-/
def boundShown (holder : Kind) (f : Feature) : String :=
  let start := if f.sort = .operator then "<method-wrapper '" ++ f.name ++ "'"
    else "<built-in method " ++ f.name
  start ++ " of " ++ holder.word ++ " object at 0x0>"

end Feature

end SingleFlight.Template
