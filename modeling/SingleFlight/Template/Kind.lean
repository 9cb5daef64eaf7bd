/-
SingleFlight.Template.Kind — the kinds of value that a template can meet.

The values that a template names are texts and numbers. A value tells its kind;
a kind is a value too, and so is what it tells about itself.

* `Kind.word`, `Kind.name` — the name of a kind, with and without where it is from.
* `Kind.line` — a kind and those that it is a case of, the nearest first.
* `Kind.measures` — how values of a kind are laid out.
-/
namespace SingleFlight.Template

/-- The kinds of value. -/
inductive Kind where
  | text
  | number
  /-- The kind of kinds. -/
  | ofKinds
  /-- What every value is a case of. -/
  | anything
  /-- Several kinds in a row. -/
  | several
  | nothing
  /-- A method of one value. -/
  | boundMethod
  /-- An operator of one value. -/
  | boundOperator
  /-- A method as its kind holds it. -/
  | method
  /-- An operator as its kind holds it. -/
  | operator
  /-- A fact that is worked out, as its kind holds it. -/
  | field
  /-- A fact that is kept, as its kind holds it. -/
  | cell
  /-- A method of a kind and not of its values. -/
  | kindMethod
  /-- What a kind holds, by name. -/
  | catalogue
  /-- A kind with an argument. -/
  | indexed
deriving DecidableEq, Repr

/-- How values of a kind are laid out, in bytes, and what can be done with the kind, in bits. -/
structure Measures where
  size : Nat
  /-- The size of each further part. -/
  partSize : Nat := 0
  flags : Nat
  /-- Where a value keeps facts of its own; zero if it keeps none. -/
  factsAt : Nat := 0
  /-- Where a value keeps who looks at it; zero if it does not. -/
  watchersAt : Nat := 0
deriving DecidableEq, Repr

namespace Kind

/-- Where a kind is from. -/
def home : Kind → String
  | indexed => "types"
  | _ => "builtins"

/-- The name of a kind. -/
def name : Kind → String
  | text => "str"
  | number => "int"
  | ofKinds => "type"
  | anything => "object"
  | several => "tuple"
  | nothing => "NoneType"
  | boundMethod => "builtin_function_or_method"
  | boundOperator => "method-wrapper"
  | method => "method_descriptor"
  | operator => "wrapper_descriptor"
  | field => "getset_descriptor"
  | cell => "member_descriptor"
  | kindMethod => "classmethod_descriptor"
  | catalogue => "mappingproxy"
  | indexed => "GenericAlias"

/-- The name of a kind, after that of its home unless that is where everybody looks. -/
def word (k : Kind) : String :=
  if k.home = "builtins" then k.name else k.home ++ "." ++ k.name

/-- A kind as text. -/
def shown (k : Kind) : String :=
  "<class '" ++ k.word ++ "'>"

/-- The kind that a kind is a case of, unless it is the kind of everything. -/
def base? : Kind → Option Kind
  | anything => none
  | _ => some anything

/-- A kind and the kinds that it is a case of, the nearest first. -/
def line (k : Kind) : List Kind :=
  k :: k.base?.toList

/-- Kinds in a row as text; a row of one keeps its comma. -/
def rowShown : List Kind → String
  | [k] => "(" ++ k.shown ++ ",)"
  | ks => "(" ++ ", ".intercalate (ks.map shown) ++ ")"

/-- The arguments from which a value of a kind is made, where they are told. -/
def signature? : Kind → Option String
  | anything => some "()"
  | several => some "(iterable=(), /)"
  | _ => none

/-- How values of a kind are laid out. -/
def measures : Kind → Measures
  | text => { size := 80, flags := 273159424 }
  | number => { size := 24, partSize := 4, flags := 21501184 }
  | ofKinds =>
    { size := 904, partSize := 40, flags := 2148031744, factsAt := 264, watchersAt := 368 }
  | anything => { size := 16, flags := 529664 }
  | several => { size := 24, partSize := 8, flags := 71849248 }
  | nothing => { size := 16, flags := 528640 }
  | boundMethod => { size := 56, flags := 547200, watchersAt := 40 }
  | boundOperator => { size := 32, flags := 545152 }
  | method => { size := 56, flags := 678272 }
  | operator => { size := 56, flags := 676224 }
  | field => { size := 48, flags := 545152 }
  | cell => { size := 48, flags := 545152 }
  | kindMethod => { size := 56, flags := 545152 }
  | catalogue => { size := 24, flags := 545088 }
  | indexed => { size := 64, flags := 548096, watchersAt := 40 }

/-- Whether a kind takes an argument. -/
def takesArgument : Kind → Bool
  | ofKinds => true
  | several => true
  | catalogue => true
  | _ => false

end Kind

end SingleFlight.Template
