/-
SingleFlight.Template.Render — templates filled in with named values.

A field names a value, may select a part of it (`[index]`, `.attribute`), may
turn it into text by a conversion, and writes the result by its format
specification, in which one further level of fields is filled in first. Fields
are filled in from left to right, so the first field that fails decides the
error.

* `select` — the part of a value that a chain of selectors picks out.
* `render` — a template filled in.
-/
import SingleFlight.Template.Piece
import SingleFlight.Template.Value

namespace SingleFlight.Template

open Text

/-- The values that a template's fields may name. -/
abbrev Bindings := List (List Char × Value)

/-! ## Fields -/

/-- Whether a character starts a selector. -/
def startsSelector (c : Char) : Bool :=
  c == '.' || c == '['

/--
The number that a whole text spells in decimal digits, if it does. Digits that spell a number
that no index can have are refused whatever follows them.
-/
def readIndex (cs : List Char) : Except TemplateError (Option Nat) :=
  let digits := cs.takeWhile (digitValue? · |>.isSome)
  if greatestNumber < digitsValue digits then .error .hugeNumber
  else if digits.isEmpty || digits.length < cs.length then .ok none
  else .ok (some (digitsValue digits))

/-- What stands in brackets, as a value: a number if it spells one, or else a text. -/
def indexValue (name : List Char) : Option Nat → Value
  | some i => .number i
  | none => .text name

/-- The part of a value that a chain of selectors picks out. -/
def select (v : Value) : List Char → Except TemplateError Value
  | [] => .ok v
  | mark :: r =>
    if mark = '.' then
      let name := r.takeWhile (!startsSelector ·)
      if name.isEmpty then .error .emptyAttribute
      else
        match v.member (String.ofList name) with
        | .error e => .error e
        | .ok part => select part (r.dropWhile (!startsSelector ·))
    else if mark = '[' then
      let name := r.takeWhile (· != ']')
      match _ended : r.dropWhile (· != ']') with
      | [] => .error .unclosedIndex
      | _ :: rest =>
        match readIndex name with
        | .error e => .error e
        | .ok index =>
          if name.isEmpty then .error .emptyAttribute
          else
            match v.item (indexValue name index) with
            | .error e => .error e
            | .ok part => select part rest
    else .error .junkAfterIndex
termination_by cs => cs.length
decreasing_by
  · have := (List.dropWhile_sublist (!startsSelector ·) (l := r)).length_le
    simp only [List.length_cons]
    omega
  · have := (List.dropWhile_sublist (· != ']') (l := r)).length_le
    rw [_ended] at this
    simp only [List.length_cons] at *
    omega

/-- The value that a field's name stands for. -/
def resolve (bindings : Bindings) (name : List Char) : Except TemplateError Value := do
  let first := name.takeWhile (!startsSelector ·)
  match ← readIndex first with
  | some index => throw (.noPosition index)
  | none =>
    if first.isEmpty then throw (.noPosition 0)
    else
      match bindings.lookup first with
      | some v => select v (name.dropWhile (!startsSelector ·))
      | none => throw (.unknownName (String.ofList first))

/-- One piece filled in; `expand` fills in the fields of a format specification. -/
def renderPiece (bindings : Bindings) (expand : List Char → Except TemplateError (List Char)) :
    Piece → Except TemplateError (List Char)
  | .char c => .ok [c]
  | .broken e => .error e
  | .field f => do
    let v ← resolve bindings f.name
    let v ← v.convert f.conversion
    let spec ← if f.spec.contains '{' then expand f.spec else pure f.spec
    v.write spec

/-- A template filled in, its fields nested at most `depth` levels deep. -/
def renderNested (bindings : Bindings) : Nat → List Char → Except TemplateError (List Char)
  | 0, _ => .error .tooDeep
  | depth + 1, cs =>
    ((pieces cs).mapM (renderPiece bindings (renderNested bindings depth))).map List.flatten

/-- A template filled in; the fields of a specification are the only nesting. -/
def render (bindings : Bindings) (cs : List Char) : Except TemplateError (List Char) :=
  renderNested bindings 2 cs

end SingleFlight.Template
