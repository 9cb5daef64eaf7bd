/-
SingleFlight.Template.Value — what a template can show.

A template names texts and numbers. What they tell about themselves is a value
too: their kind, the features that kinds hold, and what those are about.

* `Value` — the values.
* `Value.item` — the part of a value that an index selects.
* `Value.member` — what a value tells under a name. Facts that the kind of the
  value holds come first; a kind then tells what it holds itself.
* `Value.write` — a value as text, by a format specification.
-/
import SingleFlight.Template.Catalogue
import SingleFlight.Template.FormatSpec
import SingleFlight.Text.Quoted

namespace SingleFlight.Template

open Text

/-- What a template can show: values that it names, and what they tell about themselves. -/
inductive Value where
  | text (cs : List Char)
  | number (n : Int)
  | nothing
  | kind (k : Kind)
  | kinds (ks : List Kind)
  /-- A feature as its kind holds it. -/
  | feature (owner : Kind) (f : Feature)
  /-- A feature of one value. -/
  | bound (holder : Value) (owner : Kind) (f : Feature)
  /-- What a kind holds itself, by name. -/
  | catalogue (k : Kind)
  /-- A kind with an argument. -/
  | indexed (k : Kind) (argument : Value)
deriving DecidableEq, Repr

namespace Value

/-- The kind that a value is a case of. -/
def kindOf : Value → Kind
  | text _ => .text
  | number _ => .number
  | nothing => .nothing
  | kind _ => .ofKinds
  | kinds _ => .several
  | feature _ f => f.sort.kindOf
  | bound _ _ f => if f.sort = .operator then .boundOperator else .boundMethod
  | catalogue _ => .catalogue
  | indexed _ _ => .indexed

/-- A text that may be missing. -/
def ofText? (t : Option String) : Value :=
  match t with
  | some t => text t.toList
  | none => nothing

/-- A kind that may be missing. -/
def ofKind? (k : Option Kind) : Value :=
  match k with
  | some k => kind k
  | none => nothing

/-! ## Values as text -/

/-- What a kind holds under a name, as a catalogue shows it. -/
def entryShown (quote : List Char → List Char) (k : Kind) (f : Feature) : List Char :=
  match f.sort with
  | .about => (f.about?.map fun t => quote t.toList).getD "None".toList
  | .absent => "None".toList
  | .maker => (f.boundShown .ofKinds).toList
  | .looseMethod => "<staticmethod(".toList ++ (f.boundShown .ofKinds).toList ++ ")>".toList
  | _ => (f.shown k).toList

/-- What a kind holds, as a catalogue shows it. -/
def entriesShown (quote : List Char → List Char) (k : Kind) : List Char :=
  let entries := k.features.map fun f =>
    quote f.name.toList ++ ": ".toList ++ entryShown quote k f
  '\x7b' :: List.intercalate ", ".toList entries ++ ['\x7d']

/-- A value as it is told from others: a text in quotes. -/
def shown (quote : List Char → List Char) : Value → List Char
  | text cs => quote cs
  | number n => (toString n).toList
  | nothing => "None".toList
  | kind k => k.shown.toList
  | kinds ks => (Kind.rowShown ks).toList
  | feature owner f => (f.shown owner).toList
  | bound holder _ f => (f.boundShown holder.kindOf).toList
  | catalogue k => "mappingproxy(".toList ++ entriesShown quote k ++ [')']
  | indexed k argument => k.word.toList ++ '[' :: argument.shown quote ++ [']']

/-- A value as plain text: a number in decimal. -/
def plain : Value → List Char
  | text cs => cs
  | catalogue k => entriesShown quote k
  | v => v.shown quote

/--
A value after a conversion: as text, quoted, or quoted in ASCII. The null character stands for no
conversion.
-/
def convert (v : Value) : Option Char → Except TemplateError Value
  | none => .ok v
  | some code =>
    if code = '\x00' then .ok v
    else if code = 's' then .ok (text v.plain)
    else if code = 'r' then .ok (text (v.shown quote))
    else if code = 'a' then .ok (text (v.shown quoteAscii))
    else .error (.unknownConversion code)

/-- A value written by a format specification, which only texts and numbers have a choice of. -/
def write (v : Value) (spec : List Char) : Except TemplateError (List Char) :=
  match v with
  | text cs => do (← FormatSpec.read .text spec).applyText cs
  | number n => do (← FormatSpec.read .number spec).applyNumber n
  | v => if spec.isEmpty then .ok v.plain else .error (.notFormattable v.kindOf)

/-! ## Features -/

/-- What a kind holds under a name, as it is. -/
def held (owner : Kind) (f : Feature) : Value :=
  match f.sort with
  | .about => ofText? f.about?
  | .absent => nothing
  | .maker => bound (kind owner) owner f
  | .looseMethod => bound (kind owner) owner f
  | _ => feature owner f

/-- What a kind holds under a name, as the kind `k` tells it. -/
def heldFor (k owner : Kind) (f : Feature) : Value :=
  if f.sort = .kindMethod then bound (kind k) owner f else held owner f

/-- A feature that is no fact, as one value has it. -/
def heldBy (v : Value) (owner : Kind) (f : Feature) : Value :=
  if f.sort = .method || f.sort = .operator then bound v owner f else heldFor v.kindOf owner f

/-- The name of a feature after that of a kind. -/
def fullName (k : Kind) (f : Feature) : Value :=
  text (k.name ++ "." ++ f.name).toList

/-- The kind whose name a feature of a value is told with. -/
def tellingKind (v : Value) (owner : Kind) (f : Feature) : Kind :=
  if f.sort = .operator then owner
  else
    match v with
    | kind k => k
    | v => v.kindOf

/-- The facts about a feature that do not depend on who has it. -/
def featureFact (owner : Kind) (f : Feature) (name : String) : Value :=
  if name = "__name__" then text f.name.toList
  else if name = "__objclass__" then kind owner
  else if name = "__doc__" then ofText? f.about?
  else if name = "__text_signature__" then ofText? f.signature?
  else nothing

/-- The parts of a whole number as a complex one and as a fraction. -/
def numberFact (n : Int) (name : String) : Value :=
  if name = "imag" then number 0
  else if name = "denominator" then number 1
  else number n

/--
What a kind is about: what it holds under that name. The kind of kinds holds a fact about kinds
there, and says on its own what it is about.
-/
def aboutKind (k : Kind) : Value :=
  if k = .ofKinds then text Feature.aboutKinds.toList
  else (k.own? "__doc__").elim nothing (held k)

/-- The facts about a kind that it shares with no other; some are not told by any kind here. -/
def kindFact (k : Kind) (name : String) : Except TemplateError Value :=
  if name = "__name__" || name = "__qualname__" then .ok (text k.name.toList)
  else if name = "__module__" then .ok (text k.home.toList)
  else if name = "__base__" then .ok (ofKind? k.base?)
  else if name = "__bases__" then .ok (kinds k.base?.toList)
  else if name = "__mro__" then .ok (kinds k.line)
  else if name = "__doc__" then .ok (aboutKind k)
  else if name = "__text_signature__" then .ok (ofText? k.signature?)
  else if name = "__dict__" then .ok (catalogue k)
  else if name = "__basicsize__" then .ok (number k.measures.size)
  else if name = "__itemsize__" then .ok (number k.measures.partSize)
  else if name = "__flags__" then .ok (number k.measures.flags)
  else if name = "__dictoffset__" then .ok (number k.measures.factsAt)
  else if name = "__weakrefoffset__" then .ok (number k.measures.watchersAt)
  else if name = "__abstractmethods__" then .error (.unset name)
  else .error (.noKindAttribute k name)

/-- The fact that a value tells under a name for which its kind holds a fact. -/
def fact (name : String) (v : Value) : Except TemplateError Value :=
  if name = "__class__" then .ok (kind v.kindOf)
  else
    match v with
    | number n => .ok (numberFact n name)
    | kind k => kindFact k name
    | feature owner f =>
      .ok (if name = "__qualname__" then fullName owner f else featureFact owner f name)
    | bound holder owner f =>
      .ok (if name = "__self__" then (if f.sort = .looseMethod then nothing else holder)
        else if name = "__qualname__" then fullName (holder.tellingKind owner f) f
        else featureFact owner f name)
    | indexed k _ =>
      .ok (if name = "__origin__" then kind k
        else if name = "__parameters__" then kinds []
        else nothing)
    | _ => .ok nothing

/-! ## Parts -/

/-- The part that stands at an index. -/
def partAt {α : Type} (parts : List α) (index : Value) (notNumeric outOfRange : TemplateError) :
    Except TemplateError α :=
  match index with
  | number i =>
    match parts[i.toNat]? with
    | some part => .ok part
    | none => .error outOfRange
  | _ => .error notNumeric

/-- What a catalogue has under an index. -/
def entryAt (k : Kind) (index : Value) : Except TemplateError Value :=
  match index with
  | text cs =>
    match k.own? (String.ofList cs) with
    | some f => .ok (held k f)
    | none => .error (.unknownName (String.ofList cs))
  | v => .error (.noEntry (String.ofList v.plain))

/--
The part of a value that an index selects: a character of a text, a kind in a row, or an entry of a
catalogue. Some kinds take the index as an argument.
-/
def item (v index : Value) : Except TemplateError Value :=
  match v with
  | text cs =>
    (partAt cs index .indexNotNumeric .indexOutOfRange).map fun c => text [c]
  | kinds ks =>
    (partAt ks index .rowIndexNotNumeric .rowIndexOutOfRange).map kind
  | kind k => if k.takesArgument then .ok (indexed k index) else .error (.kindNotIndexable k)
  | catalogue k => entryAt k index
  | indexed _ _ => .error (.alreadyIndexed (String.ofList (v.shown quote)))
  | _ => .error (.notIndexable v.kindOf)

/-- What a value tells under a name by its kind alone. -/
def ofKindOf (name : String) (v : Value) : Except TemplateError Value :=
  match v.kindOf.feature? name with
  | some (owner, f) => if f.sort.isFact then v.fact name else .ok (v.heldBy owner f)
  | none => .error (.noAttribute v.kindOf name)

/-- What a kind tells under a name: its facts, what it holds for its values, what kinds do. -/
def ofKind (name : String) (k : Kind) : Except TemplateError Value :=
  match Kind.ofKinds.feature? name, k.feature? name with
  | some (owner, f), held =>
    if f.sort.isFact then (kind k).fact name
    else .ok (held.elim ((kind k).heldBy owner f) fun (owner, f) => heldFor k owner f)
  | none, some (owner, f) => .ok (heldFor k owner f)
  | none, none => .error (.noKindAttribute k name)

/-- The names under which a kind with an argument does not tell what the kind does. -/
def indexedNames : List String :=
  ["__class__", "__origin__", "__args__", "__unpacked__", "__parameters__",
    "__typing_unpacked_tuple_args__", "__mro_entries__", "__reduce_ex__", "__reduce__",
    "__copy__", "__deepcopy__"]

/-- What a value tells under a name. -/
def member (name : String) : Value → Except TemplateError Value
  | kind k => ofKind name k
  | indexed k argument =>
    if indexedNames.contains name then (indexed k argument).ofKindOf name else ofKind name k
  | v => v.ofKindOf name

end Value

end SingleFlight.Template
