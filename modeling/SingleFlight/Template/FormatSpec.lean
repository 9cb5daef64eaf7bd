/-
SingleFlight.Template.FormatSpec — how one value is written: the part of a field
after its colon.

A specification is, in this order and each part optional: a fill character
before an alignment (`<` left, `>` right, `^` centre, `=` after the sign), a
sign (`+`, `-` or a space), `z`, `#`, `0`, a width, a grouping (`,` or `_`), a
precision after a point, and a code that says how to write the value. A number
can be written as a whole number in some base, as the character that it is the
code point of, or as the double nearest to it.

* `FormatSpec.read` — the specification that a text spells for a kind of value.
* `FormatSpec.applyText`, `FormatSpec.applyNumber` — a value written by it.
-/
import SingleFlight.Template.Decimal
import SingleFlight.Template.Error
import SingleFlight.Text.Digit

namespace SingleFlight.Template

open Text

/-- Where the padding of a value goes. -/
inductive Align where
  /-- Padding follows the value. -/
  | left
  /-- Padding precedes the value. -/
  | right
  /-- Padding is shared out, the odd character on the right. -/
  | centre
  /-- Padding stands between the sign and the digits. -/
  | afterSign
deriving DecidableEq, Repr

/-- How a value is to be written. -/
structure FormatSpec where
  fill : Char
  align : Align
  sign : Option Char
  coerceZero : Bool
  alternate : Bool
  width : Option Nat
  grouping : Option Char
  precision : Option Nat
  code : Char
deriving DecidableEq, Repr

/-! ## Reading -/

/-- The alignment that a character stands for. -/
def Align.ofChar? : Char → Option Align
  | '<' => some .left
  | '>' => some .right
  | '^' => some .centre
  | '=' => some .afterSign
  | _ => none

/-- The greatest number that an index or a width can be. -/
def greatestNumber : Nat := 0x7fffffffffffffff

/-- The value of a run of decimal digits. -/
def digitsValue (cs : List Char) : Nat :=
  cs.foldl (fun n c => 10 * n + (digitValue? c).getD 0) 0

/-- The number at the front of a text, if any, and the rest. -/
def takeNumber (cs : List Char) : Except TemplateError (Option Nat × List Char) :=
  let digits := cs.takeWhile (digitValue? · |>.isSome)
  let rest := cs.dropWhile (digitValue? · |>.isSome)
  if digits.isEmpty then .ok (none, cs)
  else if greatestNumber < digitsValue digits then .error .hugeNumber
  else .ok (some (digitsValue digits), rest)

/-- The fill and alignment at the front of a text, and the rest. -/
def takeAlign : List Char → Option Char × Option Align × List Char
  | first :: second :: r =>
    match Align.ofChar? second, Align.ofChar? first with
    | some a, _ => (some first, some a, r)
    | none, some a => (none, some a, second :: r)
    | none, none => (none, none, first :: second :: r)
  | [only] =>
    match Align.ofChar? only with
    | some a => (none, some a, [])
    | none => (none, none, [only])
  | [] => (none, none, [])

/-- The first character of a text if it is one of `options`, and the rest. -/
def takeOne (options : List Char) : List Char → Option Char × List Char
  | c :: r => if options.contains c then (some c, r) else (none, c :: r)
  | [] => (none, [])

/-- The grouping mark at the front of a text; a specification has at most one kind. -/
def takeGrouping (cs : List Char) : Except TemplateError (Option Char × List Char) :=
  match takeOne [','] cs with
  | (some comma, r) =>
    if r.head? = some '_' then .error .twoGroupings else .ok (some comma, r)
  | (none, _) =>
    match takeOne ['_'] cs with
    | (some mark, r) =>
      if r.head? = some ',' then .error .twoGroupings else .ok (some mark, r)
    | (none, _) => .ok (none, cs)

/-- The precision at the front of a text. -/
def takePrecision : List Char → Except TemplateError (Option Nat × List Char)
  | '.' :: r => do
    let (precision, rest) ← takeNumber r
    if precision.isNone then throw .missingPrecision
    return (precision, rest)
  | r => .ok (none, r)

/-- The code that a kind of value is written by when none is given. -/
def defaultCode : Kind → Char
  | .number => 'd'
  | _ => 's'

/-- Where a kind of value stands in its width when nothing else is said. -/
def defaultAlign : Kind → Align
  | .number => .right
  | _ => .left

/-- The one code that ends a specification. -/
def readCode (kind : Kind) (spec : List Char) :
    List Char → Except TemplateError Char
  | [] => .ok (defaultCode kind)
  | [c] => .ok c
  | _ => .error (.invalidSpec (String.ofList spec) kind)

/-- Whether digits written by `code` may be grouped by `separator`; the null code is let pass. -/
def groupable (separator code : Char) : Bool :=
  "deEfFgG%\x00".toList.contains code ||
    separator == '_' && "boxX".toList.contains code

/-- The specification that a text spells. -/
def FormatSpec.read (kind : Kind) (spec : List Char) :
    Except TemplateError FormatSpec := do
  let (fill, align, r) := takeAlign spec
  let (sign, r) := takeOne ['+', '-', ' '] r
  let (zeroMark, r) := takeOne ['z'] r
  let (alternate, r) := takeOne ['#'] r
  let (padding, r) := if fill.isNone then takeOne ['0'] r else (none, r)
  let (width, r) ← takeNumber r
  let (grouping, r) ← takeGrouping r
  let (precision, r) ← takePrecision r
  let code ← readCode kind spec r
  if let some separator := grouping then
    unless groupable separator code do throw (.groupingRefused separator code)
  let unaligned :=
    if padding.isSome && kind == .number then Align.afterSign else defaultAlign kind
  return {
    fill := (fill.or padding).getD ' '
    align := align.getD unaligned
    sign
    coerceZero := zeroMark.isSome
    alternate := alternate.isSome
    width
    grouping
    precision
    code }

namespace FormatSpec

/-! ## Writing -/

/-- The greatest width that a text is laid out in. -/
def greatestWidth : Nat := 0x10000000000

/-- Whether no text fills the width. -/
def isTooWide (s : FormatSpec) : Bool :=
  greatestWidth < s.width.getD 0

/-- Puts a text in its width; the padding after a sign is the caller's. -/
def pad (s : FormatSpec) (cs : List Char) : List Char :=
  let missing := s.width.getD 0 - cs.length
  match s.align with
  | .left => cs ++ List.replicate missing s.fill
  | .right => List.replicate missing s.fill ++ cs
  | .centre =>
    List.replicate (missing / 2) s.fill ++ cs ++
      List.replicate (missing - missing / 2) s.fill
  | .afterSign => cs

/-- A text written by a specification: at most `precision` characters, in its width. -/
def applyText (s : FormatSpec) (cs : List Char) : Except TemplateError (List Char) :=
  if s.code != 's' then .error (.unknownCode s.code .text)
  else if s.sign = some ' ' then .error .spaceOnText
  else if s.sign.isSome then .error .signOnText
  else if s.coerceZero then .error (.zeroCoercion .text)
  else if s.alternate then .error .alternateOnText
  else if s.align = .afterSign then .error .signPaddingOnText
  else if s.isTooWide then .error .hugeWidth
  else
    .ok (s.pad (match s.precision with
      | some n => cs.take n
      | none => cs))

/-- The base that a code writes whole numbers in. -/
def base? : Char → Option Nat
  | 'b' => some 2
  | 'o' => some 8
  | 'd' => some 10
  | 'n' => some 10
  | 'x' => some 16
  | 'X' => some 16
  | _ => none

/-- The mark of a base in alternate form. -/
def baseMark : Char → List Char
  | 'b' => ['0', 'b']
  | 'o' => ['0', 'o']
  | 'x' => ['0', 'x']
  | 'X' => ['0', 'X']
  | _ => []

/--
Digits, least first, in groups of `size + 1`, with zeros added until they and the separators
between the groups fill `width`.
-/
def groups (size : Nat) (digits : List Char) (width : Nat) : List (List Char) :=
  let taken := min (size + 1) (max (max digits.length width) 1)
  let group := digits.take taken ++ List.replicate (taken - digits.length) '0'
  if digits.length ≤ taken ∧ width ≤ taken then [group]
  else group :: groups size (digits.drop taken) (width - taken - 1)
termination_by digits.length + width
decreasing_by
  simp only [List.length_drop]
  omega

/-- Digits, least first, with a separator between the groups. -/
def separate (separator : Char) (size : Nat) (digits : List Char) (width : Nat) : List Char :=
  [separator].intercalate (groups size digits width)

/-- The size of the groups of a code's digits, less one. -/
def groupSize (s : FormatSpec) : Nat :=
  if "boxX".toList.contains s.code then 3 else 2

/-- Digits in their groups, with zeros in front up to `width`; where there are none, nothing. -/
def group (s : FormatSpec) (digits : List Char) (width : Nat) : List Char :=
  if digits.isEmpty then []
  else match s.grouping with
    | none => List.replicate (width - digits.length) '0' ++ digits
    | some separator => (separate separator s.groupSize digits.reverse width).reverse

/-- The sign of a number. -/
def writeSign (s : FormatSpec) (n : Int) : List Char :=
  if n < 0 then ['-']
  else match s.sign with
    | some '+' => ['+']
    | some ' ' => [' ']
    | _ => []

/-- A number in its width: the sign, the mark of its base, its digits in groups, and the rest. -/
def lay (s : FormatSpec) (n : Int) (mark : List Char) (w : Written) : List Char :=
  let lead := writeSign s n ++ mark
  let room := s.width.getD 0 - lead.length - w.rest.length
  if s.align = .afterSign then
    let digits := s.group w.digits (if s.fill = '0' then room else 0)
    lead ++ List.replicate (room - digits.length) s.fill ++ digits ++ w.rest
  else
    s.pad (lead ++ s.group w.digits 0 ++ w.rest)

/-- A whole number in a base. -/
def applyWhole (s : FormatSpec) (base : Nat) (n : Int) : List Char :=
  let digits := Nat.toDigits base n.natAbs
  s.lay n (if s.alternate then baseMark s.code else [])
    ⟨if s.code = 'X' then digits.map Char.toUpper else digits, []⟩

/-- Whether a number has at most 63 binary digits besides its sign. -/
def isWord (n : Int) : Bool :=
  -0x8000000000000000 ≤ n && n < 0x8000000000000000

/-- The character of a code point; one that no text can hold is shown as U+FFFD. -/
def character (n : Nat) : Char :=
  if (Char.ofNat n).toNat = n then Char.ofNat n else '\uFFFD'

/-- The character that a number stands for. -/
def applyCharacter (s : FormatSpec) (n : Int) : Except TemplateError (List Char) :=
  if s.sign.isSome then .error .signOnCharacter
  else if s.alternate then .error .alternateOnCharacter
  else if !isWord n then .error .hugeCharacter
  else if n < 0 ∨ 0x110000 ≤ n then .error .notACharacter
  else if s.isTooWide then .error .hugeWidth
  else .ok (s.lay 0 [] ⟨[], [character n.toNat]⟩)

/-- The greatest precision that a double can be written to. -/
def greatestPrecision : Nat := 0x7fffffff

/-- The codes that write a number as a double. -/
def writesDouble (code : Char) : Bool :=
  "eEfFgG%".toList.contains code

/-- A double that is a whole number, as a code writes it. -/
def writeDouble (s : FormatSpec) (n : Nat) : Written :=
  let precision := s.precision.getD 6
  match s.code with
  | 'e' => scientific 'e' s.alternate precision n
  | 'E' => scientific 'E' s.alternate precision n
  | 'g' => general 'e' s.alternate (max precision 1) n
  | 'G' => general 'E' s.alternate (max precision 1) n
  | _ => fixed s.alternate precision n

/-- A double that is a whole number, as a part of a hundred. -/
def writePercent (s : FormatSpec) (n : Nat) : Written :=
  match Double.ofNat? (100 * n) with
  | none => ⟨[], "inf%".toList⟩
  | some hundredfold =>
    let w := fixed s.alternate (s.precision.getD 6) hundredfold
    { w with rest := w.rest ++ ['%'] }

/-- A number as the double nearest to it. -/
def applyDouble (s : FormatSpec) (n : Int) : Except TemplateError (List Char) :=
  match Double.ofNat? n.natAbs with
  | none => .error .beyondDoubles
  | some nearest =>
    if greatestPrecision < s.precision.getD 0 then .error .hugePrecision
    else if s.isTooWide then .error .hugeWidth
    else .ok (s.lay n [] (if s.code = '%' then s.writePercent nearest else s.writeDouble nearest))

/-- A number written by a specification. -/
def applyNumber (s : FormatSpec) (n : Int) : Except TemplateError (List Char) :=
  if writesDouble s.code then s.applyDouble n
  else if s.code ≠ 'c' ∧ base? s.code = none then .error (.unknownCode s.code .number)
  else if s.precision.isSome then .error .precisionOnNumber
  else if s.coerceZero then .error (.zeroCoercion .number)
  else match base? s.code with
    | some base => if s.isTooWide then .error .hugeWidth else .ok (s.applyWhole base n)
    | none => s.applyCharacter n

end FormatSpec

end SingleFlight.Template
