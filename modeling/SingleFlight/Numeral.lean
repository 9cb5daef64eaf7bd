/-
SingleFlight.Numeral — numbers written as text, and their nearest doubles.

A numeral is an optional sign followed by one of

* digits with at most one point, before, between or after them, and at most one
  exponent (`e` or `E`, an optional sign, digits);
* `inf` or `infinity`, in any case;
* `nan`, in any case.

Digits may be those of any script, and a single `_` may stand between two of
them.

* `Numeral` — what a text says, exactly: a decimal `digits · 10 ^ exponent`, an
  infinity, or no number.
* `Numeral.read?` — the numeral that a text spells.
* `Numeral.toFloat` — the nearest double, ties to even.
-/
import SingleFlight.Text.Digit

namespace SingleFlight

open Text

/-- The size that a numeral writes, its sign aside. -/
inductive Magnitude where
  /-- The number `digits · 10 ^ exponent`. -/
  | decimal (digits : Nat) (exponent : Int)
  | infinite
  | notANumber
deriving DecidableEq, Repr

/-- A signed numeral. -/
structure Numeral where
  negative : Bool
  magnitude : Magnitude
deriving DecidableEq, Repr

namespace Numeral

/-! ## Reading -/

/-- Writes the digits of every script as ASCII digits. -/
def plainDigits (cs : List Char) : List Char :=
  cs.map fun c => match digitValue? c with
    | some d => Nat.digitChar d
    | none => c

/-- Whether every `_` stands between two ASCII digits, given what stands before the text. -/
def separatorsOk (before : Option Char) : List Char → Bool
  | [] => before != some '_'
  | c :: r =>
    (if c = '_' then before.any Char.isDigit
      else before != some '_' || c.isDigit) && separatorsOk (some c) r

/-- The digits at the front of a text, and the rest. -/
def spanDigits (cs : List Char) : List Char × List Char :=
  (cs.takeWhile Char.isDigit, cs.dropWhile Char.isDigit)

/-- The sign at the front of a text (minus?), and the rest. -/
def spanSign : List Char → Bool × List Char
  | '-' :: r => (true, r)
  | '+' :: r => (false, r)
  | r => (false, r)

/-- The exponent that ends a numeral; an absent one is zero. -/
def readExponent? : List Char → Option Int
  | [] => some 0
  | c :: r =>
    if c = 'e' || c = 'E' then
      let (negative, body) := spanSign r
      let (digits, rest) := spanDigits body
      if digits.isEmpty || !rest.isEmpty then none
      else
        let size : Int := Nat.ofDigitChars 10 digits 0
        some (if negative then -size else size)
    else none

/-- The digits with their point and exponent. -/
def readDecimal? (cs : List Char) : Option Magnitude :=
  let (whole, afterWhole) := spanDigits cs
  let (fraction, rest) := match afterWhole with
    | '.' :: r => spanDigits r
    | r => ([], r)
  if whole.isEmpty && fraction.isEmpty then none
  else (readExponent? rest).map fun exponent =>
    .decimal (Nat.ofDigitChars 10 (whole ++ fraction) 0) (exponent - fraction.length)

/-- The words that stand for something other than a decimal, in lower case. -/
def readWord? (cs : List Char) : Option Magnitude :=
  let word := cs.map Char.toLower
  if word = "inf".toList || word = "infinity".toList then some .infinite
  else if word = "nan".toList then some .notANumber
  else none

/-- The numeral that the whole text spells, if it spells one. -/
def read? (cs : List Char) : Option Numeral :=
  let ascii := plainDigits cs
  if separatorsOk none ascii then
    let (negative, body) := spanSign (ascii.filter (· != '_'))
    ((readWord? body).or (readDecimal? body)).map (⟨negative, ·⟩)
  else none

/-! ## Values -/

/-- Decimals from ten to this power on are beyond the largest double. -/
def exponentCeiling : Int := 310

/-- Decimals below ten to this power are nearer to zero than to the least double. -/
def exponentFloor : Int := -350

/-- The double nearest to a magnitude. -/
def nearest : Magnitude → Float
  | .infinite => Float.ofBits 0x7ff0000000000000
  | .notANumber => Float.ofBits 0x7ff8000000000000
  | .decimal digits exponent =>
    let top : Int := exponent + (Nat.toDigits 10 digits).length
    if digits = 0 || top < exponentFloor then 0
    else if exponentCeiling < top then Float.ofBits 0x7ff0000000000000
    else Float.ofScientific digits (exponent < 0) exponent.natAbs

/-- The double nearest to a numeral; a negative zero keeps its sign. -/
def toFloat (n : Numeral) : Float :=
  if n.negative then -nearest n.magnitude else nearest n.magnitude

end Numeral

end SingleFlight
