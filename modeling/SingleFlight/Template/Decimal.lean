/-
SingleFlight.Template.Decimal — whole numbers written as doubles are.

A double that is a whole number is written with a fixed number of places
(`fixed`), with an exponent (`scientific`), or with so many significant digits,
in whichever of the two forms is shorter (`general`). Digits that do not fit are
rounded, a half to the even neighbour.

* `leading` — the first digits of a number, rounded, and their exponent.
* `Written` — the digits before the point, which may be grouped, and the rest.
-/
import SingleFlight.Double

namespace SingleFlight.Template

/-- A number as it is written: digits before the point, and everything after them. -/
structure Written where
  digits : List Char
  rest : List Char
deriving DecidableEq, Repr

/-- The digits of a number, most significant first. -/
def decimalDigits (n : Nat) : List Char :=
  Nat.toDigits 10 n

/-- The first `count` digits of a number, rounded, and the power of ten of the first of them. -/
def leading (count n : Nat) : List Char × Nat :=
  let size := (decimalDigits n).length
  if size ≤ count then (decimalDigits n, size - 1)
  else
    let digits := decimalDigits (Double.divRound n (Nat.pow 10 (size - count)))
    if count < digits.length then (digits.take count, size) else (digits, size - 1)

/-- Digits with zeros after them, `count` in all. -/
def fillZeros (count : Nat) (digits : List Char) : List Char :=
  digits ++ List.replicate (count - digits.length) '0'

/-- Digits without the zeros at their end. -/
def dropZeros (digits : List Char) : List Char :=
  (digits.reverse.dropWhile (· == '0')).reverse

/-- The point and the digits after it; a point that nothing follows is kept on request. -/
def withPoint (keep : Bool) (fraction : List Char) : List Char :=
  if fraction.isEmpty && !keep then [] else '.' :: fraction

/-- An exponent, of two digits at least. -/
def exponentText (letter : Char) (exponent : Nat) : List Char :=
  let digits := decimalDigits exponent
  letter :: '+' :: (List.replicate (2 - digits.length) '0' ++ digits)

/-- A number with a fixed number of places. -/
def fixed (keep : Bool) (places n : Nat) : Written :=
  ⟨decimalDigits n, withPoint keep (List.replicate places '0')⟩

/-- A number with one digit before the point and `places` after it, and an exponent. -/
def scientific (letter : Char) (keep : Bool) (places n : Nat) : Written :=
  let (digits, exponent) := leading (places + 1) n
  ⟨digits.take 1,
    withPoint keep (fillZeros places (digits.drop 1)) ++ exponentText letter exponent⟩

/--
A number with `count` significant digits: with an exponent if it has more digits before the point
than that. Zeros at the end of the places are dropped, unless the full form is wanted.
-/
def general (letter : Char) (full : Bool) (count n : Nat) : Written :=
  let (digits, exponent) := leading count n
  let short := exponent < count
  let whole := if short then exponent + 1 else 1
  let places := digits.drop whole
  let fraction := if full then fillZeros (count - whole) places else dropZeros places
  ⟨digits.take whole,
    withPoint full fraction ++ if short then [] else exponentText letter exponent⟩

end SingleFlight.Template
