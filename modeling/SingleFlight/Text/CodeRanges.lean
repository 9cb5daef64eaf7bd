/-
SingleFlight.Text.CodeRanges — sets of characters given by closed ranges of
code points, the shape in which every character property of this library is
tabulated.

* `CodeRanges.contains` — whether a character falls in one of the ranges.
* `contains_iff` — the reading of `contains` that proofs use.
-/
namespace SingleFlight.Text

/-- A set of characters: the first and the last code point of each range. -/
abbrev CodeRanges := List (Nat × Nat)

namespace CodeRanges

/-- Whether `c` falls in one of the ranges. -/
def contains (ranges : CodeRanges) (c : Char) : Bool :=
  ranges.any fun (first, last) => first ≤ c.toNat && c.toNat ≤ last

theorem contains_iff {ranges : CodeRanges} {c : Char} :
    ranges.contains c = true ↔ ∃ r ∈ ranges, r.1 ≤ c.toNat ∧ c.toNat ≤ r.2 := by
  simp [contains]

end CodeRanges

end SingleFlight.Text
