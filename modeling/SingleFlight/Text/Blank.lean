/-
SingleFlight.Text.Blank — white space and trimming.

White space is the set of characters that separate words or lines in the
bidirectional classes B, S and WS, with the separators U+001C to U+001F among
them; the zero-width space U+200B is none.

* `isBlank` — the class.
* `trim` — a text without the white space at its two ends.
* `allBlank` — whether a text has nothing but white space; `trim` is then empty
  (`trim_eq_nil_iff`).
-/
import SingleFlight.Text.CodeRanges

namespace SingleFlight.Text

/-- The ranges of white space. -/
def blankRanges : CodeRanges :=
  [(9, 13), (28, 32), (133, 133), (160, 160), (5760, 5760), (8192, 8202), (8232, 8233),
   (8239, 8239), (8287, 8287), (12288, 12288)]

/-- Whether a character is white space. -/
def isBlank (c : Char) : Bool :=
  blankRanges.contains c

/-- Whether a text consists of white space alone; the empty text does. -/
def allBlank (cs : List Char) : Bool :=
  cs.all isBlank

/-- A text without its leading white space. -/
def trimLeft (cs : List Char) : List Char :=
  cs.dropWhile isBlank

/-- A text without its trailing white space. -/
def trimRight (cs : List Char) : List Char :=
  (trimLeft cs.reverse).reverse

/-- A text without the white space at its two ends. -/
def trim (cs : List Char) : List Char :=
  trimRight (trimLeft cs)

/-! ## Laws -/

theorem trimLeft_eq_nil_iff {cs : List Char} : trimLeft cs = [] ↔ allBlank cs = true := by
  induction cs with
  | nil => simp [trimLeft, allBlank]
  | cons c r ih =>
    by_cases hc : isBlank c = true <;> simp_all [trimLeft, allBlank]

/-- Trimming the front leaves no white space there. -/
theorem isBlank_of_trimLeft_eq_cons {cs r : List Char} {c : Char}
    (h : trimLeft cs = c :: r) : isBlank c = false := by
  induction cs with
  | nil => simp [trimLeft] at h
  | cons d s ih =>
    by_cases hd : isBlank d = true
    · exact ih (by simpa [trimLeft, hd] using h)
    · simp [trimLeft, hd] at h
      simpa [h.1] using hd

theorem trimRight_eq_nil_iff {cs : List Char} : trimRight cs = [] ↔ allBlank cs = true := by
  simp [trimRight, trimLeft_eq_nil_iff, allBlank]

/-- What is left of a text of white space is nothing, and of no other text. -/
theorem trim_eq_nil_iff {cs : List Char} : trim cs = [] ↔ allBlank cs = true := by
  rw [trim, trimRight_eq_nil_iff, ← @trimLeft_eq_nil_iff cs]
  cases hc : trimLeft cs with
  | nil => simp [allBlank]
  | cons c r => simp [allBlank, isBlank_of_trimLeft_eq_cons hc]

end SingleFlight.Text
