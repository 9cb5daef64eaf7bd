/-
SingleFlight.Text.Quoted — the quoted form of a text, as error messages and
templates show it.

* `quote` — quoted, with every character that has no glyph escaped.
* `quoteAscii` — the same, with every character outside ASCII escaped too.

The quote is the apostrophe, unless the text has an apostrophe and no double
quote. The quote in use, the backslash, tab, line feed and carriage return are
escaped by a backslash; other characters that have to be escaped by their code
in two, four or eight hexadecimal digits.
-/
import SingleFlight.Text.Printable

namespace SingleFlight.Text

/-- The quote that encloses a text. -/
def quoteMark (cs : List Char) : Char :=
  if cs.contains '\'' && !cs.contains '"' then '"' else '\''

/-- `n` in at least `width` hexadecimal digits. -/
def hexDigits (width n : Nat) : List Char :=
  let digits := Nat.toDigits 16 n
  List.replicate (width - digits.length) '0' ++ digits

/-- A character by its code. -/
def escapeCode (c : Char) : List Char :=
  if c.toNat < 0x100 then '\\' :: 'x' :: hexDigits 2 c.toNat
  else if c.toNat < 0x10000 then '\\' :: 'u' :: hexDigits 4 c.toNat
  else '\\' :: 'U' :: hexDigits 8 c.toNat

/-- A character inside the quotes; `plain` says which characters stand for themselves. -/
def escape (plain : Char → Bool) (mark c : Char) : List Char :=
  if c = mark || c = '\\' then ['\\', c]
  else if c = '\t' then ['\\', 't']
  else if c = '\n' then ['\\', 'n']
  else if c = '\r' then ['\\', 'r']
  else if plain c then [c]
  else escapeCode c

/-- A text between quotes. -/
def quoteWith (plain : Char → Bool) (cs : List Char) : List Char :=
  let mark := quoteMark cs
  mark :: cs.flatMap (escape plain mark) ++ [mark]

/-- A text between quotes, with what has no glyph escaped. -/
def quote (cs : List Char) : List Char :=
  quoteWith isPrintable cs

/-- A text between quotes, in ASCII alone. -/
def quoteAscii (cs : List Char) : List Char :=
  quoteWith (fun c => isPrintable c && c.toNat < 0x80) cs

end SingleFlight.Text
