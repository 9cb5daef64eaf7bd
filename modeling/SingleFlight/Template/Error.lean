/-
SingleFlight.Template.Error — why a template cannot be filled in.

* `TemplateError` — the causes, one constructor each.
* `TemplateError.message` — their wording.
-/
import SingleFlight.Template.Kind

namespace SingleFlight

open Template

/-- Why a template cannot be filled in. -/
inductive TemplateError where
  /-- A closing brace with no field before it. -/
  | loneClose
  /-- An opening brace that ends the template. -/
  | loneOpen
  /-- A field whose name runs to the end of the template. -/
  | unclosedField
  /-- An opening brace inside a field's name. -/
  | openInName
  /-- A field that ends after its exclamation mark. -/
  | missingConversion
  /-- Something other than a colon or the end after a conversion. -/
  | junkAfterConversion
  /-- A format specification that runs to the end of the template. -/
  | unclosedSpec
  | unknownConversion (code : Char)
  /-- A name or index of no characters. -/
  | emptyAttribute
  /-- An index without its closing bracket. -/
  | unclosedIndex
  /-- Something other than a further selector after an index. -/
  | junkAfterIndex
  /-- A number that no index can have. -/
  | hugeNumber
  /-- Fields inside the specification of a field inside a specification. -/
  | tooDeep
  | unknownName (name : String)
  /-- A field by position; templates have named values alone. -/
  | noPosition (index : Nat)
  /-- An index into a value that has no parts. -/
  | notIndexable (kind : Kind)
  /-- An index into a kind. -/
  | kindNotIndexable (kind : Kind)
  /-- An index into a text that is no number. -/
  | indexNotNumeric
  | indexOutOfRange
  /-- An index into a row of kinds that is no number. -/
  | rowIndexNotNumeric
  | rowIndexOutOfRange
  /-- A catalogue has no entry of a name that is no text. -/
  | noEntry (shown : String)
  /-- An argument for a kind that has one. -/
  | alreadyIndexed (shown : String)
  | noAttribute (kind : Kind) (name : String)
  /-- An attribute that a kind does not have. -/
  | noKindAttribute (kind : Kind) (name : String)
  /-- A fact that a kind may tell, but does not. -/
  | unset (name : String)
  /-- A specification for a value that is written in one way only. -/
  | notFormattable (kind : Kind)
  | unknownCode (code : Char) (kind : Kind)
  | signOnText
  | spaceOnText
  /-- Coercion of negative zero on a value that has none. -/
  | zeroCoercion (kind : Kind)
  | alternateOnText
  /-- Padding after the sign of a text. -/
  | signPaddingOnText
  | groupingRefused (separator code : Char)
  | twoGroupings
  | missingPrecision
  | precisionOnNumber
  /-- A precision that no double can be written to. -/
  | hugePrecision
  /-- A width that no text fills. -/
  | hugeWidth
  /-- A sign where a number stands for a character. -/
  | signOnCharacter
  | alternateOnCharacter
  /-- A number of more than 63 binary digits where a character is wanted. -/
  | hugeCharacter
  /-- A number that is the code point of no character. -/
  | notACharacter
  /-- A number beyond the largest double. -/
  | beyondDoubles
  | invalidSpec (spec : String) (kind : Kind)
deriving DecidableEq, Repr

namespace TemplateError

/-- A code as it stands, if it is a visible character below `limit`, else by its number. -/
def codeText (limit : Nat) (c : Char) : String :=
  if 32 < c.toNat && c.toNat < limit then c.toString
  else "\\x" ++ String.ofList (Nat.toDigits 16 c.toNat)

/-- The wording of an error. -/
def message : TemplateError → String
  | loneClose => "Single '\x7d' encountered in format string"
  | loneOpen => "Single '\x7b' encountered in format string"
  | unclosedField => "expected '\x7d' before end of string"
  | openInName => "unexpected '\x7b' in field name"
  | missingConversion => "end of string while looking for conversion specifier"
  | junkAfterConversion => "expected ':' after conversion specifier"
  | unclosedSpec => "unmatched '\x7b' in format spec"
  | unknownConversion c => "Unknown conversion specifier " ++ codeText 127 c
  | emptyAttribute => "Empty attribute in format string"
  | unclosedIndex => "Missing ']' in format string"
  | junkAfterIndex => "Only '.' or '[' may follow ']' in format field specifier"
  | hugeNumber => "Too many decimal digits in format string"
  | tooDeep => "Max string recursion exceeded"
  | unknownName name => name
  | noPosition i =>
    "Replacement index " ++ toString i ++ " out of range for positional args tuple"
  | notIndexable kind => "'" ++ kind.word ++ "' object is not subscriptable"
  | kindNotIndexable kind => "type '" ++ kind.word ++ "' is not subscriptable"
  | indexNotNumeric => "string indices must be integers, not 'str'"
  | indexOutOfRange => "string index out of range"
  | rowIndexNotNumeric => "tuple indices must be integers or slices, not str"
  | rowIndexOutOfRange => "tuple index out of range"
  | noEntry shown => shown
  | alreadyIndexed shown => shown ++ " is not a generic class"
  | noAttribute kind name => "'" ++ kind.word ++ "' object has no attribute '" ++ name ++ "'"
  | noKindAttribute kind name =>
    "type object '" ++ kind.word ++ "' has no attribute '" ++ name ++ "'"
  | unset name => name
  | notFormattable kind =>
    "unsupported format string passed to " ++ kind.word ++ ".__format__"
  | unknownCode c kind =>
    "Unknown format code '" ++ codeText 128 c ++ "' for object of type '" ++ kind.word ++ "'"
  | signOnText => "Sign not allowed in string format specifier"
  | spaceOnText => "Space not allowed in string format specifier"
  | zeroCoercion .text => "Negative zero coercion (z) not allowed in string format specifier"
  | zeroCoercion _ => "Negative zero coercion (z) not allowed in integer format specifier"
  | alternateOnText => "Alternate form (#) not allowed in string format specifier"
  | signPaddingOnText => "'=' alignment not allowed in string format specifier"
  | groupingRefused separator c =>
    "Cannot specify '" ++ separator.toString ++ "' with '" ++ codeText 128 c ++ "'."
  | twoGroupings => "Cannot specify both ',' and '_'."
  | missingPrecision => "Format specifier missing precision"
  | precisionOnNumber => "Precision not allowed in integer format specifier"
  | hugePrecision => "precision too big"
  | hugeWidth => ""
  | signOnCharacter => "Sign not allowed with integer format specifier 'c'"
  | alternateOnCharacter => "Alternate form (#) not allowed with integer format specifier 'c'"
  | hugeCharacter => "Python int too large to convert to C long"
  | notACharacter => "%c arg not in range(0x110000)"
  | beyondDoubles => "int too large to convert to float"
  | invalidSpec spec kind =>
    "Invalid format specifier '" ++ spec ++ "' for object of type '" ++ kind.word ++ "'"

end TemplateError

end SingleFlight
