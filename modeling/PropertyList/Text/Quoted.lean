import PropertyList.Text.Printable

/-!
Quoted texts, as messages show them. The quotation mark is the apostrophe unless the text holds an
apostrophe and no double quote; the mark and the backslash are escaped, and so is every character
that is not printable.
-/
namespace PropertyList

/-- One lower-case hexadecimal digit. -/
def hexDigit (d : Nat) : CodePoint := if d < 10 then ch '0' + d else ch 'a' + (d - 10)

/-- The last `width` hexadecimal digits of a number, the most significant first. -/
def hexDigits : Nat → Nat → Text
  | 0, _ => []
  | width + 1, n => hexDigits width (n / 16) ++ [hexDigit (n % 16)]

namespace Text

/-- The mark that encloses a quoted text. -/
def quoteMark (s : Text) : CodePoint :=
  if s.contains (ch '\'') && !s.contains (ch '"') then ch '"' else ch '\''

/-- The numeric escape of a character, as short as its number allows. -/
def escapeNumber (c : CodePoint) : Text :=
  if c ≤ 0xFF then text "\\x" ++ hexDigits 2 c
  else if c ≤ 0xFFFF then text "\\u" ++ hexDigits 4 c
  else text "\\U" ++ hexDigits 8 c

def quoteChar (mark c : CodePoint) : Text :=
  if c == mark || c == ch '\\' then [ch '\\', c]
  else if c == ch '\t' then text "\\t"
  else if c == ch '\n' then text "\\n"
  else if c == ch '\r' then text "\\r"
  else if isPrintable c then [c]
  else escapeNumber c

def quoted (s : Text) : Text :=
  let mark := s.quoteMark
  mark :: s.flatMap (quoteChar mark) ++ [mark]

end Text

end PropertyList
