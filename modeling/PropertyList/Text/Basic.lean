/-!
Texts as lists of code points. A text may hold numbers that no encoding form can carry, such as a
lone surrogate; what may stand in an XML document is the `Char` production, `isXmlChar`.
-/
namespace PropertyList

/-- The number of a character. -/
abbrev CodePoint := Nat

abbrev Text := List CodePoint

abbrev Bytes := List UInt8

/-- The number of a written character. -/
abbrev ch (c : Char) : CodePoint := c.toNat

/-- The code points of a written string. -/
def text (s : String) : Text := s.toList.map Char.toNat

/-- Whether a number lies in one of the ranges, ends included. -/
def inRanges (ranges : List (Nat × Nat)) (n : Nat) : Bool :=
  ranges.any fun range => range.1 ≤ n && n ≤ range.2

/-- The numbers that UTF-16 reserves for the halves of a pair. -/
def isSurrogate (c : CodePoint) : Bool := 0xD800 ≤ c && c ≤ 0xDFFF

/-- The production `Char` of XML 1.0. -/
def isXmlChar (c : CodePoint) : Bool :=
  c == 0x9 || c == 0xA || c == 0xD || (0x20 ≤ c && c ≤ 0xD7FF) ||
    (0xE000 ≤ c && c ≤ 0xFFFD) || (0x10000 ≤ c && c ≤ 0x10FFFF)

/-- An ASCII decimal digit. -/
def isDigit (c : CodePoint) : Bool := ch '0' ≤ c && c ≤ ch '9'

/-- A hexadecimal digit in ASCII. -/
def isHexDigit (c : CodePoint) : Bool :=
  isDigit c || (ch 'A' ≤ c && c ≤ ch 'F') || (ch 'a' ≤ c && c ≤ ch 'f')

/-- An ASCII letter. -/
def isLetter (c : CodePoint) : Bool := (ch 'A' ≤ c && c ≤ ch 'Z') || (ch 'a' ≤ c && c ≤ ch 'z')

/-- An ASCII capital letter becomes small; every other character stays. -/
def lowerAscii (c : CodePoint) : CodePoint := if ch 'A' ≤ c && c ≤ ch 'Z' then c + 32 else c

namespace Text

/-- The first character outside `Char`, with its position. -/
def firstForbidden (s : Text) : Option (CodePoint × Nat) :=
  (s.zipIdx).find? fun p => !isXmlChar p.1

/-- Whether every character may stand in an XML document. -/
def isXml (s : Text) : Bool := s.all isXmlChar

end Text

end PropertyList
