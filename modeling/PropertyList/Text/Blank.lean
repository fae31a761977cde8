import PropertyList.Text.Basic

/-!
Blank characters: the spaces and separators of Unicode together with the controls that separate
lines, fields and records. Leaf texts are trimmed by this set; XML itself knows only four blanks.
-/
namespace PropertyList

def blankRanges : List (Nat × Nat) :=
  [(0x09, 0x0D), (0x1C, 0x20), (0x85, 0x85), (0xA0, 0xA0), (0x1680, 0x1680), (0x2000, 0x200A),
    (0x2028, 0x2029), (0x202F, 0x202F), (0x205F, 0x205F), (0x3000, 0x3000)]

def isBlank (c : CodePoint) : Bool := inRanges blankRanges c

namespace Text

def trimLeft (s : Text) : Text := s.dropWhile isBlank

def trimRight (s : Text) : Text := (s.reverse.dropWhile isBlank).reverse

def trim (s : Text) : Text := s.trimLeft.trimRight

/-- The text without its blanks. -/
def compact (s : Text) : Text := s.filter fun c => !isBlank c

end Text

end PropertyList
