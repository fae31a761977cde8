import PropertyList.Text.Basic

/-!
UTF-8. Writing refuses surrogates and says where the first run of them lies; reading refuses
overlong forms, surrogates and numbers beyond the last plane.
-/
namespace PropertyList

/-- The bytes of one character that is no surrogate. -/
def utf8Char (c : CodePoint) : Bytes :=
  if c < 0x80 then [c.toUInt8]
  else if c < 0x800 then [(0xC0 + c / 0x40).toUInt8, (0x80 + c % 0x40).toUInt8]
  else if c < 0x10000 then
    [(0xE0 + c / 0x1000).toUInt8, (0x80 + c / 0x40 % 0x40).toUInt8, (0x80 + c % 0x40).toUInt8]
  else
    [(0xF0 + c / 0x40000).toUInt8, (0x80 + c / 0x1000 % 0x40).toUInt8,
      (0x80 + c / 0x40 % 0x40).toUInt8, (0x80 + c % 0x40).toUInt8]

/-- A run of surrogates: the first of them, its position and the length of the run. -/
structure SurrogateRun where
  first : CodePoint
  start : Nat
  length : Nat
  deriving DecidableEq, Repr

namespace Text

def firstSurrogates (s : Text) : Option SurrogateRun :=
  match s.dropWhile fun c => !isSurrogate c with
  | [] => none
  | c :: rest =>
    some ⟨c, (s.takeWhile fun c => !isSurrogate c).length, 1 + (rest.takeWhile isSurrogate).length⟩

/-- The bytes of a text without surrogates. -/
def utf8 (s : Text) : Bytes := s.flatMap utf8Char

def utf8? (s : Text) : Except SurrogateRun Bytes :=
  match s.firstSurrogates with
  | some run => .error run
  | none => .ok s.utf8

end Text

/-- Whether a byte continues a character. -/
def isContinuation (b : Nat) : Bool := 0x80 ≤ b && b ≤ 0xBF

/-- The first character of a byte sequence with the number of its bytes; none if no well-formed
sequence starts there. -/
def utf8Head (bytes : List Nat) : Option (CodePoint × Nat) :=
  match bytes with
  | [] => none
  | a :: rest =>
    if a < 0x80 then some (a, 1)
    else match rest with
    | [] => none
    | b :: rest =>
      if !isContinuation b then none
      else if 0xC2 ≤ a && a ≤ 0xDF then some ((a - 0xC0) * 0x40 + (b - 0x80), 2)
      else match rest with
      | [] => none
      | c :: rest =>
        if !isContinuation c then none
        else if 0xE0 ≤ a && a ≤ 0xEF then
          let n := (a - 0xE0) * 0x1000 + (b - 0x80) * 0x40 + (c - 0x80)
          if n < 0x800 || isSurrogate n then none else some (n, 3)
        else match rest with
        | [] => none
        | d :: _ =>
          if !isContinuation d then none
          else if 0xF0 ≤ a && a ≤ 0xF4 then
            let n := (a - 0xF0) * 0x40000 + (b - 0x80) * 0x1000 + (c - 0x80) * 0x40 + (d - 0x80)
            if n < 0x10000 || 0x10FFFF < n then none else some (n, 4)
          else none

/-- Reads bytes behind the characters `read`, the last of which comes first; `skip` bytes belong to
the last of them. -/
def readUtf8Onto : Nat → Text → List Nat → Option Text
  | _, read, [] => some read.reverse
  | skip + 1, read, _ :: rest => readUtf8Onto skip read rest
  | 0, read, b :: rest =>
    match utf8Head (b :: rest) with
    | some (c, length) => readUtf8Onto (length - 1) (c :: read) rest
    | none => none

/-- The text that bytes encode; none if they are not well-formed. -/
def Text.ofUtf8? (bytes : Bytes) : Option Text := readUtf8Onto 0 [] (bytes.map UInt8.toNat)

end PropertyList
