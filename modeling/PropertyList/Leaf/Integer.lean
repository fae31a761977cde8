import PropertyList.Run
import PropertyList.Text.Blank

/-!
Integers in documents: a numeral in base 16, 8 or 10, told apart by how it begins, behind blanks and
a sign. A lenient reader takes the longest such front of a text; a negative number counts down from
2 to the 64th.
-/
namespace PropertyList

/-- A numeral with its sign, and what follows it. -/
structure IntegerFront where
  negative : Bool
  base : Nat
  digits : Text
  rest : Text
  deriving DecidableEq, Repr

def isOctalDigit (c : CodePoint) : Bool := ch '0' ≤ c && c ≤ ch '7'

/-- Takes a sign off. -/
def splitSign (s : Text) : Bool × Text :=
  match s with
  | [] => (false, [])
  | c :: rest => if c = ch '-' then (true, rest) else if c = ch '+' then (false, rest) else (false, s)

namespace IntegerFront

/-- The hexadecimal digits behind a zero, if the letter that announces them and one digit follow. -/
def hexadecimal? (negative : Bool) (afterZero : Text) : Option IntegerFront :=
  match afterZero with
  | [] => none
  | x :: rest =>
    if lowerAscii x = ch 'x' && rest.head?.any isHexDigit then
      some ⟨negative, 16, rest.takeWhile isHexDigit, rest.dropWhile isHexDigit⟩
    else none

/-- The longest front of a text that is an integer. -/
def ofText? (s : Text) : Option IntegerFront :=
  let (negative, s) := splitSign s.trimLeft
  match s with
  | [] => none
  | c :: rest =>
    if c = ch '0' then
      match hexadecimal? negative rest with
      | some front => some front
      | none => some ⟨negative, 8, rest.takeWhile isOctalDigit, rest.dropWhile isOctalDigit⟩
    else if isDigit c then some ⟨negative, 10, s.takeWhile isDigit, s.dropWhile isDigit⟩
    else none

def magnitude (front : IntegerFront) : Nat := numeralValue front.base front.digits

/-- Whether a strict reader accepts the numeral: only blanks follow, and no minus sign stands in
front. -/
def isWhole (front : IntegerFront) : Bool := front.rest.all isBlank && !front.negative

/-- Whether the numeral is decimal and has more digits than are read. -/
def isTooLong (front : IntegerFront) : Bool :=
  front.base == 10 && maxDecimalDigits < front.digits.length

end IntegerFront

/-- The number with a sign, counted down from 2 to the 64th if it is negative. -/
def wrap (negative : Bool) (n : Nat) : Nat :=
  if negative then (maxInteger + 1 - n) % (maxInteger + 1) else n

/-- Reads the text of an integer. -/
def decodeInteger (strict : Bool) (s : Text) : Run Nat :=
  match IntegerFront.ofText? s with
  | none => if strict then Run.fault (.notUnsigned s) else Run.noting (.notInteger s) 0
  | some front =>
    if strict && !front.isWhole then Run.fault (.notUnsigned s)
    else if front.isTooLong then Run.fail (.hugeNumeral front.digits.length)
    else if front.magnitude ≤ maxInteger then pure (wrap front.negative front.magnitude)
    else if strict then Run.fault (.integerRange s)
    else Run.noting (.clampedInteger s) (wrap front.negative maxInteger)

end PropertyList
