import PropertyList.Issue
import PropertyList.Leaf.Real

/-!
Numbers as texts spell them: white space may surround them, underscores may part their digits, and an
integer may have leading zeros, a plus sign and places that are zero.
-/
namespace PropertyList

namespace Text

/-- White space around a numeral: a blank that separates no fields or records. -/
def isNumeralSpace (c : CodePoint) : Bool := isBlank c && !isSeparator c

def trimNumeral (s : Text) : Text :=
  ((s.dropWhile isNumeralSpace).reverse.dropWhile isNumeralSpace).reverse

/-- Whether two underscores stand side by side. -/
def hasDoubleUnderscore : Text → Bool
  | c :: d :: rest => (c == ch '_' && d == ch '_') || hasDoubleUnderscore (d :: rest)
  | _ => false

/-- The text without its underscores, if there are any and each of them stands alone and inside. -/
def joinUnderscores? (s : Text) : Option Text :=
  let isMark (c : CodePoint) : Bool := c == ch '_'
  if s.any isMark && !s.head?.any isMark && !s.getLast?.any isMark && !s.hasDoubleUnderscore then
    some (s.filter fun c => !isMark c)
  else none

/-- The text without its places, if all of them are zeros; a point with no place behind it stays. -/
def dropZeroPlaces (s : Text) : Text :=
  let whole := s.takeWhile (· != ch '.')
  let places := s.drop (whole.length + 1)
  if !places.isEmpty && places.all (· == ch '0') then whole else s

/-- What remains of a numeral behind a zero: zeros and underscores are left out, but a point keeps
the character in front of it, and the last character stays if nothing else does. -/
def behindZero? (previous : CodePoint) : Text → Option Text
  | [] => some [previous]
  | c :: rest =>
    if c = ch '0' || c = ch '_' then behindZero? c rest
    else if isDigit c then some (c :: rest)
    else if c = ch '.' then some (previous :: c :: rest)
    else none

/-- A numeral without leading zeros; none if it opens with neither a digit nor a minus sign. -/
def dropLeadingZeros? : Text → Option Text
  | [] => none
  | c :: rest =>
    if c = ch '0' then behindZero? c rest
    else if isDigit c || c = ch '-' then some (c :: rest)
    else none

/-- Takes a plus sign off; none if a minus sign follows it. -/
def dropPlus? : Text → Option Text
  | [] => some []
  | c :: rest =>
    if c ≠ ch '+' then some (c :: rest)
    else if rest.head? = some (ch '-') then none
    else some rest

/-- The plain form of a numeral that is spelled with more freedom. -/
def plainNumeral? (s : Text) : Option Text := do
  let s := (← (← s.trimNumeral.dropPlus?).dropLeadingZeros?).dropZeroPlaces
  return s.joinUnderscores?.getD s

/-- The integer of a numeral in plain form: perhaps a minus sign, and digits of which the first is
no zero unless it stands alone. -/
def plainInteger? (s : Text) : Option Int :=
  let negative := s.head? == some (ch '-')
  let ds := if negative then s.drop 1 else s
  if ds.isEmpty || !ds.all isDigit || (ds.head? == some (ch '0') && ds.length != 1) then none
  else
    let n : Int := numeralValue 10 ds
    some (if negative then -n else n)

/-- Whether a text opens with more characters of an integer in plain form than are read. -/
def opensHuge (s : Text) : Bool :=
  let negative := s.head? == some (ch '-')
  let ds := if negative then s.drop 1 else s
  ds.head? != some (ch '0') &&
    maxDecimalDigits < (ds.takeWhile isDigit).length + (if negative then 1 else 0)

/-- The integer that a text spells. -/
def spelledInteger (s : Text) : Except Problem Int :=
  if s.opensHuge then .error .hugeInteger
  else
    match s.plainInteger? with
    | some n => .ok n
    | none =>
      match s.plainNumeral? with
      | some plain =>
        if plain.opensHuge then .error .unreadableInteger
        else plain.plainInteger?.elim (.error .unreadableInteger) .ok
      | none => .error .unreadableInteger

/-- The real that all of a text denotes. -/
def wholeReal? (s : Text) : Option Binary64 :=
  if s.head?.any isBlank then none
  else
    match RealFront.ofText? s with
    | some ⟨some x, []⟩ => some x
    | _ => none

/-- The real that a text spells. -/
def spelledReal (s : Text) : Except Problem Binary64 :=
  match s.trimNumeral.wholeReal? with
  | some x => .ok x
  | none => (s.joinUnderscores?.bind wholeReal?).elim (.error .unreadableNumber) .ok

end Text

end PropertyList
