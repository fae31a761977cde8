import PropertyList.Leaf.Integer

/-!
Reals in documents: a decimal with a point or an exponent, or the name of an infinity or of what is
not a number, behind blanks and a sign. They are written with six places behind the point. Letters
count in either case; the Turkish letters i pass as the letter i but then denote no number.
-/
namespace PropertyList

/-- A front of a text that has the form of a real, with what follows it. The value is none if the
front denotes no number. -/
structure RealFront where
  value : Option Binary64
  rest : Text
  deriving DecidableEq, Repr

namespace RealFront

/-- The capital with a dot and the small letter without one. -/
def turkishLetters : List CodePoint := [0x130, 0x131]

/-- Whether a character passes as a small letter. -/
def passesAs (letter c : CodePoint) : Bool :=
  lowerAscii c == letter || (letter == ch 'i' && turkishLetters.contains c)

/-- What follows a word at the front of a text. -/
def afterWord? : Text → Text → Option Text
  | [], s => some s
  | _ :: _, [] => none
  | letter :: word, c :: s => if passesAs letter c then afterWord? word s else none

/-- The names, the longer one of two first, with the numbers they denote. -/
def names (negative : Bool) : List (Text × Binary64) :=
  [(text "infinity", .infinite negative), (text "inf", .infinite negative), (text "nan", .nan)]

/-- A name at the front of a text. -/
def named? (negative : Bool) (s : Text) : Option RealFront :=
  (names negative).findSome? fun entry =>
    (afterWord? entry.1 s).map fun rest =>
      let isAscii := (s.take entry.1.length).all (· ≤ 0x7F)
      ⟨if isAscii then some entry.2 else none, rest⟩

/-- An exponent at the front of a text; zero if there is none. -/
def exponent (s : Text) : Int × Text :=
  match s with
  | [] => (0, s)
  | e :: rest =>
    let (negative, digits) := splitSign rest
    if lowerAscii e = ch 'e' && digits.head?.any isDigit then
      let n : Int := numeralValue 10 (digits.takeWhile isDigit)
      (if negative then -n else n, digits.dropWhile isDigit)
    else (0, s)

/-- The digits behind a point, if there is one. -/
def places (s : Text) : Text × Text :=
  match s with
  | [] => ([], [])
  | c :: rest => if c = ch '.' then (rest.takeWhile isDigit, rest.dropWhile isDigit) else ([], s)

/-- A decimal at the front of a text. It has a digit on one side of the point at least. -/
def decimal? (negative : Bool) (s : Text) : Option RealFront :=
  let whole := s.takeWhile isDigit
  let (fraction, rest) := places (s.dropWhile isDigit)
  if whole.isEmpty && fraction.isEmpty then none
  else
    let (e, rest) := exponent rest
    let ds := (whole ++ fraction).map (· - ch '0')
    some ⟨some (.ofDecimal negative ds (e - fraction.length)), rest⟩

/-- The longest front of a text that has the form of a real, behind its blanks. -/
def ofText? (s : Text) : Option RealFront :=
  let (negative, s) := splitSign s.trimLeft
  match named? negative s with
  | some front => some front
  | none => decimal? negative s

end RealFront

/-- The controls that separate fields and records: blanks that no number admits. -/
def isSeparator (c : CodePoint) : Bool := 0x1C ≤ c && c ≤ 0x1F

/-- The front of a text that some rest follows. -/
def frontOf (s rest : Text) : Text := s.take (s.length - rest.length)

/-- Reads the text of a real. -/
def decodeReal (strict : Bool) (s : Text) : Run Binary64 :=
  if strict then
    match RealFront.ofText? s.trim with
    | none => Run.fault (.notReal s)
    | some front =>
      if !front.rest.isEmpty then Run.fault (.notReal s)
      else match front.value with
        | some x => pure x
        | none => Run.fail (.unreadableReal s.trim)
  else
    match RealFront.ofText? s with
    | none => Run.noting (.notReal s) .zero
    | some front =>
      match front.value with
      | some x =>
        if (s.takeWhile isBlank).any isSeparator then
          Run.fail (.unreadableReal (frontOf s front.rest))
        else pure x
      | none => Run.fail (.unreadableReal (frontOf s front.rest))

/-- The text of a real. -/
def encodeReal (x : Binary64) : Text := x.fixedPoint 6

end PropertyList
