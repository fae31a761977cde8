import PropertyList.Calendar.Moment
import PropertyList.Text.Utf8

/-!
Reading ISO 8601 texts. A text is a date, in calendar or week form, with or without hyphens, and
perhaps a separator of one character, a time and an offset. Positions are those of the bytes in
UTF-8; behind the last byte stands the byte zero.
-/
namespace PropertyList.Moment

/-- Exactly `count` decimal digits and what follows them. -/
def readDigits? (count : Nat) (bytes : List Nat) : Option (Nat × List Nat) :=
  let ds := bytes.take count
  if ds.length = count && ds.all isDigit then
    some (ofDigits 10 (ds.map (· - ch '0')), bytes.drop count)
  else none

/-- Where the date ends, told from the length and the first bytes; none if no date has them. -/
def dateLength? (bytes : List Nat) : Option Nat :=
  let byteAt (i : Nat) : Nat := bytes.getD i 0
  let length := bytes.length
  if length < 7 then none
  else if length = 7 then some 7
  else if byteAt 4 = ch '-' then
    if byteAt 5 ≠ ch 'W' then some 10
    else if byteAt 8 ≠ ch '-' then some 8
    else if length = 9 then none
    else if 10 < length && isDigit (byteAt 10) then some 8
    else some 10
  else if byteAt 4 = ch 'W' then
    let stop := 7 + ((bytes.drop 7).takeWhile isDigit).length
    some (if stop < 9 then stop else if stop % 2 = 0 then 7 else 8)
  else some 8

/-- The day at the front of a text whose date has `length` bytes. -/
def readDay? (length : Nat) (bytes : List Nat) : Option Day := do
  let (year, rest) ← readDigits? 4 bytes
  let hyphens := rest.headD 0 == ch '-'
  let rest := if hyphens then rest.drop 1 else rest
  if rest.headD 0 = ch 'W' then
    let (week, rest) ← readDigits? 2 (rest.drop 1)
    if bytes.length - rest.length < length then
      if hyphens && rest.headD 0 ≠ ch '-' then none
      else
        let (weekday, _) ← readDigits? 1 (if hyphens then rest.drop 1 else rest)
        Day.ofWeek? year week weekday
    else Day.ofWeek? year week 1
  else
    let (month, rest) ← readDigits? 2 rest
    if hyphens && rest.headD 0 ≠ ch '-' then none
    else
      let (day, _) ← readDigits? 2 (if hyphens then rest.drop 1 else rest)
      some ⟨year, month, day⟩

/-- A fraction of a second: up to six digits count, further digits are skipped. The flag tells
whether anything but the end of the text follows; `next` is the byte behind the part. -/
def readFraction? (next : Nat) (part : List Nat) : Option (Nat × Bool) := do
  let places := min 6 part.length
  let (fraction, rest) ← readDigits? places part
  some (fraction * Nat.pow 10 (6 - places), (rest.dropWhile isDigit).headD next != 0)

/-- The hours, minutes and seconds that are given, the microseconds, and whether anything but the
end of the text follows. Whether colons separate them is told by the byte behind the hours. -/
def readFields? (next : Nat) :
    Nat → Option Bool → List Nat → List Nat → Option (List Nat × Nat × Bool)
  | 0, _, fields, part => do
    let (fraction, more) ← readFraction? next part
    some (fields, fraction, more)
  | count + 1, colons, fields, part => do
    let (field, rest) ← readDigits? 2 part
    let fields := fields ++ [field]
    let c := rest.headD next
    let colons := colons.getD (c == ch ':')
    if rest.length ≤ 1 then some (fields, 0, c != 0)
    else if colons && c == ch ':' then readFields? next count (some colons) fields (rest.drop 1)
    else if c == ch '.' || c == ch ',' then
      let (fraction, more) ← readFraction? next (rest.drop 1)
      some (fields, fraction, more)
    else if !colons then readFields? next count (some colons) fields rest
    else none

/-- A time of day, and whether anything but the end of the text follows it. -/
def readClock? (next : Nat) (part : List Nat) : Option (Clock × Bool) := do
  let (fields, microsecond, more) ← readFields? next 3 none [] part
  some (⟨fields.getD 0 0, fields.getD 1 0, fields.getD 2 0, microsecond⟩, more)

/-- The marks that open an offset. -/
def opensOffset (b : Nat) : Bool := b == ch '+' || b == ch '-' || b == ch 'Z'

/-- A time with its offset in microseconds. A whole offset of no seconds is universal time, and an
offset stays below a day on either side. -/
def readTime? (bytes : List Nat) : Option (Clock × Option Int) := do
  let part := bytes.takeWhile fun b => !opensOffset b
  let rest := bytes.dropWhile fun b => !opensOffset b
  let (clock, more) ← readClock? (rest.headD 0) part
  match rest with
  | [] => if more then none else some (clock, none)
  | mark :: rest =>
    if mark = ch 'Z' then
      if rest.headD 0 = 0 then some (clock, some 0) else none
    else
      let (distance, more) ← readClock? 0 rest
      let seconds : Int := distance.seconds
      let total := seconds * microsPerSecond + (distance.microsecond : Int)
      if more || 86400 * microsPerSecond ≤ total then none
      else if seconds = 0 then some (clock, some 0)
      else some (clock, some (if mark = ch '-' then -total else total))

/-- The positions at which a lone surrogate may separate date and time. -/
def separatorPositions : List Nat := [7, 8, 10]

/-- A lone surrogate in the place of the separator counts as the letter `T`. -/
def mendSeparator (s : Text) : Text :=
  match separatorPositions.find? fun i => isSurrogate (s.getD i 0) with
  | some i => s.set i (ch 'T')
  | none => s

/-- The number of bytes of the character that a byte opens. -/
def characterLength (b : Nat) : Nat :=
  if b < 0x80 then 1 else if b / 16 = 0xE then 3 else if b / 16 = 0xF then 4 else 2

/-- The moment that a text denotes; none if it denotes none in the years 1 to 9999. -/
def ofIsoText? (s : Text) : Option Moment := do
  let bytes ← match (mendSeparator s).utf8? with
    | .ok bytes => some (bytes.map UInt8.toNat)
    | .error _ => none
  let length ← dateLength? bytes
  let day ← readDay? length bytes
  let rest := bytes.drop length
  let (clock, offset) ←
    if rest.isEmpty then some (Clock.midnight, none)
    else readTime? (rest.drop (characterLength (rest.headD 0)))
  if day.exists? && clock.exists? then some ⟨day, clock, offset⟩ else none

end PropertyList.Moment
