import PropertyList.Number.Shortest
import PropertyList.Value.Basic

/-!
Values as messages show them. A text on its own is shown as it is; inside other values it is quoted.
-/
namespace PropertyList

/-- Two hexadecimal digits for a byte that is no printable ASCII character. -/
def quotedByte (mark b : Nat) : Text :=
  if b < 0x7F then Text.quoteChar mark b else text "\\x" ++ hexDigits 2 b

/-- Bytes as a quoted text behind the letter b. -/
def quotedBytes (bytes : Bytes) : Text :=
  let codes := bytes.map UInt8.toNat
  let mark := Text.quoteMark codes
  ch 'b' :: mark :: codes.flatMap (quotedByte mark) ++ [mark]

/-- Bytes that may change, quoted in parentheses. An apostrophe in them is escaped whatever the mark
is. -/
def quotedBuffer (bytes : Bytes) : Text :=
  let codes := bytes.map UInt8.toNat
  let mark := Text.quoteMark codes
  text "bytearray(b" ++ mark :: codes.flatMap (quotedByte (ch '\'')) ++ [mark, ch ')']

/-- Texts with a separator between them. -/
def joined (separator : Text) : List Text → Text
  | [] => []
  | [s] => s
  | s :: rest => s ++ separator ++ joined separator rest

def Day.shown (d : Day) : Text :=
  paddedDecimal 4 d.year ++ ch '-' :: paddedDecimal 2 d.month ++ ch '-' :: paddedDecimal 2 d.day

/-- A number of microseconds behind a point, unless it is zero. -/
def microsecondsShown (n : Nat) : Text := if n = 0 then [] else ch '.' :: paddedDecimal 6 n

/-- An offset in hours and minutes, and in seconds if these are not zero. -/
def offsetShown (offset : Int) : Text :=
  let seconds := offset.natAbs / 1000000
  let rest := offset.natAbs % 1000000
  (if offset < 0 then ch '-' else ch '+') :: paddedDecimal 2 (seconds / 3600) ++
    ch ':' :: paddedDecimal 2 (seconds / 60 % 60) ++
    (if seconds % 60 = 0 && rest = 0 then []
    else ch ':' :: paddedDecimal 2 (seconds % 60) ++ microsecondsShown rest)

/-- Microseconds that are zero are not shown. -/
def Moment.shown (m : Moment) : Text :=
  m.day.shown ++ ch ' ' :: paddedDecimal 2 m.clock.hour ++ ch ':' ::
    paddedDecimal 2 m.clock.minute ++ ch ':' :: paddedDecimal 2 m.clock.second ++
    microsecondsShown m.clock.microsecond ++ (m.offset.map offsetShown).getD []

/-- Numbers in parentheses. -/
def inParentheses (parts : List Text) : Text := ch '(' :: joined (text ", ") parts ++ [ch ')']

/-- A day inside other values. -/
def Day.constructed (d : Day) : Text :=
  text "datetime.date" ++ inParentheses [decimal d.year, decimal d.month, decimal d.day]

/-- An offset as a distance in days, seconds and microseconds; parts that are zero are not shown. -/
def distanceConstructed (offset : Int) : Text :=
  let part (name : String) (n : Int) : List Text :=
    if n = 0 then [] else [text name ++ ch '=' :: signedDecimal n]
  let seconds := offset.fdiv 1000000
  let parts := part "days" (seconds.fdiv 86400) ++ part "seconds" (seconds.fmod 86400) ++
    part "microseconds" (offset.fmod 1000000)
  text "datetime.timedelta" ++ inParentheses (if parts.isEmpty then [text "0"] else parts)

/-- A moment inside other values. Seconds and microseconds at the end that are zero are not shown. -/
def Moment.constructed (m : Moment) : Text :=
  let c := m.clock
  let fine := if c.microsecond ≠ 0 then [c.second, c.microsecond]
    else if c.second ≠ 0 then [c.second] else []
  let zone := m.offset.map fun offset =>
    text "tzinfo=datetime.timezone" ++
      if offset = 0 then text ".utc" else inParentheses [distanceConstructed offset]
  text "datetime.datetime" ++
    inParentheses
      (([m.day.year, m.day.month, m.day.day, c.hour, c.minute] ++ fine).map decimal ++ zone.toList)

namespace Value

mutual

/-- A value inside others. -/
def shown : Value → Text
  | .null => text "None"
  | .boolean b => if b then text "True" else text "False"
  | .integer n => signedDecimal n
  | .real x => x.shortText
  | .string s => s.quoted
  | .bytes b => quotedBytes b
  | .byteArray b => quotedBuffer b
  | .moment m => m.constructed
  | .day d => d.constructed
  | .list items => ch '[' :: joined (text ", ") (shownAll items) ++ [ch ']']
  | .tuple items =>
    let inner := joined (text ", ") (shownAll items)
    ch '(' :: inner ++ if items.length = 1 then text ",)" else text ")"
  | .dict entries => ch '\x7b' :: joined (text ", ") (shownEntries entries) ++ [ch '\x7d']
  | .enumeration _ v => v.shown
  | .record type fields => type.name ++ ch '(' :: joined (text ", ") (shownFields fields) ++ [ch ')']
  | .node n => n.title
  | .foreign typeName => if typeName = text "type" then text "<class 'int'>" else typeName

def shownAll : List Value → List Text
  | [] => []
  | v :: rest => v.shown :: shownAll rest

def shownEntries : List (Value × Value) → List Text
  | [] => []
  | (key, v) :: rest => (key.shown ++ text ": " ++ v.shown) :: shownEntries rest

def shownFields : List (Text × Value) → List Text
  | [] => []
  | (name, v) :: rest => (name ++ ch '=' :: v.shown) :: shownFields rest

end

/-- A value on its own. -/
def display : Value → Text
  | .string s => s
  | .moment m => m.shown
  | .day d => d.shown
  | .record _ fields => joined (text " ") (shownFields fields)
  | v => v.shown

end Value

end PropertyList
