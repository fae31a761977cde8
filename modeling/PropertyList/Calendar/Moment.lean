import PropertyList.Calendar.Day
import PropertyList.Number.Positional

/-!
Moments: a calendar day, a time of day and perhaps an offset from universal time. A moment without
an offset is taken as universal time.
-/
namespace PropertyList

structure Clock where
  hour : Nat
  minute : Nat
  second : Nat
  microsecond : Nat
  deriving DecidableEq, Repr

/-- The offset is counted in microseconds east of universal time. -/
structure Moment where
  day : Day
  clock : Clock
  offset : Option Int
  deriving DecidableEq, Repr

def microsPerSecond : Int := 1000000

namespace Clock

def exists? (c : Clock) : Bool :=
  c.hour ≤ 23 && c.minute ≤ 59 && c.second ≤ 59 && c.microsecond ≤ 999999

def midnight : Clock := ⟨0, 0, 0, 0⟩

def seconds (c : Clock) : Nat := c.hour * 3600 + c.minute * 60 + c.second

end Clock

namespace Moment

/-- The number of the first of January 1970. -/
def epochDay : Int := 719162

/-- Microseconds since the epoch. -/
def instant (m : Moment) : Int :=
  (((m.day.number : Int) - epochDay) * 86400 + (m.clock.seconds : Int)) * microsPerSecond +
    (m.clock.microsecond : Int) - m.offset.getD 0

/-- The moment in universal time that lies a number of seconds and microseconds after the epoch;
the first moment of year 1 stands for all before it. -/
def ofSeconds (seconds : Int) (microsecond : Nat) : Moment :=
  let total := (seconds + epochDay * 86400).toNat
  let rest := total % 86400
  ⟨Day.ofNumber (total / 86400), ⟨rest / 3600, rest / 60 % 60, rest % 60, microsecond⟩, some 0⟩

/-- The text of a moment in universal time, to the second, and to the microsecond unless that is
zero. -/
def isoText (m : Moment) : Text :=
  paddedDecimal 4 m.day.year ++ ch '-' :: paddedDecimal 2 m.day.month ++ ch '-' ::
    paddedDecimal 2 m.day.day ++ ch 'T' :: paddedDecimal 2 m.clock.hour ++ ch ':' ::
    paddedDecimal 2 m.clock.minute ++ ch ':' :: paddedDecimal 2 m.clock.second ++
    (if m.clock.microsecond = 0 then [] else ch '.' :: paddedDecimal 6 m.clock.microsecond) ++
    [ch 'Z']

end Moment

end PropertyList
