/-!
Days of the Gregorian calendar, extended to all years from 1 on. A day's number counts the days
since the first of January of year 1, which was a Monday.
-/
namespace PropertyList

structure Day where
  year : Nat
  month : Nat
  day : Nat
  deriving DecidableEq, Repr

def isLeap (year : Nat) : Bool := year % 4 == 0 && (year % 100 != 0 || year % 400 == 0)

def monthLengths (leap : Bool) : List Nat :=
  [31, if leap then 29 else 28, 31, 30, 31, 30, 31, 31, 30, 31, 30, 31]

def daysInMonth (year month : Nat) : Nat := (monthLengths (isLeap year)).getD (month - 1) 0

def daysBeforeYear (year : Nat) : Nat :=
  (year - 1) * 365 + (year - 1) / 4 - (year - 1) / 100 + (year - 1) / 400

/-- The days in months of some lengths. -/
def daysIn : List Nat → Nat
  | [] => 0
  | length :: rest => length + daysIn rest

def daysBeforeMonth (year month : Nat) : Nat :=
  daysIn ((monthLengths (isLeap year)).take (month - 1))

/-- The month, counted from `month`, and the day in it that lies `n` days on. -/
def monthAndDay : List Nat → Nat → Nat → Nat × Nat
  | [], month, n => (month, n + 1)
  | length :: rest, month, n =>
    if n < length then (month, n + 1) else monthAndDay rest (month + 1) (n - length)

namespace Day

/-- A day that the calendar of the years 1 to 9999 has. -/
def exists? (d : Day) : Bool :=
  1 ≤ d.year && d.year ≤ 9999 && 1 ≤ d.month && d.month ≤ 12 && 1 ≤ d.day &&
    d.day ≤ daysInMonth d.year d.month

def number (d : Day) : Nat :=
  daysBeforeYear d.year + daysBeforeMonth d.year d.month + (d.day - 1)

/-- The day with a given number, found through cycles of 400, 100, 4 and 1 years. -/
def ofNumber (n : Nat) : Day :=
  let n400 := n / 146097
  let r400 := n % 146097
  let n100 := min 3 (r400 / 36524)
  let r100 := r400 - 36524 * n100
  let n4 := r100 / 1461
  let r4 := r100 % 1461
  let n1 := min 3 (r4 / 365)
  let r1 := r4 - 365 * n1
  let year := 400 * n400 + 100 * n100 + 4 * n4 + n1 + 1
  let found := monthAndDay (monthLengths (isLeap year)) 1 r1
  ⟨year, found.1, found.2⟩

/-- The day of the week; Monday is 0. -/
def weekday (d : Day) : Nat := d.number % 7

/-- The number of the Monday that opens the first week of a year: the week that holds its first
Thursday. -/
def firstMonday (year : Nat) : Nat :=
  let first := (Day.mk year 1 1).number
  let monday := first - first % 7
  if 3 < first % 7 then monday + 7 else monday

/-- Whether a year has 53 weeks. -/
def isLongYear (year : Nat) : Bool :=
  let first := (Day.mk year 1 1).weekday
  first == 3 || (first == 2 && isLeap year)

/-- The day given by year, week and day of the week; none if the year lacks it. -/
def ofWeek? (year week weekday : Nat) : Option Day :=
  let hasWeek := 1 ≤ week && (week ≤ 52 || (week == 53 && isLongYear year))
  if 1 ≤ year && hasWeek && 1 ≤ weekday && weekday ≤ 7 then
    some (ofNumber (firstMonday year + (week - 1) * 7 + (weekday - 1)))
  else none

end Day

end PropertyList
