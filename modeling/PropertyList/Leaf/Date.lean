import PropertyList.Calendar.IsoText
import PropertyList.Run
import PropertyList.Text.Blank

/-!
Dates in documents: ISO 8601 texts, written in universal time. A text without an offset is taken as
universal time.
-/
namespace PropertyList

namespace Timestamp

/-- The seconds and microseconds of a moment. -/
def ofMoment (m : Moment) : Except (List Issue) Leaf :=
  Leaf.ofDate (m.instant.fdiv microsPerSecond) (m.instant.fmod microsPerSecond)

def toMoment (t : Timestamp) : Moment := Moment.ofSeconds t.seconds t.microseconds

end Timestamp

/-- The text of a date. -/
def encodeDate (t : Timestamp) : Text := t.toMoment.isoText

/-- The date that a text denotes, if it lies in the years 1 to 9999. -/
def dateOf? (s : Text) : Option Leaf := do
  match Timestamp.ofMoment (← Moment.ofIsoText? s.trim) with
  | .ok leaf => some leaf
  | .error _ => none

/-- Reads the text of a date. -/
def decodeDate (strict : Bool) (s : Text) : Run Leaf :=
  match dateOf? s with
  | some leaf => pure leaf
  | none =>
    if strict then Run.fault (.notDate s) else Run.noting (.notDate s) (.date .epoch)

end PropertyList
