import PropertyList.Issue
import PropertyList.Number.Binary64

/-!
Leaves: the values of a property list that hold no others. A leaf may be given any payload of its
type; `Leaf.Valid` says which payloads a property list admits, and the checked constructors admit
these alone.
-/
namespace PropertyList

/-- The kinds of nodes, in the order in which messages list them. -/
inductive Kind where
  | boolean
  | integer
  | real
  | string
  | key
  | data
  | date
  | array
  | dict
  deriving DecidableEq, Repr

namespace Kind

def all : List Kind := [.boolean, .integer, .real, .string, .key, .data, .date, .array, .dict]

def name : Kind → Text
  | .boolean => text "boolean"
  | .integer => text "integer"
  | .real => text "real"
  | .string => text "string"
  | .key => text "key"
  | .data => text "data"
  | .date => text "date"
  | .array => text "array"
  | .dict => text "dict"

/-- The name under which a kind stands in the titles of issues. -/
def title : Kind → Text
  | .boolean => text "Boolean"
  | .integer => text "UnsignedInt"
  | .real => text "Real"
  | .string => text "String"
  | .key => text "Key"
  | .data => text "Data"
  | .date => text "Date"
  | .array => text "Array"
  | .dict => text "Dict"

def ofName? (name : Text) : Option Kind := all.find? fun kind => kind.name == name

end Kind

/-- A moment in universal time: whole seconds since the epoch, and microseconds on top. -/
structure Timestamp where
  seconds : Int
  microseconds : Nat
  deriving DecidableEq, Repr

inductive Leaf where
  | boolean (value : Bool)
  | integer (value : Nat)
  | real (value : Binary64)
  | string (value : Text)
  | key (value : Text)
  | data (value : Bytes)
  | date (value : Timestamp)
  deriving DecidableEq, Repr

/-- The greatest integer: all of 64 bits. -/
def maxInteger : Nat := Nat.pow 2 64 - 1

/-- The first second of year 1. -/
def minSeconds : Int := -62135596800

/-- The last second of year 9999. -/
def maxSeconds : Int := 253402300799

def maxMicroseconds : Nat := 999999

namespace Timestamp

/-- A moment of the years 1 to 9999. -/
def Valid (t : Timestamp) : Prop :=
  minSeconds ≤ t.seconds ∧ t.seconds ≤ maxSeconds ∧ t.microseconds ≤ maxMicroseconds

instance (t : Timestamp) : Decidable t.Valid := by unfold Valid; infer_instance

def epoch : Timestamp := ⟨0, 0⟩

end Timestamp

namespace Leaf

def Valid : Leaf → Prop
  | .boolean _ => True
  | .integer value => value ≤ maxInteger
  | .real _ => True
  | .string value => value.isXml
  | .key value => value.isXml
  | .data _ => True
  | .date value => value.Valid

instance (leaf : Leaf) : Decidable leaf.Valid := by cases leaf <;> unfold Valid <;> infer_instance

def kind : Leaf → Kind
  | .boolean _ => .boolean
  | .integer _ => .integer
  | .real _ => .real
  | .string _ => .string
  | .key _ => .key
  | .data _ => .data
  | .date _ => .date

/-- Equality of leaves; reals are compared as numbers. -/
def same : Leaf → Leaf → Bool
  | .real x, .real y => x.sameValue y
  | a, b => a == b

end Leaf

/-- What is wrong with a number that has to lie between two bounds. -/
def rangeProblem? (least greatest n : Int) : Option Problem :=
  if n < least then some (.belowMinimum least)
  else if greatest < n then some (.aboveMaximum greatest)
  else none

/-- What is wrong with a text that has to stand in an XML document. -/
def characterProblem? (s : Text) : Option Problem :=
  s.firstForbidden.map fun found => .forbiddenCharacter found.1 found.2

namespace Leaf

/-- A leaf, unless there are issues. -/
def checked (issues : List Issue) (leaf : Leaf) : Except (List Issue) Leaf :=
  if issues.isEmpty then .ok leaf else .error issues

def ofInteger (n : Int) : Except (List Issue) Leaf :=
  checked ((rangeProblem? 0 maxInteger n).map (Issue.ofField "value")).toList (.integer n.toNat)

def ofString (s : Text) : Except (List Issue) Leaf :=
  checked ((characterProblem? s).map (Issue.ofField "value")).toList (.string s)

def ofKey (s : Text) : Except (List Issue) Leaf :=
  checked ((characterProblem? s).map (Issue.ofField "value")).toList (.key s)

/-- Both parts are looked at, the seconds first. -/
def ofDate (seconds microseconds : Int) : Except (List Issue) Leaf :=
  checked
    (((rangeProblem? minSeconds maxSeconds seconds).map (Issue.ofField "seconds")).toList ++
      ((rangeProblem? 0 maxMicroseconds microseconds).map (Issue.ofField "microseconds")).toList)
    (.date ⟨seconds, microseconds.toNat⟩)

end Leaf

end PropertyList
