import PropertyList.Value.Display
import PropertyList.Value.Spelling

/-!
Plain values read as scalars of a wanted type. Truth values count as numbers, and a text may stand
for the number or the truth value that it spells.
-/
namespace PropertyList

/-- The whole number that a floating-point number is equal to. -/
def Binary64.toInt? : Binary64 → Option Int
  | .finite negative m q =>
    if m * Nat.pow 2 q % Nat.pow 2 1074 = 0 then
      let n : Int := (m * Nat.pow 2 q / Nat.pow 2 1074 : Nat)
      some (if negative then -n else n)
    else none
  | _ => none

namespace Value

/-- The text of a value; bytes are read as UTF-8, and a member counts as its value is shown. -/
def asText : Value → Except Problem Text
  | .string s => .ok s
  | .bytes b => (Text.ofUtf8? b).elim (.error .brokenText) .ok
  | .byteArray b => (Text.ofUtf8? b).elim (.error .brokenText) .ok
  | .enumeration _ v => .ok v.display
  | _ => .error .noText

/-- The text that may spell a scalar: a text, or bytes in UTF-8; `unreadable` is the problem of other
bytes. -/
def spelling (unreadable : Problem) : Value → Except Problem (Option Text)
  | .string s => if s.any isSurrogate then .error .brokenText else .ok (some s)
  | .bytes b => (Text.ofUtf8? b).elim (.error unreadable) fun s => .ok (some s)
  | _ => .ok none

def asInteger : Value → Except Problem Int
  | .boolean b => .ok (ofTruth b)
  | .integer n => .ok n
  | .enumeration _ (.integer n) => .ok n
  | .real x =>
    match x with
    | .finite _ _ _ =>
      match x.toInt? with
      | some n => if n.natAbs < wordBound then .ok n else .error .hugeInteger
      | none => .error .fractionalInteger
    | _ => .error .infiniteInteger
  | value => do
    match ← value.spelling .unreadableInteger with
    | some s => s.spelledInteger
    | none => .error .noInteger

/-- The floating-point number nearest to an integer, unless it lies beyond the largest one. -/
def realOfInteger (n : Int) : Except Problem Binary64 :=
  match Binary64.nearest (decide (n < 0)) n.natAbs 1 with
  | .infinite _ => .error .noNumber
  | x => .ok x

def asReal : Value → Except Problem Binary64
  | .boolean b => realOfInteger (ofTruth b)
  | .integer n => realOfInteger n
  | .real x => .ok x
  | value => do
    match ← value.spelling .unreadableNumber with
    | some s => s.spelledReal
    | none => .error .noNumber

/-- The words for a truth value. -/
def truthWords (b : Bool) : List String :=
  if b then ["1", "on", "t", "true", "y", "yes"] else ["0", "off", "f", "false", "n", "no"]

def isTruthWord (b : Bool) (s : Text) : Bool :=
  (truthWords b).any fun word => text word == s.map lowerAscii

/-- The truth value of an integer of 64 bits: one of 0 and 1. -/
def truthOfInteger (n : Int) : Except Problem Bool :=
  if n < -wordBound || wordBound ≤ n then .error .noBoolean
  else if n = 0 || n = 1 then .ok (n == 1)
  else .error .unreadableBoolean

def asBoolean : Value → Except Problem Bool
  | .boolean b => .ok b
  | .integer n => truthOfInteger n
  | .real x =>
    match x.toInt? with
    | some n => truthOfInteger n
    | none => .error .noBoolean
  | value => do
    match ← value.spelling .unreadableBoolean with
    | none => .error .noBoolean
    | some s =>
      if isTruthWord true s then .ok true
      else if isTruthWord false s then .ok false
      else .error .unreadableBoolean

def asBytes : Value → Except Problem Bytes
  | .bytes b => .ok b
  | .byteArray b => .ok b
  | .string s => if s.any isSurrogate then .error .brokenText else .ok s.utf8
  | _ => .error .noBytes

def asMoment : Value → Except Problem Moment
  | .moment m => .ok m
  | .day d => .ok ⟨d, .midnight, none⟩
  | _ => .error .noMoment

def asList : Value → Except Problem (List Value)
  | .list items => .ok items
  | .tuple items => .ok items
  | _ => .error .noList

end Value

end PropertyList
