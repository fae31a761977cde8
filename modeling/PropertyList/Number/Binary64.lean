import PropertyList.Number.Positional

/-!
Binary floating-point numbers of 64 bits, taken apart into sign, significand and exponent. All
arithmetic on them is exact arithmetic on naturals. Powers are spelled `Nat.pow`, which means the
same with and without an algebra library in scope.
-/
namespace PropertyList

/-- The integer nearest to a quotient; a tie goes to the even neighbour. -/
def roundHalfEven (num den : Nat) : Nat :=
  let q := num / den
  let r := num % den
  if 2 * r < den then q else if den < 2 * r then q + 1 else q + q % 2

/-- A floating-point number. The finite number with significand `m` and exponent `q` is
`m * 2 ^ q / 2 ^ 1074`. -/
inductive Binary64 where
  | nan
  | infinite (negative : Bool)
  | finite (negative : Bool) (significand exponent : Nat)
  deriving DecidableEq, Repr

namespace Binary64

/-- Each finite number has one significand and one exponent: the significand has 53 bits unless the
exponent is the least one. -/
def IsCanonical : Binary64 → Prop
  | .nan => True
  | .infinite _ => True
  | .finite _ m q => m < Nat.pow 2 53 ∧ q ≤ 2045 ∧ (q = 0 ∨ Nat.pow 2 52 ≤ m)

instance (x : Binary64) : Decidable x.IsCanonical := by
  cases x <;> unfold IsCanonical <;> infer_instance

/-- The positive zero. -/
def zero : Binary64 := .finite false 0 0

/-- The number that a word of 64 bits encodes. -/
def ofBits (word : Nat) : Binary64 :=
  let negative := word / Nat.pow 2 63 % 2 == 1
  let biased := word / Nat.pow 2 52 % Nat.pow 2 11
  let fraction := word % Nat.pow 2 52
  if biased == 2047 then (if fraction == 0 then .infinite negative else .nan)
  else if biased == 0 then .finite negative fraction 0
  else .finite negative (Nat.pow 2 52 + fraction) (biased - 1)

/-- The word that encodes a number; all that is not a number has one word. -/
def toBits : Binary64 → Nat
  | .nan => 2047 * Nat.pow 2 52 + Nat.pow 2 51
  | .infinite negative => (if negative then Nat.pow 2 63 else 0) + 2047 * Nat.pow 2 52
  | .finite negative m q =>
    (if negative then Nat.pow 2 63 else 0) +
      (if m < Nat.pow 2 52 then m else q * Nat.pow 2 52 + m)

/-- The floating-point number nearest to a quotient; a tie goes to the even significand, and what
lies beyond the largest number becomes infinite. -/
def nearest (negative : Bool) (num den : Nat) : Binary64 :=
  let scaled := num * Nat.pow 2 1074
  let whole := scaled / den
  let q := if whole < Nat.pow 2 53 then 0 else whole.log2 - 52
  let m := roundHalfEven scaled (den * Nat.pow 2 q)
  let carried := m == Nat.pow 2 53
  let m := if carried then Nat.pow 2 52 else m
  let q := if carried then q + 1 else q
  if 2045 < q then .infinite negative else .finite negative m q

/-- The number nearest to the decimal `ds * 10 ^ exponent`. Beyond four hundred places on either
side of the point the result is infinite or zero whatever the digits are. -/
def ofDecimal (negative : Bool) (ds : List Nat) (exponent : Int) : Binary64 :=
  let significant := ds.dropWhile (· == 0)
  let magnitude := (significant.length : Int) + exponent
  if significant.isEmpty || magnitude < -400 then .finite negative 0 0
  else if 400 < magnitude then .infinite negative
  else if 0 ≤ exponent then
    nearest negative (ofDigits 10 significant * Nat.pow 10 exponent.toNat) 1
  else nearest negative (ofDigits 10 significant) (Nat.pow 10 (-exponent).toNat)

/-- Equality of values: the two zeros are equal, and what is not a number equals nothing. -/
def sameValue : Binary64 → Binary64 → Bool
  | .nan, _ => false
  | _, .nan => false
  | .infinite a, .infinite b => a == b
  | .finite a m q, .finite b n r => (m == 0 && n == 0) || (a == b && m == n && q == r)
  | _, _ => false

/-- The text of a number with a fixed count of places behind the point. -/
def fixedPoint (places : Nat) : Binary64 → Text
  | .nan => text "nan"
  | .infinite negative => text (if negative then "-inf" else "inf")
  | .finite negative m q =>
    let scaled := roundHalfEven (m * Nat.pow 2 q * Nat.pow 10 places) (Nat.pow 2 1074)
    (if negative then text "-" else []) ++ decimal (scaled / Nat.pow 10 places) ++
      ch '.' :: paddedDecimal places (scaled % Nat.pow 10 places)

end Binary64

end PropertyList
