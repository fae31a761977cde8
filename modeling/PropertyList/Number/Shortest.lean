import PropertyList.Number.Binary64

/-!
The shortest decimal of a floating-point number: the fewest digits that no other number is nearer
to, and of these the digits nearest to the number.
-/
namespace PropertyList.Binary64

/-- A decimal: its digits stand behind the point, which `exponent` then moves to the right. -/
structure ShortDecimal where
  digits : List Nat
  exponent : Int
  deriving DecidableEq, Repr

/-- Compares `a * 10 ^ p` with `b * 2 ^ q / 2 ^ 1076`. -/
def compareScaled (a : Nat) (p : Int) (b q : Nat) : Ordering :=
  compare (a * Nat.pow 10 p.toNat * Nat.pow 2 1076) (b * Nat.pow 2 q * Nat.pow 10 (-p).toNat)

/-- Whether `a * 10 ^ p` is nearer to the number with significand `m` and exponent `q` than to all
others, or as near as any if the significand is even. -/
def readsBack (a : Nat) (p : Int) (m q : Nat) : Bool :=
  let low := compareScaled a p (4 * m - if m = Nat.pow 2 52 && 0 < q then 1 else 2) q
  let high := compareScaled a p (4 * m + 2) q
  let isEven := m % 2 == 0
  (low == .gt || (isEven && low == .eq)) && (high == .lt || (isEven && high == .eq))

/-- The better one of two neighbours on the grid of `10 ^ p`, if one reads back. -/
def onGrid? (p : Int) (m q : Nat) : Option Nat :=
  let k := m * Nat.pow 2 q * Nat.pow 10 (-p).toNat / (Nat.pow 10 p.toNat * Nat.pow 2 1074)
  match readsBack k p m q, readsBack (k + 1) p m q with
  | true, true =>
    match compareScaled (2 * k + 1) p (8 * m) q with
    | .gt => some k
    | .lt => some (k + 1)
    | .eq => some (k + k % 2)
  | true, false => some k
  | false, true => some (k + 1)
  | false, false => none

/-- The exponent of a positive number: the count of its digits in front of the point. -/
def pointOf (m q : Nat) : Int :=
  let places : Nat := 400
  ((digits 10 (m * Nat.pow 2 q * Nat.pow 10 places / Nat.pow 2 1074)).length : Int) - places

/-- Looks for the shortest decimal, from `count` digits on. -/
def shortestFrom (point : Int) (m q : Nat) : Nat → Nat → ShortDecimal
  | 0, _ => ⟨[], point⟩
  | fuel + 1, count =>
    match onGrid? (point - count) m q with
    | some k =>
      let ds := digits 10 k
      ⟨ds, point - count + ds.length⟩
    | none => shortestFrom point m q fuel (count + 1)

/-- Seventeen digits are always enough. -/
def shortest (m q : Nat) : ShortDecimal := shortestFrom (pointOf m q) m q 17 1

/-- The text of a shortest decimal: with an exponent if the point lies far away. -/
def ShortDecimal.text (d : ShortDecimal) : Text :=
  let marks := d.digits.reverse.dropWhile (· == 0) |>.reverse |>.map (ch '0' + ·)
  let zeros (n : Int) : Text := List.replicate n.toNat (ch '0')
  if -4 < d.exponent && d.exponent ≤ 16 then
    let whole := if d.exponent ≤ 0 then [ch '0'] else
      marks.take d.exponent.toNat ++ zeros (d.exponent - marks.length)
    let rest := zeros (-d.exponent) ++ marks.drop d.exponent.toNat
    whole ++ ch '.' :: if rest.isEmpty then [ch '0'] else rest
  else
    let e := d.exponent - 1
    let fraction := marks.drop 1
    marks.take 1 ++ (if fraction.isEmpty then [] else ch '.' :: fraction) ++
      ch 'e' :: (if e < 0 then ch '-' else ch '+') ::
        ((if e.natAbs < 10 then [ch '0'] else []) ++ decimal e.natAbs)

/-- The shortest text that reads back as the number. -/
def shortText : Binary64 → Text
  | .nan => PropertyList.text "nan"
  | .infinite negative => PropertyList.text (if negative then "-inf" else "inf")
  | .finite negative m q =>
    (if negative then [ch '-'] else []) ++
      if m = 0 then PropertyList.text "0.0" else (shortest m q).text

end PropertyList.Binary64
