import PropertyList.Text.Basic

/-!
Positional numerals. Digits are listed from the most significant one.
-/
namespace PropertyList

/-- The number that a list of digits stands for. -/
def ofDigits (base : Nat) (ds : List Nat) : Nat := ds.foldl (fun n d => n * base + d) 0

/-- The digits of a number in front of `lower`, at most `count` of them. -/
def digitsOnto (base : Nat) : Nat → Nat → List Nat → List Nat
  | 0, _, lower => lower
  | count + 1, n, lower =>
    if n < base then n :: lower else digitsOnto base count (n / base) (n % base :: lower)

/-- The digits of a number, without leading zeros. -/
def digits (base n : Nat) : List Nat := digitsOnto base (n + 1) n []

/-- The decimal numeral of a natural number. -/
def decimal (n : Nat) : Text := (digits 10 n).map (ch '0' + ·)

/-- The decimal numeral of an integer. -/
def signedDecimal (n : Int) : Text :=
  if n < 0 then ch '-' :: decimal n.natAbs else decimal n.natAbs

/-- The last `width` decimal digits of a number, with leading zeros. -/
def paddedDecimal : Nat → Nat → Text
  | 0, _ => []
  | width + 1, n => paddedDecimal width (n / 10) ++ [ch '0' + n % 10]

/-- The value of a character as a digit in bases up to sixteen. -/
def digitValue (c : CodePoint) : Nat :=
  if isDigit c then c - ch '0' else lowerAscii c - ch 'a' + 10

/-- The number that a numeral stands for. -/
def numeralValue (base : Nat) (s : Text) : Nat := ofDigits base (s.map digitValue)

/-- The longest decimal numeral that is read or written. -/
def maxDecimalDigits : Nat := 4300

end PropertyList
