/-!
# Decimals

A non-negative decimal number with a finite expansion, and the two ways to write one: positional,
with as many zeros as it takes, and scientific, with one digit before the point and an exponent.
-/

namespace StatementPress

/-- A non-negative decimal, `coefficient · 10 ^ exponent`. -/
structure Decimal where
  /-- The digits, as a number. -/
  coefficient : Nat
  /-- The power of ten of the last digit. -/
  exponent : Int
  deriving DecidableEq

namespace Decimal

/-- The digits, first one first. -/
def digits (d : Decimal) : List Char := Nat.toDigits 10 d.coefficient

/-- Where the point stands: the number of digits before it, or minus the number of zeros that
follow it. -/
def point (d : Decimal) : Int := d.digits.length + d.exponent

/-- Drops trailing zeros from a coefficient, at most `fuel` of them. -/
def stripZeros : Nat → Nat → Int → Decimal
  | 0, c, e => ⟨c, e⟩
  | fuel + 1, c, e => if c % 10 = 0 then stripZeros fuel (c / 10) (e + 1) else ⟨c, e⟩

/-- Positional writing.  `whole` is what follows the digits of a whole number. -/
def positional (whole : List Char) (d : Decimal) : List Char :=
  if 0 ≤ d.exponent then d.digits ++ List.replicate d.exponent.toNat '0' ++ whole
  else if 0 < d.point then
    d.digits.take d.point.toNat ++ '.' :: d.digits.drop d.point.toNat
  else '0' :: '.' :: (List.replicate (-d.point).toNat '0' ++ d.digits)

/-- Scientific writing, the exponent always with a sign. -/
def scientific (d : Decimal) : List Char :=
  let e := d.point - 1
  let fraction := match d.digits.drop 1 with
    | [] => []
    | rest => '.' :: rest
  d.digits.take 1 ++ fraction ++ 'e' :: (if e < 0 then '-' else '+') :: Nat.toDigits 10 e.natAbs

end Decimal

end StatementPress
