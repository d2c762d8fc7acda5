import StatementPress.Binary64
import StatementPress.Decimal

/-!
# The fewest decimal digits that read back

A finite positive double is the nearest double to every real in an interval around it; the ends
belong to the interval when the significand is even.  `shortest` looks for a decimal in that
interval on the grids of one, two, … seventeen significant digits.  On each grid only the two
neighbours of the number itself matter: if any point of the grid lies in the interval, so does one
of them.  The first grid with a hit wins, of two hits the nearer one, and a tie is decided by the
format that prints the digits.

Everything is exact arithmetic on natural numbers.
-/

namespace StatementPress

/-- Which of two equally near decimals is taken. -/
inductive Tie where
  /-- The one whose last digit is even. -/
  | even
  /-- The larger one. -/
  | up
  deriving DecidableEq

namespace Binary64

/-- The number of decimal digits of a natural number. -/
def digitCount (n : Nat) : Nat := (Nat.toDigits 10 n).length

/-- The least `k` with `n / d < 10 ^ k`, for positive `n` and `d`. -/
def decimalLog (n d : Nat) : Int :=
  if d ≤ n then digitCount (n / d) else 1 - (digitCount ((d - 1) / n) : Int)

/-- The reals that round to a positive finite double, in quarters of its unit. -/
structure Interval where
  /-- Four times the significand. -/
  centre : Nat
  /-- The lower end. -/
  low : Nat
  /-- The upper end. -/
  high : Nat
  /-- Whether the ends belong to the interval. -/
  closed : Bool

/-- The rounding interval of a positive finite double.  Below a power of two the doubles lie twice
as dense, so there the lower end is nearer. -/
def interval (x : Binary64) : Interval :=
  let m := x.significand
  ⟨4 * m, if x.fraction.val = 0 ∧ 1 < x.exponent.val then 4 * m - 1 else 4 * m - 2, 4 * m + 2,
    m % 2 = 0⟩

/-- Whether `c / d` quarters of a unit lie in the interval. -/
def Interval.holds (i : Interval) (c d : Nat) : Bool :=
  if i.closed then i.low * d ≤ c && c ≤ i.high * d else i.low * d < c && c < i.high * d

/-- The hit on the grid of the multiples of `10 ^ e`, where a quarter of the double's unit is
`num / den`. -/
def hit (tie : Tie) (i : Interval) (num den : Nat) (e : Int) : Option Nat :=
  let step := Nat.pow 10 e.toNat * den
  let scale := Nat.pow 10 (-e).toNat * num
  let c := i.centre * scale / step
  match i.holds (c * step) scale, i.holds ((c + 1) * step) scale with
  | true, true =>
    let below := i.centre * scale - c * step
    let above := (c + 1) * step - i.centre * scale
    if below < above then some c
    else if above < below then some (c + 1)
    else match tie with
      | .up => some (c + 1)
      | .even => if c % 2 = 0 then some c else some (c + 1)
  | true, false => some c
  | false, true => some (c + 1)
  | false, false => none

/-- The shortest decimal that reads back as the magnitude of a finite double. -/
def shortest (tie : Tie) (x : Binary64) : Decimal :=
  if x.isZero then ⟨0, 0⟩
  else
    let num := 1 <<< (x.power - 2).toNat
    let den := 1 <<< (2 - x.power).toNat
    let k := decimalLog x.numerator x.denominator
    let found := (List.range 17).findSome? fun j =>
      let e := k - (j + 1 : Nat)
      (hit tie x.interval num den e).map fun c => Decimal.stripZeros 2 c e
    found.getD ⟨0, 0⟩

end Binary64

end StatementPress
