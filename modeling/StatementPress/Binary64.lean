/-!
# Doubles as data

A `Binary64` is a double-precision number held as its three fields: the sign, the biased
exponent and the fraction.  Nothing here runs floating-point arithmetic.  A finite number is
`significand · 2 ^ power`, both read off the fields, and every operation is exact arithmetic on
natural numbers followed by one rounding to the nearest double, ties to even (`ofRatio`).

The fields of a number without its sign, read as one natural number, are its `magnitude`.
Magnitudes count the non-negative doubles upwards, so the order of doubles is the order of
signed magnitudes (`rank`), and a carry out of the fraction lands in the exponent by itself.
-/

namespace StatementPress

/-- How many fractions there are: a fraction has 52 bits. -/
abbrev Binary64.fractionCount : Nat := 4503599627370496

/-- A double-precision number, by its fields. -/
structure Binary64 where
  /-- The sign bit. -/
  negative : Bool
  /-- The biased exponent. -/
  exponent : Fin 2048
  /-- The fraction, without the leading bit. -/
  fraction : Fin Binary64.fractionCount
  deriving DecidableEq

namespace Binary64

/-- The fields without the sign, as one number. -/
def magnitude (x : Binary64) : Nat := x.exponent.val * fractionCount + x.fraction.val

/-- The magnitude of the infinities. -/
def infinityMagnitude : Nat := 2047 * fractionCount

/-- The double of a given sign and magnitude.  A magnitude beyond infinity is infinity. -/
def ofMagnitude (negative : Bool) (m : Nat) : Binary64 :=
  if h : m < infinityMagnitude then
    ⟨negative, ⟨m / fractionCount, by unfold infinityMagnitude fractionCount at *; omega⟩,
      ⟨m % fractionCount, Nat.mod_lt _ (by decide)⟩⟩
  else
    ⟨negative, ⟨2047, by decide⟩, ⟨0, by decide⟩⟩

/-- The double whose 64 bits, sign first, are the digits of `w` in base two. -/
def ofBits (w : UInt64) : Binary64 :=
  ⟨w.toNat / fractionCount / 2048 = 1,
    ⟨w.toNat / fractionCount % 2048, Nat.mod_lt _ (by decide)⟩,
    ⟨w.toNat % fractionCount, Nat.mod_lt _ (by decide)⟩⟩

/-- Neither an infinity nor a NaN. -/
def isFinite (x : Binary64) : Bool := x.exponent.val != 2047

/-- Not a number. -/
def isNaN (x : Binary64) : Bool := x.exponent.val == 2047 && x.fraction.val != 0

/-- One of the two zeros. -/
def isZero (x : Binary64) : Bool := x.exponent.val == 0 && x.fraction.val == 0

/-- The whole-number factor of a finite double. -/
def significand (x : Binary64) : Nat :=
  if x.exponent.val = 0 then x.fraction.val else fractionCount + x.fraction.val

/-- The power of two that scales the significand. -/
def power (x : Binary64) : Int := (max x.exponent.val 1 : Nat) - 1075

/-- The signed magnitude; both zeros have rank zero. -/
def rank (x : Binary64) : Int := if x.negative then -(x.magnitude : Int) else x.magnitude

/-- The order of numbers.  A NaN is below nothing and above nothing. -/
def less (x y : Binary64) : Bool := !x.isNaN && !y.isNaN && x.rank < y.rank

/-- The order of numbers, or equality. -/
def lessOrEqual (x y : Binary64) : Bool := !x.isNaN && !y.isNaN && x.rank ≤ y.rank

/-- Positive zero. -/
def zero : Binary64 := ofMagnitude false 0

/-- The same number with the given sign. -/
def withSign (negative : Bool) (x : Binary64) : Binary64 := { x with negative }

/-! ## Rounding -/

/-- The whole number nearest to `n / d`; a half goes to the even neighbour. -/
def roundHalfEven (n d : Nat) : Nat :=
  let q := n / d
  let r := n % d
  if d < 2 * r ∨ (2 * r = d ∧ q % 2 = 1) then q + 1 else q

/-- The largest `k` with `2 ^ k ≤ n / d`, for positive `n` and `d`. -/
def floorLog (n d : Nat) : Int :=
  let k : Int := (n.log2 : Int) - d.log2
  if d <<< k.toNat ≤ n <<< (-k).toNat then k else k - 1

/-- The double nearest to `n / d`, a tie going to the even significand.  Quotients of at least
`2 ^ 1024` less half a unit are infinite, tiny ones lose digits gradually down to zero. -/
def ofRatio (negative : Bool) (n d : Nat) : Binary64 :=
  if n = 0 then ofMagnitude negative 0
  else
    let p := max (floorLog n d - 52) (-1074)
    let q := roundHalfEven (n <<< (-p).toNat) (d <<< p.toNat)
    ofMagnitude negative ((p + 1074).toNat * fractionCount + q)

/-- The double nearest to a natural number. -/
def ofNat (n : Nat) : Binary64 := ofRatio false n 1

/-- The double nearest to an integer. -/
def ofInt (i : Int) : Binary64 := ofRatio (i < 0) i.natAbs 1

/-- The magnitude of a finite double as a numerator. -/
def numerator (x : Binary64) : Nat := x.significand <<< x.power.toNat

/-- The magnitude of a finite double as a denominator, a power of two. -/
def denominator (x : Binary64) : Nat := 1 <<< (-x.power).toNat

/-- The rounded product of two finite doubles. -/
def mul (x y : Binary64) : Binary64 :=
  ofRatio (x.negative != y.negative) (x.numerator * y.numerator) (x.denominator * y.denominator)

/-- The rounded quotient of two finite doubles, the second not zero. -/
def div (x y : Binary64) : Binary64 :=
  ofRatio (x.negative != y.negative) (x.numerator * y.denominator) (x.denominator * y.numerator)

instance (n : Nat) : OfNat Binary64 n := ⟨ofNat n⟩

end Binary64

end StatementPress
