import StatementPress.Json.Scan

/-!
# Reading numbers

A numeral without point and exponent is whole as long as it fits in 64 bits, signed or unsigned; any
other numeral is a double.  A double is not the one nearest to the numeral.  Its digits are gathered
into a 64-bit significand.  Fraction digits that no longer fit are dropped, whole digits that no
longer fit are only counted.  The significand is rounded to a double and then scaled by one rounded
power of ten, or by two where the exponent is below every power that a double can hold.
-/

namespace StatementPress.Json.Reader

/-- The value of a decimal digit. -/
def digitValue (c : Char) : Nat := c.toNat - '0'.toNat

/-- Whether a text starts with a digit. -/
def startsWithDigit (s : List Char) : Bool := s.head?.any Char.isDigit

/-- Reads digits from the front as long as the number they make, after `n`, is at most `limit`.
The result is that number, how many digits were read, and the rest. -/
def takeDigits (limit : Nat) (n read : Nat) : List Char → Nat × Nat × List Char
  | [] => (n, read, [])
  | c :: rest =>
    if c.isDigit ∧ n * 10 + digitValue c ≤ limit then
      takeDigits limit (n * 10 + digitValue c) (read + 1) rest
    else (n, read, c :: rest)

/-- The largest significand. -/
def maxSignificand : Nat := UInt64.size - 1

/-- The largest exponent that is told from infinity. -/
def maxExponent : Nat := UInt32.size / 2 - 1

/-- The double nearest to a power of ten. -/
def powerOfTen (k : Nat) : Binary64 := Binary64.ofNat (Nat.pow 10 k)

/-- The magnitude of a numeral with significand `n` and decimal exponent `e`.  It is absent if the
doubles do not reach that far. -/
def scaled? (n : Nat) (e : Int) : Option Binary64 :=
  let x := Binary64.ofNat n
  if 308 < e then
    if n = 0 then some x else none
  else if 0 ≤ e then
    let y := x.mul (powerOfTen e.toNat)
    if y.isFinite then some y else none
  else if -308 ≤ e then some (x.div (powerOfTen (-e).toNat))
  else if -616 ≤ e then some ((x.div (powerOfTen 308)).div (powerOfTen (-e - 308).toNat))
  else some Binary64.zero

/-- The number of a double numeral whose parts have been read. -/
def doubleOf (negative : Bool) (n : Nat) (e : Int) : Reader Number :=
  match scaled? n e with
  | none => failHere .numberOutOfRange
  | some x =>
    if h : (x.withSign negative).isFinite = true then pure (.double (x.withSign negative) h)
    else failHere .numberOutOfRange

/-- Reads an exponent after its letter. -/
def exponentPart (negative : Bool) (n : Nat) (start : Int) : Reader Number := do
  let s ← get
  let (down, digits) := match s with
    | '+' :: rest => (false, rest)
    | '-' :: rest => (true, rest)
    | _ => (false, s)
  match digits with
  | [] => failAt .endInValue [] 0
  | c :: _ =>
    if !c.isDigit then failAt .invalidNumber digits 1
    else do
      let (e, _, rest) := takeDigits maxExponent 0 0 digits
      if startsWithDigit rest then
        if n ≠ 0 ∧ !down then failAt .numberOutOfRange (rest.drop 1) 0
        else do
          set (rest.dropWhile Char.isDigit)
          doubleOf negative 0 0
      else do
        set rest
        doubleOf negative n (if down then start - e else start + e)

/-- Reads the exponent of a double numeral, if there is one. -/
def exponentPart? (negative : Bool) (n : Nat) (start : Int) : Reader Number := do
  match ← get with
  | 'e' :: rest | 'E' :: rest => do
    set rest
    exponentPart negative n start
  | _ => doubleOf negative n start

/-- Reads a fraction after its point; `start` whole digits were counted only. -/
def fractionPart (negative : Bool) (n : Nat) (start : Nat) : Reader Number := do
  let (m, read, rest) := takeDigits maxSignificand n 0 (← get)
  if startsWithDigit rest then do
    set (rest.dropWhile Char.isDigit)
    exponentPart? negative m (start - read)
  else if read = 0 then
    failAt (if rest.isEmpty then .endInValue else .invalidNumber) rest 1
  else do
    set rest
    exponentPart? negative m (start - read)

/-- The number of a numeral without point and exponent. -/
def wholeOf (negative : Bool) (n : Nat) : Reader Number :=
  if !negative then pure (.whole n)
  else if n = 0 ∨ UInt64.size / 2 < n then doubleOf true n 0
  else pure (.whole (-n))

/-- Reads what follows the whole digits of a numeral. -/
def afterWhole (negative : Bool) (n : Nat) : Reader Number := do
  match ← get with
  | '.' :: rest => do
    set rest
    fractionPart negative n 0
  | 'e' :: rest | 'E' :: rest => do
    set rest
    exponentPart negative n 0
  | _ => wholeOf negative n

/-- Reads what follows the whole digits of a numeral of which `extra` digits were counted only. -/
def afterLongWhole (negative : Bool) (n extra : Nat) : Reader Number := do
  match ← get with
  | '.' :: rest => do
    set rest
    fractionPart negative n extra
  | _ => exponentPart? negative n extra

/-- Reads a numeral after its sign. -/
def numeral (negative : Bool) : Reader Number := do
  match ← get with
  | [] => failHere .endInValue
  | c :: rest =>
    if c = '0' then
      if startsWithDigit rest then failAt .invalidNumber rest 1
      else do
        set rest
        afterWhole negative 0
    else if c.isDigit then do
      let (n, _, rest) := takeDigits maxSignificand (digitValue c) 0 rest
      let longer := rest.takeWhile Char.isDigit
      set (rest.drop longer.length)
      if longer.isEmpty then afterWhole negative n
      else afterLongWhole negative n longer.length
    else failNext .invalidNumber

/-- Reads a number, sign included, from a place where one starts. -/
def number : Reader Number := do
  match ← get with
  | '-' :: rest => do
    set rest
    numeral true
  | _ => numeral false

end StatementPress.Json.Reader
