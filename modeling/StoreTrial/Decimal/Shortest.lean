import StoreTrial.Decimal.Numeral

/-!
# The shortest decimal that stands for a binary number

A finite double is `m · 2^q`, and every real between the midpoints to its two neighbours is read
back as that same double; the midpoints themselves are when `m` is even. `shortest` finds the
decimal with the fewest digits in that interval and, among those, the nearest one: on the grid of
`n` digits, for `n = 1, 2, …`, it tests the two grid points around the value in exact arithmetic.
-/

namespace StoreTrial.Decimal

/-! ## Doubles taken apart -/

/-- A positive number `mantissa · 2^exponent`. -/
structure Scaled where
  mantissa : Nat
  exponent : Int
  deriving Repr, DecidableEq

/-- Whether the sign bit is set. -/
def isNegative (x : Float) : Bool := x.toBits.toNat / 2 ^ 63 == 1

/-- The magnitude of a finite double. -/
def magnitude (x : Float) : Scaled :=
  let bits := x.toBits.toNat
  let field : Nat := bits / 2 ^ 52 % 2 ^ 11
  let fraction := bits % 2 ^ 52
  if field = 0 then ⟨fraction, -1074⟩ else ⟨2 ^ 52 + fraction, (field : Int) - 1075⟩

/-- The fraction `(numerator, denominator)` that a scaled number is. -/
def Scaled.fraction (s : Scaled) : Nat × Nat :=
  if 0 ≤ s.exponent then (s.mantissa * 2 ^ s.exponent.toNat, 1)
  else (s.mantissa, 2 ^ (-s.exponent).toNat)

/-! ## Rounding a quotient -/

/-- Which way a quotient goes that lies halfway between two whole numbers. -/
inductive Tie where
  /-- To the larger neighbour. -/
  | up
  /-- To the even neighbour. -/
  | toEven
  deriving Repr, DecidableEq

/-- The whole number nearest to `num / den`. -/
def roundDiv (tie : Tie) (num den : Nat) : Nat :=
  let floor := num / den
  let twice := 2 * (num % den)
  if twice < den then floor
  else if den < twice then floor + 1
  else
    match tie with
    | .up => floor + 1
    | .toEven => floor + floor % 2

/-! ## The search -/

/-- A positive decimal `coefficient · 10^exponent`. -/
structure Digits where
  coefficient : Nat
  exponent : Int
  deriving Repr, DecidableEq

/-- Where the decimal point stands: the least `p` with `num / den < 10^p`. -/
def pointPlace (num den : Nat) : Int :=
  let guess : Int := (length num : Int) - (length den : Int)
  if num * 10 ^ (-guess).toNat < den * 10 ^ guess.toNat then guess else guess + 1

/-- The reals that are read back as one double, in units of `1 / den`. -/
structure Basin where
  low : Nat
  value : Nat
  high : Nat
  den : Nat
  /-- Whether the two ends belong to it. -/
  closed : Bool

/--
The basin of `m · 2^q`. The gap below a power of two is half the gap above it, except at the
bottom of the range.
-/
def Scaled.basin (s : Scaled) : Basin :=
  let below := if s.mantissa = 2 ^ 52 ∧ -1074 < s.exponent then 1 else 2
  let unit := (⟨1, s.exponent - 2⟩ : Scaled).fraction
  ⟨(4 * s.mantissa - below) * unit.1, 4 * s.mantissa * unit.1, (4 * s.mantissa + 2) * unit.1,
    unit.2, s.mantissa % 2 == 0⟩

/-- The same basin in units of `10^exponent`. -/
def Basin.inUnits (b : Basin) (exponent : Int) : Basin :=
  let up := 10 ^ (-exponent).toNat
  ⟨b.low * up, b.value * up, b.high * up, b.den * 10 ^ exponent.toNat, b.closed⟩

/-- Whether a whole number of units lies in the basin. -/
def Basin.holds (b : Basin) (n : Nat) : Bool :=
  if b.closed then b.low ≤ n * b.den && n * b.den ≤ b.high
  else b.low < n * b.den && n * b.den < b.high

/-- Of the two whole numbers of units around the value, the nearer one in the basin. -/
def Basin.nearest? (tie : Tie) (b : Basin) : Option Nat :=
  let floor := b.value / b.den
  match b.holds floor, b.holds (floor + 1) with
  | true, true => some (roundDiv tie b.value b.den)
  | true, false => some floor
  | false, true => some (floor + 1)
  | false, false => none

/-- Drops the zeros at the end of a coefficient. -/
def Digits.normalize (d : Digits) : Digits :=
  if h : d.coefficient ≠ 0 ∧ d.coefficient % 10 = 0 then
    normalize ⟨d.coefficient / 10, d.exponent + 1⟩
  else d
  termination_by d.coefficient
  decreasing_by exact Nat.div_lt_self (Nat.pos_of_ne_zero h.1) (by decide)

/-- The largest number of digits that a double ever needs. -/
def enoughDigits : Nat := 17

/-- The decimal with the fewest digits that is read back as `m · 2^q`, for `m` positive. -/
def shortest (tie : Tie) (s : Scaled) : Digits :=
  let b := s.basin
  let point := pointPlace b.value b.den
  let found := (List.range enoughDigits).findSome? fun n : Nat =>
    let exponent := point - ((n : Int) + 1)
    ((b.inUnits exponent).nearest? tie).map fun c => (⟨c, exponent⟩ : Digits)
  (found.getD ⟨0, 0⟩).normalize

end StoreTrial.Decimal
