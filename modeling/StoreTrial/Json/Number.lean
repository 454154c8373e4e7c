import StoreTrial.Decimal.Layout
import StoreTrial.Decimal.Reading

/-!
# Numbers of a document

A number is kept as it is written: a sign, digits without leading zeros, perhaps places and perhaps
a power of ten. It is a whole number only when it has neither of the last two.

As a double it is read in a quick way that may miss the nearest double by a little: as many leading
digits as fit in 64 bits, multiplied or divided by a power of ten.
-/

namespace StoreTrial.Json

/-! ## Literals -/

/-- The sign written in front of an exponent. -/
inductive ExponentSign where
  | none
  | plus
  | minus
  deriving Repr, DecidableEq

/-- A power of ten as it is written. -/
structure Exponent where
  sign : ExponentSign
  digits : List Char
  deriving Repr, DecidableEq

/-- A number as it is written. -/
structure Number where
  negative : Bool
  whole : List Char
  places : Option (List Char)
  exponent : Option Exponent
  deriving Repr, DecidableEq

namespace Number

/-- The digits at the start, at least one, and what follows. -/
def digits? (cs : List Char) : Option (List Char × List Char) :=
  let (ds, rest) := Decimal.spanDigits cs
  if ds.isEmpty then none else some (ds, rest)

/-- Digits without leading zeros, and what follows. -/
def whole? (cs : List Char) : Option (List Char × List Char) :=
  (digits? cs).filter fun (ds, _) => ds.length = 1 ∨ ds.head? ≠ some '0'

/-- A point and the digits behind it, if there is a point. -/
def places? : List Char → Option (Option (List Char) × List Char)
  | '.' :: cs => (digits? cs).map fun (ds, rest) => (some ds, rest)
  | cs => some (none, cs)

/-- The sign in front of an exponent, and what follows. -/
def exponentSign : List Char → ExponentSign × List Char
  | '+' :: cs => (.plus, cs)
  | '-' :: cs => (.minus, cs)
  | cs => (.none, cs)

/-- A power of ten, if its letter is there. -/
def exponent? : List Char → Option (Option Exponent × List Char)
  | [] => some (none, [])
  | c :: cs =>
    if c = 'e' ∨ c = 'E' then
      let (sign, cs) := exponentSign cs
      (digits? cs).map fun (ds, rest) => (some ⟨sign, ds⟩, rest)
    else some (none, c :: cs)

/-- The parts of a number behind its sign. -/
def unsigned? (negative : Bool) (cs : List Char) : Option (Number × List Char) := do
  let (whole, cs) ← whole? cs
  let (places, cs) ← places? cs
  let (exponent, cs) ← exponent? cs
  return (⟨negative, whole, places, exponent⟩, cs)

/-- The number at the start of a text, and what follows. -/
def read? : List Char → Option (Number × List Char)
  | '-' :: cs => unsigned? true cs
  | cs => unsigned? false cs

/-- The characters of an exponent. -/
def exponentText (e : Exponent) : List Char :=
  let sign := match e.sign with
    | .none => []
    | .plus => ['+']
    | .minus => ['-']
  'e' :: sign ++ e.digits

/-- The characters of a number. -/
def write (n : Number) : List Char :=
  (if n.negative then ['-'] else []) ++ n.whole
    ++ (match n.places with | some ds => '.' :: ds | none => [])
    ++ (match n.exponent with | some e => exponentText e | none => [])

/-! ## Whole numbers -/

/-- The literal of a whole number. -/
def ofNat (n : Nat) : Number := ⟨false, Decimal.digits n, none, none⟩

/-- The value of a literal that writes a whole number below a bound. -/
def natBelow? (bound : Nat) (n : Number) : Option Nat :=
  if n.negative ∨ n.places.isSome ∨ n.exponent.isSome then none
  else (Decimal.readNat? n.whole).filter (· < bound)

/-! ## Doubles -/

/-- Appends digits to a number as long as it fits in 64 bits; also how many were appended. -/
def absorb (significand : Nat) : List Char → Nat × Nat
  | [] => (significand, 0)
  | c :: cs =>
    let next := significand * 10 + (Decimal.digit? c).getD 0
    if next < 2 ^ 64 then
      let (result, taken) := absorb next cs
      (result, taken + 1)
    else (significand, 0)

/-- The largest power of ten that one multiplication or division applies. -/
def powerLimit : Nat := 308

/-- The double nearest to a power of ten. -/
def power (n : Nat) : Float := Float.ofScientific 1 false n

/-- Divides by a power of ten, in steps when it is too large for one. -/
def divided (x : Float) (n : Nat) : Float :=
  if n ≤ powerLimit then x / power n
  else if x == 0.0 then x
  else divided (x / power powerLimit) (n - powerLimit)
  termination_by n
  decreasing_by (simp only [powerLimit] at *; omega)

/-- Multiplies by a power of ten; no answer if the result is too large for a double. -/
def multiplied? (x : Float) (n : Nat) : Option Float :=
  if n ≤ powerLimit then
    let y := x * power n
    if y.isInf then none else some y
  else if x == 0.0 then some x
  else none

/-- The double of a significand and a power of ten. -/
def ofParts? (significand : Nat) (exponent : Int) : Option Float :=
  let x := Float.ofNat significand
  if 0 ≤ exponent then multiplied? x exponent.toNat else some (divided x (-exponent).toNat)

/-- Keeps a whole number within 32 signed bits. -/
def saturated (i : Int) : Int := max (-2 ^ 31) (min i (2 ^ 31 - 1))

/--
The double of a magnitude whose exponent does not fit in 32 signed bits: zero, or none when it
would be infinite.
-/
def extreme? (significand : Nat) (negativeExponent : Bool) : Option Float :=
  if significand ≠ 0 ∧ ¬negativeExponent then none else some 0.0

/-- The double that the magnitude of a literal is read as. -/
def magnitude? (n : Number) : Option Float :=
  let (whole, taken) := absorb 0 n.whole
  let dropped : Int := n.whole.length - taken
  let (significand, shift) := absorb whole (n.places.getD [])
  let base := dropped - shift
  match n.exponent with
  | none => ofParts? significand base
  | some e =>
    let power := Decimal.value e.digits
    let negative := e.sign = .minus
    if 2 ^ 31 ≤ power then extreme? significand negative
    else ofParts? significand (saturated (if negative then base - power else base + power))

/-- The double that a literal is read as. -/
def toFloat? (n : Number) : Option Float :=
  n.magnitude?.map fun x => if n.negative then -x else x

/--
Doubles are written with their shortest digits: with an exponent from 10^16 on, then with its plus
sign, and below 10^-5.
-/
def layout : Decimal.Layout := ⟨.toEven, some (-4, 16), true, true⟩

/-- The literal of a double, if it is finite. -/
def ofFloat? (x : Float) : Option Number :=
  match read? (layout.write x).toList with
  | some (n, []) => some n
  | _ => none

end Number

end StoreTrial.Json
