import StoreTrial.Decimal.Numeral

/-!
# Reading doubles

A double is written as an optional sign and either digits with an optional point and an optional
exponent, or the word for infinity or for no number, in any case of letters. At least one digit
stands beside the point, and the value is the double nearest to the decimal.
-/

namespace StoreTrial.Decimal

/-- The digits at the start of a text, and what follows them. -/
def spanDigits (cs : List Char) : List Char × List Char :=
  cs.span fun c => (digit? c).isSome

/-- The number that digits write, zero for none. -/
def value (ds : List Char) : Nat := (extend 0 ds).getD 0

/-- Beyond these powers of ten every decimal is infinite, and below them zero. -/
def decades : Int := 400

/-- The double nearest to `coefficient · 10^exponent`. -/
def nearest (coefficient : Nat) (exponent : Int) : Float :=
  let size := length coefficient + exponent
  if coefficient = 0 ∨ size < -decades then 0.0
  else if decades < size then 1.0 / 0.0
  else if 0 ≤ exponent then Float.ofScientific coefficient false exponent.toNat
  else Float.ofScientific coefficient true (-exponent).toNat

/-- A power of ten after the letter, zero when the text has ended. -/
def exponent? : List Char → Option Int
  | [] => some 0
  | c :: cs =>
    if c = 'e' ∨ c = 'E' then readInt? cs else none

/-- The value of digits, point and exponent. -/
def unsigned? (cs : List Char) : Option Float :=
  let (whole, rest) := spanDigits cs
  let (places, rest) := match rest with
    | '.' :: rest => spanDigits rest
    | _ => ([], rest)
  if whole.isEmpty ∧ places.isEmpty then none
  else
    (exponent? rest).map fun e => nearest (value (whole ++ places)) (e - places.length)

/-- The lower-case form of an ASCII letter. -/
def lower (c : Char) : Char := if 'A' ≤ c ∧ c ≤ 'Z' then Char.ofNat (c.toNat + 32) else c

/-- The value of a text without a sign. -/
def magnitude? (cs : List Char) : Option Float :=
  let word := cs.map lower
  if word = "inf".toList ∨ word = "infinity".toList then some (1.0 / 0.0)
  else if word = "nan".toList then some (0.0 / 0.0)
  else unsigned? cs

/-- The double that a text writes. -/
def readFloat? (text : String) : Option Float :=
  match text.toList with
  | '-' :: cs => (magnitude? cs).map fun x => -x
  | '+' :: cs => magnitude? cs
  | cs => magnitude? cs

end StoreTrial.Decimal
