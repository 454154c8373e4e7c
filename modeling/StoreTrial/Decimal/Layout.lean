import StoreTrial.Decimal.Shortest

/-!
# Written forms of doubles

A double is written with its shortest digits; a `Layout` says where they stand. `fixed` writes a
number of places after the point instead, rounding the exact binary value.
-/

namespace StoreTrial.Decimal

/-! ## Shortest form -/

/-- The decisions that a written form of a double leaves open. -/
structure Layout where
  /-- Which of two equally near shortest decimals is taken. -/
  tie : Tie
  /-- The places of the decimal point that are written without an exponent, if not all. -/
  places : Option (Int × Int)
  /-- Whether a whole number keeps a zero after the point. -/
  pointZero : Bool
  /-- Whether a positive exponent has a plus sign. -/
  plus : Bool

/-- Digits around a decimal point that stands `point` places after the first digit's left edge. -/
def positional (pointZero : Bool) (ds : List Char) (point : Int) : List Char :=
  if point ≤ 0 then '0' :: '.' :: List.replicate (-point).toNat '0' ++ ds
  else
    let whole := ds.take point.toNat ++ List.replicate (point.toNat - ds.length) '0'
    let rest := ds.drop point.toNat
    if rest.isEmpty then whole ++ (if pointZero then ['.', '0'] else [])
    else whole ++ '.' :: rest

/-- Digits with the point after the first one, and a power of ten. -/
def scientific (plus : Bool) (ds : List Char) (point : Int) : List Char :=
  let exponent := point - 1
  let sign := if plus ∧ 0 ≤ exponent then ['+'] else []
  let rest := ds.drop 1
  ds.take 1 ++ (if rest.isEmpty then [] else '.' :: rest) ++ 'e' :: sign ++ (ofInt exponent).toList

/-- The written form of a finite magnitude. -/
def Layout.magnitude (l : Layout) (s : Scaled) : List Char :=
  if s.mantissa = 0 then '0' :: (if l.pointZero then ['.', '0'] else [])
  else
    let d := shortest l.tie s
    let ds := digits d.coefficient
    let point := ds.length + d.exponent
    let inside := match l.places with
      | none => true
      | some (least, greatest) => least ≤ point && point ≤ greatest
    if inside then positional l.pointZero ds point else scientific l.plus ds point

/-- The written form of any double. -/
def Layout.write (l : Layout) (x : Float) : String :=
  if x.isNaN then "NaN"
  else
    let sign := if isNegative x then ['-'] else []
    let body := if x.isInf then ['i', 'n', 'f'] else l.magnitude (Decimal.magnitude x)
    String.ofList (sign ++ body)

/-- Plain digits, however many zeros that takes. -/
def plain : Layout := ⟨.up, none, false, false⟩

/-- A form that can be told from a whole number: from 10^16 on and below 10^-4 with an exponent. -/
def marked : Layout := ⟨.up, some (-3, 16), true, false⟩

/-! ## Fixed places -/

/-- The written form of a magnitude with `places` digits after the point. -/
def fixedMagnitude (places : Nat) (s : Scaled) : List Char :=
  let (num, den) := s.fraction
  let units := roundDiv .toEven (num * 10 ^ places) den
  let ds := digits units
  let padded := List.replicate (places + 1 - ds.length) '0' ++ ds
  let whole := padded.take (padded.length - places)
  if places = 0 then whole else whole ++ '.' :: padded.drop (padded.length - places)

/-- A double with `places` digits after the point, its exact value rounded to the nearest. -/
def fixed (places : Nat) (x : Float) : String :=
  if x.isNaN then "NaN"
  else
    let sign := if isNegative x then ['-'] else []
    let body := if x.isInf then ['i', 'n', 'f'] else fixedMagnitude places (magnitude x)
    String.ofList (sign ++ body)

end StoreTrial.Decimal
