import StoreTrial.Decimal.Shortest

/-!
# Spans of time

A span is a whole number of nanoseconds below 2^64 seconds. It is shown in the largest unit that
leaves a whole part, with as many places as it needs.
-/

namespace StoreTrial

/-- A span of time. -/
structure Duration where
  nanos : Nat
  deriving Repr, DecidableEq

namespace Duration

/-- Nanoseconds in a second. -/
def perSecond : Nat := 1000000000

/-- Nanoseconds in a millisecond. -/
def perMilli : Nat := 1000000

/-- Nanoseconds in a microsecond. -/
def perMicro : Nat := 1000

/-- No time at all. -/
def zero : Duration := ⟨0⟩

/-- The longest span. -/
def max : Duration := ⟨2 ^ 64 * perSecond - 1⟩

/-- So many seconds. -/
def ofSeconds (n : Nat) : Duration := ⟨n * perSecond⟩

/-- So many milliseconds. -/
def ofMillis (n : Nat) : Duration := ⟨n * perMilli⟩

instance : Add Duration := ⟨fun a b => ⟨a.nanos + b.nanos⟩⟩

instance : Sub Duration := ⟨fun a b => ⟨a.nanos - b.nanos⟩⟩

/-! ## Fractional seconds -/

/-- The span in seconds: whole seconds and the rest are rounded apart and then added. -/
def seconds (d : Duration) : Float :=
  Float.ofNat (d.nanos / perSecond) + Float.ofNat (d.nanos % perSecond) / Float.ofNat perSecond

/-- The span in milliseconds. -/
def millis (d : Duration) : Float := d.seconds * 1000.0

/-- The span nearest to so many seconds, if it is one: not negative and below 2^64 seconds. -/
def ofSeconds? (x : Float) : Option Duration :=
  if x.isNaN || x < 0.0 || x.isInf then none
  else
    let (num, den) := (Decimal.magnitude x).fraction
    if 2 ^ 64 * den ≤ num then none else some ⟨Decimal.roundDiv .toEven (num * perSecond) den⟩

/-! ## Written form -/

/-- A rest below 10^width as places after the point, without zeros at the end. -/
def places (width rest : Nat) : List Char :=
  let ds := Decimal.digits rest
  let padded := List.replicate (width - ds.length) '0' ++ ds
  (padded.reverse.dropWhile (· == '0')).reverse

/-- A number of units with the rest as places and the unit's name. -/
def inUnit (whole width rest : Nat) (name : String) : String :=
  let ds := places width rest
  Decimal.ofNat whole ++ (if ds.isEmpty then "" else "." ++ String.ofList ds) ++ name

/-- The span in the largest unit that leaves a whole part. -/
def text (d : Duration) : String :=
  if perSecond ≤ d.nanos then
    inUnit (d.nanos / perSecond) 9 (d.nanos % perSecond) "s"
  else if perMilli ≤ d.nanos then
    inUnit (d.nanos / perMilli) 6 (d.nanos % perMilli) "ms"
  else if perMicro ≤ d.nanos then
    inUnit (d.nanos / perMicro) 3 (d.nanos % perMicro) "µs"
  else inUnit d.nanos 0 0 "ns"

end Duration

end StoreTrial
