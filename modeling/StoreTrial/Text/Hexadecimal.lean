/-!
# Hexadecimal digits

Escapes name characters and bytes by number, in base sixteen and in lower case.
-/

namespace StoreTrial

/-- The lower-case hexadecimal digit. -/
def hexDigit (d : Nat) : Char := Char.ofNat (if d < 10 then 48 + d else 87 + d)

/-- A number in lower-case hexadecimal, without leading zeros. -/
def hex (n : Nat) : List Char :=
  if n < 16 then [hexDigit n] else hex (n / 16) ++ [hexDigit (n % 16)]
  termination_by n

/-- A number that a byte can hold, in two digits. -/
def hexPair (n : Nat) : List Char := [hexDigit (n / 16 % 16), hexDigit (n % 16)]

end StoreTrial
