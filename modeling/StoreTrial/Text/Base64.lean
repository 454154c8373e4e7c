import StoreTrial.Bytes
import StoreTrial.Decimal.Numeral

/-!
# Base64

Three bytes become four characters of a 64-letter alphabet; a last group of one or two bytes is
filled up with equality signs.
-/

namespace StoreTrial.Base64

/-- The letter for a value below 64. -/
def letter (n : Nat) : Char :=
  if n < 26 then Char.ofNat (65 + n)
  else if n < 52 then Char.ofNat (71 + n)
  else if n < 62 then Char.ofNat (n - 4)
  else if n = 62 then '+'
  else '/'

/-- The letter for the six bits of `n` that begin at bit `shift`. -/
def sextet (n shift : Nat) : Char := letter (n / 2 ^ shift % 64)

/-- The padded form of a payload. -/
def encode : Bytes → List Char
  | a :: b :: c :: rest =>
    let n := a.toNat * 65536 + b.toNat * 256 + c.toNat
    sextet n 18 :: sextet n 12 :: sextet n 6 :: sextet n 0 :: encode rest
  | [a, b] =>
    let n := a.toNat * 65536 + b.toNat * 256
    [sextet n 18, sextet n 12, sextet n 6, '=']
  | [a] =>
    let n := a.toNat * 65536
    [sextet n 18, sextet n 12, '=', '=']
  | [] => []

end StoreTrial.Base64
