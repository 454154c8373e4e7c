import StoreTrial.Bytes
import StoreTrial.Text.Hexadecimal
import StoreTrial.Text.Unprintable

/-!
# Quoted text and quoted bytes

Reports show texts and payloads between double quotes. A quote or backslash gets a backslash, the
common controls have short names, and whatever has no shape of its own is shown by number: code
points in braces, bytes as two digits.
-/

namespace StoreTrial.Quoted

/-! ## Text -/

/-- How one character of a quoted text is shown. -/
def textChar (c : Char) : List Char :=
  if c = '\x00' then ['\\', '0']
  else if c = '\t' then ['\\', 't']
  else if c = '\r' then ['\\', 'r']
  else if c = '\n' then ['\\', 'n']
  else if c = '\\' ∨ c = '"' then ['\\', c]
  else if isPrintable c then [c]
  else ['\\', 'u', '\x7b'] ++ hex c.toNat ++ ['\x7d']

/-- A text in double quotes. -/
def text (s : String) : String :=
  String.ofList ('"' :: s.toList.flatMap textChar ++ ['"'])

/-! ## Bytes -/

/-- How one byte of a quoted payload is shown. -/
def byte (b : UInt8) : List Char :=
  if b = 0 then ['\\', '0']
  else if b = 9 then ['\\', 't']
  else if b = 13 then ['\\', 'r']
  else if b = 10 then ['\\', 'n']
  else if b = 92 ∨ b = 34 then ['\\', Char.ofNat b.toNat]
  else if 32 ≤ b ∧ b < 127 then [Char.ofNat b.toNat]
  else ['\\', 'x'] ++ hexPair b.toNat

/-- A payload in double quotes, with a mark in front that tells it from a text. -/
def bytes (payload : Bytes) : String :=
  String.ofList ('b' :: '"' :: payload.flatMap byte ++ ['"'])

end StoreTrial.Quoted
