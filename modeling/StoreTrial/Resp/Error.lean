import StoreTrial.Decimal.Numeral

/-!
# Malformed frames

What is wrong with bytes that cannot be read as a frame, and the text shown for it.
-/

namespace StoreTrial.Resp

/-- Why bytes break the form of a frame. -/
inductive FormError where
  /-- A null line with something on it. -/
  | nullPayload
  /-- A boolean line other than `t` and `f`. -/
  | badBoolean (shown : String)
  /-- A line that writes no double. -/
  | badDouble (text : String)
  /-- A negative length where null is not meant. -/
  | badLength (n : Int64)
  /-- Data not followed by the end of a line. -/
  | unterminated
  /-- A negative number of elements where null is not meant. -/
  | badCount (n : Int64)
  /-- A negative number of pairs. -/
  | badMapCount (n : Int64)
  /-- A first byte that announces no kind of frame. -/
  | unknownKind (byte : UInt8)
  /-- Any other fault, in words. -/
  | described (text : String)
  deriving Repr, DecidableEq

/-- Why reading a frame failed. -/
inductive Error where
  | malformed (cause : FormError)
  /-- A text that is not UTF-8. -/
  | notText
  /-- A number that is none or does not fit in 64 bits. -/
  | badInteger
  deriving Repr, DecidableEq

/-- The fault in words. -/
def FormError.message : FormError → String
  | .nullPayload => "Null carries no payload"
  | .badBoolean shown => "Invalid boolean: " ++ shown
  | .badDouble text => "Invalid double: " ++ text
  | .badLength n => "Invalid bulk string length: " ++ Decimal.ofInt64 n
  | .unterminated => "Missing CRLF after bulk string data"
  | .badCount n => "Invalid array count: " ++ Decimal.ofInt64 n
  | .badMapCount n => "Invalid map count: " ++ Decimal.ofInt64 n
  | .unknownKind byte => "Unknown type prefix: " ++ String.singleton (Char.ofNat byte.toNat)
  | .described text => text

/-- The text shown for an error. -/
def Error.message : Error → String
  | .malformed cause => "Invalid protocol: " ++ cause.message
  | .notText => "Invalid UTF-8"
  | .badInteger => "Integer overflow"

end StoreTrial.Resp
