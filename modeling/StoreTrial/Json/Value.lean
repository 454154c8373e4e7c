import StoreTrial.Json.Number

/-!
# Documents

A document is a tree of objects, arrays, strings, numbers and the three words. Members keep their
order and may repeat a name. A string is kept as it is written, in characters and in 16-bit units
given by number: units that pair up to no character do no harm in a part that nobody reads.
-/

namespace StoreTrial

namespace Json

/-- One piece of a string. -/
inductive Piece where
  | char (c : Char)
  /-- A 16-bit unit written by number. -/
  | unit (n : Nat)
  deriving Repr, DecidableEq

/-- A string as it is written. -/
abbrev Literal := List Piece

/-- The first half of a pair. -/
def isHigh (n : Nat) : Bool := 0xD800 ≤ n && n ≤ 0xDBFF

/-- The second half of a pair. -/
def isLow (n : Nat) : Bool := 0xDC00 ≤ n && n ≤ 0xDFFF

/-- The characters of a string; none if a unit stands for no character. -/
def Literal.chars? : Literal → Option (List Char)
  | [] => some []
  | .char c :: rest => (chars? rest).map (c :: ·)
  | .unit high :: .unit low :: rest =>
    if isHigh high then
      if isLow low then
        (chars? rest).map
          (Char.ofNat (0x10000 + (high - 0xD800) * 1024 + (low - 0xDC00)) :: ·)
      else none
    else if isLow high then none
    else (chars? (.unit low :: rest)).map (Char.ofNat high :: ·)
  | .unit n :: rest =>
    if isHigh n || isLow n then none else (chars? rest).map (Char.ofNat n :: ·)

/-- The text of a string. -/
def Literal.text? (l : Literal) : Option String := l.chars?.map String.ofList

/-- A control character that has no name of its own is written by number. -/
def isNamed (c : Char) : Bool :=
  c = '\n' || c = '\r' || c = '\t' || c = '\x08' || c = '\x0c' || ' ' ≤ c

/-- The string of a text. -/
def Literal.ofText (text : String) : Literal :=
  text.toList.map fun c => if isNamed c then .char c else .unit c.toNat

end Json

/-- A document or a part of one. -/
inductive Json where
  | null
  | bool (b : Bool)
  | number (n : Json.Number)
  | string (l : Json.Literal)
  | array (items : List Json)
  | object (members : List (Json.Literal × Json))
  deriving Repr

namespace Json

/-! ## Parts of documents that are written -/

/-- A text. -/
def text (s : String) : Json := .string (.ofText s)

/-- A whole number. -/
def nat (n : Nat) : Json := .number (.ofNat n)

/-- A double, or null if it is not finite. -/
def float (x : Float) : Json :=
  match Number.ofFloat? x with
  | some n => .number n
  | none => .null

/-- A part that may be missing. -/
def option {α : Type} (write : α → Json) : Option α → Json
  | some a => write a
  | none => .null

/-- Parts one after another. -/
def list {α : Type} (write : α → Json) (items : List α) : Json := .array (items.map write)

/-- Members under plain names. -/
def record (members : List (String × Json)) : Json :=
  .object (members.map fun (name, value) => (.ofText name, value))

/-! ## Parts of documents that are read -/

/-- The text of a string. -/
def text? : Json → Option String
  | .string l => l.text?
  | _ => none

/-- A whole number below a bound. -/
def natBelow? (bound : Nat) : Json → Option Nat
  | .number n => n.natBelow? bound
  | _ => none

/-- A double. -/
def float? : Json → Option Float
  | .number n => n.toFloat?
  | _ => none

/-- A part that may be null. -/
def option? {α : Type} (read : Json → Option α) : Json → Option (Option α)
  | .null => some none
  | j => (read j).map some

/-- An array of parts of one kind. -/
def list? {α : Type} (read : Json → Option α) : Json → Option (List α)
  | .array items => items.mapM read
  | _ => none

/-- One of several words, also as the name of a single member that is null. -/
def word? {α : Type} (meaning : String → Option α) : Json → Option α
  | .string l => l.text?.bind meaning
  | .object [(name, .null)] => name.text?.bind meaning
  | _ => none

end Json

end StoreTrial
